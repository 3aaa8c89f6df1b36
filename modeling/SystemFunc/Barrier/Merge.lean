import SystemFunc.CLang
import SystemFunc.Lib.Merge

/-!
# `merge` of `thread/barrier.c`

The threads have sorted the chunks of `nums`, of `NUM_HANDLER_PER_THREAD` elements each; `merge` keeps an index into
every chunk. Here there are `k` threads, chunks of `m` elements, and arrays of `k * m`; `NUM_ARRAY` is an `int`, so that
the indices are. What is read or written outside an array is undefined.

- `least_ok`: the inner loop finds a chunk whose next element is the least, if one is not used up;
- `merge_sorts`: `snums` is `nums` in ascending order.
-/

namespace SystemFunc.Barrier

open Merge

def LONG_MAX : Int := 2 ^ 63 - 1

/-- What the inner loop has found so far. -/
structure Min where
  minVal : Int
  minTid : Int

/-- The inner loop, at the index `j`. -/
def chunk (m : Nat) (nums : List CInt) (indexArr : List Nat) (s : Min) (j : Nat) : Except Stop Min :=
  match indexArr[j]? with
  | none => .error .undefined
  | some idx =>
    if idx < (j + 1) * m then
      match nums[idx]? with
      | none => .error .undefined
      | some v => if v.1 < s.minVal then .ok ⟨v.1, j⟩ else .ok s
    else .ok s

/-- The inner loop. -/
def least (k m : Nat) (nums : List CInt) (indexArr : List Nat) : Except Stop Min :=
  (List.range k).foldlM (chunk m nums indexArr) ⟨LONG_MAX, -1⟩

structure State where
  indexArr : List Nat
  snums : List CInt

/-- `snums[i] = minVal;`, where a `long` is converted. -/
def toInt (n : Int) : CInt :=
  ⟨s32 n, by unfold IsInt s32; omega⟩

/-- The outer loop, at the index `i`. -/
def pass (k m : Nat) (nums : List CInt) (s : State) (i : Nat) : Except Stop State := do
  let l ← least k m nums s.indexArr
  if l.minTid < 0 then .error (.exit 0 "minTid < 0")
  else
    match s.indexArr[l.minTid.toNat]? with
    | none => .error .undefined
    | some idx =>
      if i < s.snums.length then
        .ok ⟨s.indexArr.set l.minTid.toNat (idx + 1), s.snums.set i (toInt l.minVal)⟩
      else .error .undefined

/-- `snums` is what was in the array. -/
def merge (k m : Nat) (nums snums : List CInt) : Except Stop (List CInt) := do
  let s ← (List.range (k * m)).foldlM (pass k m nums) ⟨(List.range k).map (m * ·), snums⟩
  return s.snums

/-- Ascending order. -/
def Le (a b : CInt) : Prop := a.1 ≤ b.1

instance : DecidableRel Le := fun a b => inferInstanceAs (Decidable (a.1 ≤ b.1))

/-- What is left of a chunk, where `idx` is the index into it. -/
def rest (m : Nat) (nums : List CInt) (j idx : Nat) : List CInt := (nums.take ((j + 1) * m)).drop idx

/-- What is left of every chunk. -/
def rests (m : Nat) (nums : List CInt) (indexArr : List Nat) : List (List CInt) := indexArr.mapIdx (rest m nums)

/-- What the inner loop has found among the first `n` chunks: none of them has an element left, or one of them has the
least in front. -/
inductive Found (rests : List (List CInt)) (n : Nat) : Min → Prop
  | nothing : (∀ run ∈ rests.take n, run = []) → Found rests n ⟨LONG_MAX, -1⟩
  | front {j : Nat} {v : CInt} {tail : List CInt} : rests[j]? = some (v :: tail) →
      (∀ run ∈ rests.take n, ∀ y ∈ run.head?, Le v y) → Found rests n ⟨v.1, j⟩

variable {k m n i j idx : Nat} {nums snums : List CInt} {indexArr : List Nat} {s : State} {l : Min} {v : CInt}

/-! ## The inner loop -/

theorem getElem?_rests (h : indexArr[j]? = some idx) : (rests m nums indexArr)[j]? = some (rest m nums j idx) := by
  rw [rests, List.getElem?_mapIdx, h]
  rfl

/-- A chunk has an element left as long as its index is inside it. -/
theorem rest_cons (hlt : idx < (j + 1) * m) (hv : nums[idx]? = some v) :
    rest m nums j idx = v :: rest m nums j (idx + 1) := by
  have htake : (nums.take ((j + 1) * m))[idx]? = some v := (List.getElem?_take_of_lt hlt).trans hv
  obtain ⟨hidx, rfl⟩ := List.getElem?_eq_some_iff.1 htake
  exact List.drop_eq_getElem_cons hidx

theorem rest_nil (hge : (j + 1) * m ≤ idx) : rest m nums j idx = [] :=
  List.drop_eq_nil_of_le ((List.length_take_le _ _).trans hge)

theorem lt_LONG_MAX (v : CInt) : v.1 < LONG_MAX := by
  have hv := v.2.2
  unfold LONG_MAX
  omega

section Found

variable {rests : List (List CInt)} {run tail : List CInt}

theorem forall_take_succ {P : List CInt → Prop} (hslot : rests[j]? = some run) (hrun : P run)
    (h : ∀ q ∈ rests.take j, P q) : ∀ q ∈ rests.take (j + 1), P q := by
  intro q hq
  rw [List.take_add_one, hslot] at hq
  rcases List.mem_append.1 hq with hq | hq
  · exact h q hq
  · rwa [List.eq_of_mem_singleton hq]

/-- A chunk that is used up changes nothing. -/
theorem Found.skip (h : Found rests j l) (hslot : rests[j]? = some []) : Found rests (j + 1) l := by
  cases h with
  | nothing hnil => exact .nothing (forall_take_succ hslot rfl hnil)
  | front hfront hle => exact .front hfront (forall_take_succ hslot (fun y hy => nomatch hy) hle)

/-- The front of another chunk is compared. -/
theorem Found.compare (h : Found rests j l) (hslot : rests[j]? = some (v :: tail)) :
    Found rests (j + 1) (if v.1 < l.minVal then ⟨v.1, j⟩ else l) := by
  have hself : ∀ y ∈ (v :: tail).head?, Le v y := by
    intro y hy
    cases hy
    exact Int.le_refl _
  cases h with
  | nothing hnil =>
    rw [if_pos (lt_LONG_MAX v)]
    refine .front hslot (forall_take_succ hslot hself fun run hrun y hy => ?_)
    rw [hnil run hrun] at hy
    cases hy
  | @front i w tail' hfront hle =>
    split
    · rename_i hlt
      refine .front hslot (forall_take_succ hslot hself fun run hrun y hy => ?_)
      exact Int.le_trans (Int.le_of_lt hlt) (hle run hrun y hy)
    · rename_i hge
      refine .front hfront (forall_take_succ hslot (fun y hy => ?_) hle)
      exact Int.le_trans (Int.not_lt.1 hge) (hself y hy)

end Found

/-- One chunk more. -/
theorem Found.chunk (h : Found (rests m nums indexArr) j l) (hidx : indexArr[j]? = some idx)
    (hlen : (j + 1) * m ≤ nums.length) :
    ∃ l', chunk m nums indexArr l j = .ok l' ∧ Found (rests m nums indexArr) (j + 1) l' := by
  have hslot : (rests m nums indexArr)[j]? = some (rest m nums j idx) := getElem?_rests hidx
  rw [Barrier.chunk, hidx]
  dsimp only
  by_cases hlt : idx < (j + 1) * m
  · obtain ⟨v, hv⟩ : ∃ v, nums[idx]? = some v := ⟨_, List.getElem?_eq_getElem (Nat.lt_of_lt_of_le hlt hlen)⟩
    rw [rest_cons hlt hv] at hslot
    refine ⟨_, ?_, h.compare hslot⟩
    rw [if_pos hlt, hv]
    dsimp only
    split <;> rfl
  · rw [rest_nil (Nat.not_lt.1 hlt)] at hslot
    exact ⟨l, if_neg hlt, h.skip hslot⟩

/-- **The inner loop** stays inside `nums`, and finds the least of the elements that stand in front. -/
theorem least_ok (hindexArr : indexArr.length = k) (hnums : nums.length = k * m) :
    ∃ l, least k m nums indexArr = .ok l ∧ Found (rests m nums indexArr) k l := by
  refine foldlM_range_ok (P := Found (rests m nums indexArr)) ?_ fun j hj l hl => ?_
  · exact .nothing fun run hrun => absurd hrun List.not_mem_nil
  · obtain ⟨idx, hidx⟩ : ∃ idx, indexArr[j]? = some idx := ⟨_, List.getElem?_eq_getElem (by omega)⟩
    exact hl.chunk hidx (hnums ▸ Nat.mul_le_mul_right m hj)

/-! ## The outer loop -/

/-- Before the outer loop comes to `i`, that many elements have been taken from the chunks. -/
structure Inv (k m : Nat) (nums : List CInt) (i : Nat) (s : State) : Prop where
  indexArr : s.indexArr.length = k
  snums : s.snums.length = k * m
  merging : Merging Le nums (s.snums.take i) (rests m nums s.indexArr)

theorem toInt_val (v : CInt) : toInt v.1 = v := Subtype.ext (s32_of_lt v.2.1 v.2.2)

/-- The index of the chunk that is found moves on. -/
theorem Inv.pass (h : Inv k m nums i s) (hnums : nums.length = k * m) (hi : i < k * m) :
    ∃ s', pass k m nums s i = .ok s' ∧ Inv k m nums (i + 1) s' := by
  obtain ⟨l, hl, hfound⟩ := least_ok h.indexArr hnums
  have htake : (rests m nums s.indexArr).take k = rests m nums s.indexArr := by
    rw [List.take_of_length_le]
    rw [rests, List.length_mapIdx, h.indexArr]
  have hout : (s.snums.take i).length = i := by
    rw [List.length_take, h.snums, Nat.min_eq_left (Nat.le_of_lt hi)]
  rw [Barrier.pass, hl, ok_bind]
  cases hfound with
  | nothing hnil =>
    -- then everything has been taken
    rw [htake] at hnil
    have hleft := h.merging.left
    rw [List.flatten_eq_nil_iff.2 hnil, hout, List.length_nil] at hleft
    omega
  | @front j v tail hslot hle =>
    rw [htake] at hle
    obtain ⟨idx, hidx, hrest⟩ : ∃ idx, s.indexArr[j]? = some idx ∧ rest m nums j idx = v :: tail := by
      rw [rests, List.getElem?_mapIdx] at hslot
      exact Option.map_eq_some_iff.1 hslot
    have htail : tail = rest m nums j (idx + 1) := by
      rw [rest, ← List.drop_drop, ← rest, hrest]
      rfl
    have hneg : ¬((j : Int) < 0) := by omega
    have htakes : Takes Le (rests m nums s.indexArr) v (rests m nums (s.indexArr.set j (idx + 1))) := by
      refine ⟨j, tail, hslot, ?_, hle⟩
      rw [rests, List.mapIdx_set, htail]
      rfl
    refine ⟨⟨s.indexArr.set j (idx + 1), s.snums.set i v⟩, ?_, ?_, ?_, ?_⟩
    · dsimp only
      rw [if_neg hneg, Int.toNat_natCast, hidx]
      dsimp only
      rw [if_pos (h.snums ▸ hi), toInt_val]
    · exact (List.length_set ..).trans h.indexArr
    · exact (List.length_set ..).trans h.snums
    · have hset : (s.snums.set i v).take (i + 1) = s.snums.take i ++ [v] := by
        rw [List.take_add_one, List.take_set_of_le (Nat.le_refl i), List.getElem?_set_self (h.snums ▸ hi)]
        rfl
      rw [hset]
      exact h.merging.take (fun x y z => Int.le_trans) htakes

/-! ## The chunks -/

/-- Before the outer loop nothing has been taken. -/
theorem rests_start : rests m nums ((List.range k).map (m * ·)) =
    (List.range k).map fun j => (nums.drop (m * j)).take m := by
  refine List.ext_getElem? fun j => ?_
  rw [rests, List.getElem?_mapIdx, List.getElem?_map, List.getElem?_map, Option.map_map]
  refine Option.map_congr fun i hi => ?_
  obtain ⟨-, rfl⟩ := List.getElem?_eq_some_iff.1 hi
  rw [List.getElem_range, Function.comp, rest, List.drop_take, Nat.succ_mul, Nat.mul_comm j m, Nat.add_sub_cancel_left]

theorem flatten_chunks : ((List.range k).map fun j => (nums.drop (m * j)).take m).flatten = nums.take (k * m) := by
  induction k with
  | zero => rw [Nat.zero_mul, List.take_zero]; rfl
  | succ k ih =>
    rw [List.range_succ, List.map_append, List.flatten_append, ih, Nat.succ_mul, List.take_add, Nat.mul_comm k m]
    simp

theorem inv_start (hnums : nums.length = k * m) (hsnums : snums.length = k * m)
    (hchunks : ∀ j < k, ((nums.drop (m * j)).take m).Pairwise Le) :
    Inv k m nums 0 ⟨(List.range k).map (m * ·), snums⟩ := by
  refine ⟨by rw [List.length_map, List.length_range], hsnums, ?_⟩
  have hruns : ∀ run ∈ (List.range k).map fun j => (nums.drop (m * j)).take m, run.Pairwise Le := by
    intro run hrun
    obtain ⟨j, hj, rfl⟩ := List.mem_map.1 hrun
    exact hchunks j (List.mem_range.1 hj)
  have hmerging := Merging.start hruns
  rwa [flatten_chunks, List.take_of_length_le (Nat.le_of_eq hnums), ← rests_start] at hmerging

/-- **The merge is correct**: where the chunks of `nums` are in ascending order, `merge` comes to its end, and `snums`
is `nums` in ascending order. -/
theorem merge_sorts (hnums : nums.length = k * m) (hsnums : snums.length = k * m)
    (hchunks : ∀ j < k, ((nums.drop (m * j)).take m).Pairwise Le) :
    ∃ sorted, merge k m nums snums = .ok sorted ∧ sorted.Perm nums ∧ sorted.Pairwise Le := by
  obtain ⟨s, hs, hinv⟩ := foldlM_range_ok (P := Inv k m nums) (inv_start hnums hsnums hchunks)
    fun i hi s hs => hs.pass hnums hi
  refine ⟨s.snums, by rw [merge, hs]; rfl, ?_⟩
  have hmerging := hinv.merging
  rw [List.take_of_length_le (Nat.le_of_eq hinv.snums)] at hmerging
  exact hmerging.sorted (hinv.snums.trans hnums.symm)

/-- Two chunks, with an element that is in both. -/
theorem merge_sorts_two : ∃ sorted,
    merge 2 3 ([1, 5, 5, -2, 5, 7].map toInt) ([0, 0, 0, 0, 0, 0].map toInt) = .ok sorted ∧
      sorted.Perm ([1, 5, 5, -2, 5, 7].map toInt) ∧ sorted.Pairwise Le :=
  merge_sorts rfl rfl (by decide)

end SystemFunc.Barrier
