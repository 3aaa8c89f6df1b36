import Mathlib.Data.List.Sort
import SystemFunc.Barrier.Threads
import SystemFunc.Lib.Progress
import SystemFunc.Lib.Slots

/-!
# The chunks and the barrier

- `Parts`: a thread changes its own chunk only, to an order of what was there, and leaves it sorted;
- `Phase`, `ProgInv`: `main` reads the array when all threads have sorted;
- `ProgInv.wait`, `ProgInv.mainWait`: a call of `pthread_barrier_wait` keeps both.
-/

namespace SystemFunc.Barrier

variable {k m i j : Nat} {nums nums₀ snums cells orig : List CInt} {p q : Prog} {pc : ThreadPc} {a : Act}

/-! ## Chunks -/

theorem compAsc_le {a b : CInt} : compAsc a b ≤ 0 ↔ Le a b := by
  unfold compAsc Le
  split
  · rename_i h
    exact iff_of_true (by decide) h
  · rename_i h
    exact iff_of_false (by decide) h

/-- An insertion sort, which only asks whether the left one may stay on the left. -/
def insertSorted : Qsort := fun comp orig cells => cells == orig.insertionSort fun a b => comp a b ≤ 0

instance : Std.Total fun a b : CInt => compAsc a b ≤ 0 where
  total a b := by
    rw [compAsc_le, compAsc_le]
    exact Int.le_total _ _

instance : IsTrans CInt fun a b => compAsc a b ≤ 0 where
  trans a b c hab hbc := by
    rw [compAsc_le] at hab hbc ⊢
    exact Int.le_trans hab hbc

theorem insertSorted_sorts : Sorts insertSorted := by
  refine ⟨fun orig => ⟨_, beq_self_eq_true _⟩, fun hcells => ?_, fun hcells => ?_⟩
  · rw [eq_of_beq hcells]
    exact List.perm_insertionSort _ _
  · rw [eq_of_beq hcells]
    exact List.pairwise_insertionSort _ _

theorem part_length (hlen : nums.length = k * m) (hj : j < k) : (part m nums j).length = m := by
  have hle : m * j + m ≤ k * m := by
    rw [← Nat.mul_succ, Nat.mul_comm]
    exact Nat.mul_le_mul_right m hj
  rw [part, List.length_take, List.length_drop]
  omega

theorem getElem?_part : (part m nums j)[i]? = if i < m then nums[m * j + i]? else none := by
  rw [part, List.getElem?_take, List.getElem?_drop]

section SetPart

variable (hlen : nums.length = k * m) (hj : j < k) (hcells : cells.length = m)
include hlen hj hcells

theorem setPart_length : (setPart m nums j cells).length = k * m := by
  have hle : m * j + m ≤ k * m := by
    rw [← Nat.mul_succ, Nat.mul_comm]
    exact Nat.mul_le_mul_right m hj
  simp only [setPart, List.length_append, List.length_take, List.length_drop]
  omega

theorem part_setPart_self : part m (setPart m nums j cells) j = cells := by
  have hle : m * j ≤ nums.length := by
    rw [hlen, Nat.mul_comm]
    exact Nat.mul_le_mul_right m (Nat.le_of_lt hj)
  have htake : (nums.take (m * j)).length = m * j := List.length_take_of_le hle
  rw [part, setPart, List.drop_append_of_le_length (Nat.le_of_eq htake.symm), List.drop_of_length_le (Nat.le_of_eq htake),
    List.nil_append, ← hcells, List.take_left]

/-- The other chunks stay. -/
theorem part_setPart_ne (hne : i ≠ j) : part m (setPart m nums j cells) i = part m nums i := by
  have hle : m * j ≤ nums.length := by
    rw [hlen, Nat.mul_comm]
    exact Nat.mul_le_mul_right m (Nat.le_of_lt hj)
  have htake : (nums.take (m * j)).length = m * j := List.length_take_of_le hle
  refine List.ext_getElem? fun r => ?_
  rw [getElem?_part, getElem?_part]
  split
  · rename_i hr
    rw [setPart]
    rcases Nat.lt_or_gt_of_ne hne with hlt | hgt
    · have hi : m * i + m ≤ m * j := by
        rw [← Nat.mul_succ]
        exact Nat.mul_le_mul_left m hlt
      rw [List.getElem?_append_left (by omega), List.getElem?_take_of_lt (by omega)]
    · have hi : m * j + m ≤ m * i := by
        rw [← Nat.mul_succ]
        exact Nat.mul_le_mul_left m hgt
      rw [List.getElem?_append_right (by omega), List.getElem?_append_right (by omega), List.getElem?_drop]
      congr 1
      omega
  · rfl

end SetPart

/-! ## The invariant -/

/-- What the chunk of a thread holds. -/
def PartOk (orig now : List CInt) : ThreadPc → Prop
  | .start => now = orig
  | .sorting found => found = orig
  | .sorted | .blocked | .returned => now.Perm orig ∧ now.Pairwise Le

/-- The chunks, and how long the arrays are; `nums₀` is the array before the first thread. -/
structure Parts (k m : Nat) (nums₀ nums snums : List CInt) (threads : List ThreadPc) : Prop where
  length₀ : nums₀.length = k * m
  length : nums.length = k * m
  out : snums.length = k * m
  le : threads.length ≤ k
  parts : ∀ j pc, threads[j]? = some pc → PartOk (part m nums₀ j) (part m nums j) pc
  rest : ∀ j, threads.length ≤ j → part m nums j = part m nums₀ j

/-- Who is at the barrier. It lets nobody go before all threads, and `main`, have come. -/
inductive Phase (k m : Nat) (p : Prog) : Prop
  | creating {i : Nat} (hmain : p.main = .creating i) (hlen : p.threads.length = i)
      (hwaiting : p.waiting = p.threads.countP ThreadPc.isBlocked) (hret : .returned ∉ p.threads)
  | blocked (hmain : p.main = .blocked) (hlen : p.threads.length = k)
      (hwaiting : p.waiting = p.threads.countP ThreadPc.isBlocked + 1)
      (hlt : p.threads.countP ThreadPc.isBlocked < k) (hret : .returned ∉ p.threads)
  | merging {i : Nat} {s : State} (hmain : p.main = .merging i s) (hlen : p.threads.length = k)
      (hall : ∀ pc ∈ p.threads, pc = .returned) (hi : i ≤ k * m) (hinv : Inv k m p.nums i s)
  | done (hmain : p.main = .done) (hlen : p.threads.length = k) (hall : ∀ pc ∈ p.threads, pc = .returned)
      (hperm : p.snums.Perm p.nums) (hsorted : p.snums.Pairwise Le)

structure ProgInv (k m : Nat) (nums₀ : List CInt) (p : Prog) : Prop where
  parts : Parts k m nums₀ p.nums p.snums p.threads
  phase : Phase k m p

namespace Parts

variable {threads threads' : List ThreadPc} (h : Parts k m nums₀ nums snums threads)
include h

/-- A thread writes to its chunk. -/
theorem write {now : ThreadPc} (hj : threads[j]? = some now) (hcells : cells.length = m)
    (hlen : threads'.length = threads.length)
    (hthreads : ∀ i pc, threads'[i]? = some pc →
      i = j ∧ PartOk (part m nums₀ j) cells pc ∨ i ≠ j ∧ threads[i]? = some pc) :
    Parts k m nums₀ (setPart m nums j cells) snums threads' := by
  have hlt := (List.getElem?_eq_some_iff.1 hj).1
  have hjk := Nat.lt_of_lt_of_le hlt h.le
  refine ⟨h.length₀, setPart_length h.length hjk hcells, h.out, hlen ▸ h.le, fun i pc hi => ?_, fun i hi => ?_⟩
  · rcases hthreads i pc hi with ⟨rfl, hok⟩ | ⟨hne, hi⟩
    · rwa [part_setPart_self h.length hjk hcells]
    · rw [part_setPart_ne h.length hjk hcells hne]
      exact h.parts i pc hi
  · rw [hlen] at hi
    rw [part_setPart_ne h.length hjk hcells (by omega)]
    exact h.rest i hi

/-- A thread moves on. -/
theorem move {now : ThreadPc} (hj : threads[j]? = some now)
    (hok : PartOk (part m nums₀ j) (part m nums j) now → PartOk (part m nums₀ j) (part m nums j) pc) :
    Parts k m nums₀ nums snums (threads.set j pc) := by
  have hlen : (threads.set j pc).length = threads.length := List.length_set ..
  refine ⟨h.length₀, h.length, h.out, hlen ▸ h.le, fun i pc hi => ?_, hlen ▸ h.rest⟩
  rcases Slots.slot_set hi with ⟨rfl, rfl⟩ | ⟨-, hi⟩
  · exact hok (h.parts i now hj)
  · exact h.parts i pc hi

/-- A thread more. -/
theorem create (hlt : threads.length < k) : Parts k m nums₀ nums snums (threads ++ [.start]) := by
  have hlen : (threads ++ [ThreadPc.start]).length = threads.length + 1 := List.length_append
  refine ⟨h.length₀, h.length, h.out, hlen ▸ hlt, fun i pc hi => ?_, fun i hi => h.rest i (by omega)⟩
  rcases Slots.slot_snoc hi with ⟨rfl, rfl⟩ | hi
  · exact h.rest _ (Nat.le_refl _)
  · exact h.parts i pc hi

/-- The barrier lets the threads go. -/
theorem broadcast : Parts k m nums₀ nums snums (barrier.broadcast threads) := by
  have hlen : (barrier.broadcast threads).length = threads.length := List.length_map _
  refine ⟨h.length₀, h.length, h.out, hlen ▸ h.le, fun i pc hi => ?_, hlen ▸ h.rest⟩
  rw [CondVar.broadcast, List.getElem?_map] at hi
  obtain ⟨now, hnow, rfl⟩ := Option.map_eq_some_iff.1 hi
  have hok := h.parts i now hnow
  cases now <;> exact hok

/-- Where all threads have come to the barrier, the chunks are sorted. -/
theorem sorted (hlen : threads.length = k) (hall : ∀ pc ∈ threads, pc = .blocked) :
    ∀ j < k, (part m nums j).Pairwise Le := by
  intro j hj
  have hpc : threads[j]? = some threads[j] := List.getElem?_eq_getElem (hlen ▸ hj)
  have hok := h.parts j _ hpc
  rw [hall _ (List.mem_of_getElem? hpc)] at hok
  exact hok.2

end Parts

/-! ## The barrier -/

theorem isBlocked_iff : pc.isBlocked = true ↔ pc = .blocked := by
  cases pc <;> simp [ThreadPc.isBlocked]

/-- The last one has come. -/
theorem ProgInv.release (h : Parts k m nums₀ p.nums p.snums p.threads) (hmain : p.main = .blocked)
    (hlen : p.threads.length = k) (hcount : p.threads.countP ThreadPc.isBlocked = k) :
    ProgInv k m nums₀ { p with main := p.wakeMain k m, threads := barrier.broadcast p.threads, waiting := 0 } := by
  have hall : ∀ pc ∈ p.threads, pc = .blocked := fun pc hpc =>
    isBlocked_iff.1 (List.countP_eq_length.1 (hcount.trans hlen.symm) pc hpc)
  refine ⟨h.broadcast, ?_⟩
  refine @Phase.merging _ _ _ 0 ⟨(List.range k).map (m * ·), p.snums⟩ ?_ ?_ ?_ (Nat.zero_le _) ?_
  · dsimp only [Prog.wakeMain]
    rw [hmain]
  · exact (List.length_map _).trans hlen
  · intro pc hpc
    obtain ⟨now, hnow, rfl⟩ := List.mem_map.1 hpc
    rw [hall now hnow]
    rfl
  · exact inv_start h.length h.out (h.sorted hlen hall)

/-- `main` comes to the barrier. -/
theorem ProgInv.mainWait (h : ProgInv k m nums₀ p) (hmain : p.main = .creating i) (hi : ¬i < k) :
    ProgInv k m nums₀ (Prog.barrierWait k m { p with main := .blocked }) := by
  obtain ⟨hparts, hphase⟩ := h
  cases hphase with
  | @creating i' hmain' hlen hwaiting hret =>
    obtain rfl : i' = i := MainPc.creating.inj (hmain'.symm.trans hmain)
    have hk : p.threads.length = k := Nat.le_antisymm hparts.le (by omega)
    have hle : p.threads.countP ThreadPc.isBlocked ≤ k := hk ▸ List.countP_le_length
    unfold Prog.barrierWait
    dsimp only
    split
    · rename_i hlast
      exact ProgInv.release (p := { p with main := .blocked }) hparts rfl hk (by dsimp only; omega)
    · rename_i hlast
      refine ⟨hparts, .blocked rfl hk ?_ ?_ hret⟩
      · exact congrArg (· + 1) hwaiting
      · dsimp only
        omega
  | blocked hmain' => cases hmain'.symm.trans hmain
  | merging hmain' => cases hmain'.symm.trans hmain
  | done hmain' => cases hmain'.symm.trans hmain

/-- A thread comes to the barrier. -/
theorem ProgInv.wait (h : ProgInv k m nums₀ p) (hj : p.threads[j]? = some .sorted) :
    ProgInv k m nums₀ (Prog.barrierWait k m { p with threads := p.threads.set j .blocked }) := by
  obtain ⟨hparts, hphase⟩ := h
  have hmoved : Parts k m nums₀ p.nums p.snums (p.threads.set j .blocked) := hparts.move hj id
  have hcount : (p.threads.set j .blocked).countP ThreadPc.isBlocked = p.threads.countP ThreadPc.isBlocked + 1 :=
    CondVar.countP_set_add ThreadPc.isBlocked hj .blocked
  have hlength : (p.threads.set j .blocked).length = p.threads.length := List.length_set ..
  have hle : (p.threads.set j .blocked).countP ThreadPc.isBlocked ≤ (p.threads.set j .blocked).length :=
    List.countP_le_length
  have hkeep : ThreadPc.returned ∉ p.threads → ThreadPc.returned ∉ p.threads.set j .blocked := by
    intro hret hmem
    rcases List.mem_or_eq_of_mem_set hmem with hmem | heq
    · exact hret hmem
    · cases heq
  unfold Prog.barrierWait
  dsimp only
  cases hphase with
  | creating hmain hlen hwaiting hret =>
    have hlek := hparts.le
    rw [if_neg (by omega)]
    exact ⟨hmoved, .creating hmain (hlength.trans hlen) (by dsimp only; omega) (hkeep hret)⟩
  | blocked hmain hlen hwaiting hlt hret =>
    split
    · rename_i hlast
      exact ProgInv.release (p := { p with threads := p.threads.set j .blocked }) hmoved hmain (hlength.trans hlen)
        (hcount.trans (by omega))
    · rename_i hlast
      refine ⟨hmoved, .blocked hmain (hlength.trans hlen) ?_ ?_ (hkeep hret)⟩
      · dsimp only
        omega
      · dsimp only
        omega
  | merging hmain hlen hall => cases hall _ (List.mem_of_getElem? hj)
  | done hmain hlen hall => cases hall _ (List.mem_of_getElem? hj)

end SystemFunc.Barrier
