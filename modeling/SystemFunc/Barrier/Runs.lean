import SystemFunc.Barrier.Parts

/-!
# The program sorts

- `Prog.left`: what is left to do, which every step but those of `qsort` decreases;
- `prog_sorts`: `snums` is the array in order, and nothing is stuck before.
-/

namespace SystemFunc.Barrier

variable {k m i j : Nat} {nums nums₀ snums cells orig : List CInt} {p q : Prog} {pc : ThreadPc} {a : Act}
  {qsort : Qsort}

/-! ## What is left to do -/

/-- A step of `main` or of a thread; what `qsort` does to its cells before it returns is none. -/
def Act.counts : Act → Bool
  | .scratch .. => false
  | _ => true

def ThreadPc.left : ThreadPc → Nat
  | .start => 3
  | .sorting _ => 2
  | .sorted => 1
  | .blocked | .returned => 0

def MainPc.left (k m : Nat) : MainPc → Nat
  | .creating i => 4 * (k - i) + k * m + 3
  | .blocked => k * m + 2
  | .merging i _ => k * m - i + 1
  | .done => 0

def Prog.left (k m : Nat) (p : Prog) : Nat := (p.threads.map ThreadPc.left).sum + p.main.left k m

theorem left_broadcast (threads : List ThreadPc) :
    (barrier.broadcast threads).map ThreadPc.left = threads.map ThreadPc.left := by
  rw [CondVar.broadcast, List.map_map]
  refine List.map_congr_left fun pc _ => ?_
  cases pc <;> rfl

theorem left_barrierWait (k m : Nat) (p : Prog) : (Prog.barrierWait k m p).left k m ≤ p.left k m := by
  unfold Prog.barrierWait
  split
  · unfold Prog.left
    dsimp only
    rw [left_broadcast]
    refine Nat.add_le_add_left ?_ _
    unfold Prog.wakeMain
    split
    · rename_i hmain
      rw [hmain, MainPc.left, MainPc.left]
      omega
    · exact Nat.le_refl _
  · exact Nat.le_refl _

/-- A thread moves on. -/
theorem left_set {now : ThreadPc} (hj : p.threads[j]? = some now) (hlt : pc.left < now.left) (nums : List CInt) :
    Prog.left k m { p with nums := nums, threads := p.threads.set j pc } + 1 ≤ p.left k m := by
  have hsum := Steps.sum_map_set_add ThreadPc.left hj pc
  unfold Prog.left
  dsimp only
  omega

/-- **Every step but those inside `qsort` brings the program nearer to its end.** -/
theorem left_act (hact : act qsort k m p a = .ok q) : q.left k m + a.counts.toNat ≤ p.left k m := by
  cases a with
  | create ok =>
    unfold act create at hact
    dsimp only at hact
    split at hact
    · rename_i i hmain
      split at hact
      · rename_i hi
        split at hact
        · cases hact
          simp only [Prog.left, hmain, MainPc.left, List.map_append, List.sum_append, List.map_cons, List.map_nil,
            List.sum_cons, List.sum_nil, ThreadPc.left, Act.counts, Bool.toNat_true]
          omega
        · cases hact
      · cases hact
    · cases hact
  | mainWait =>
    unfold act mainWait at hact
    dsimp only at hact
    split at hact
    · rename_i i hmain
      split at hact
      · cases hact
      · cases hact
        have hle := left_barrierWait k m { p with main := .blocked }
        simp only [Prog.left, hmain, MainPc.left, Act.counts, Bool.toNat_true] at hle ⊢
        omega
    · cases hact
  | merge =>
    unfold act mergePass at hact
    dsimp only at hact
    split at hact
    · rename_i i s hmain
      split at hact
      · rename_i hi
        obtain ⟨t, -, ht⟩ := bind_eq_ok.1 hact
        cases ht
        simp only [Prog.left, hmain, MainPc.left, Act.counts, Bool.toNat_true]
        omega
      · cases hact
        simp only [Prog.left, hmain, MainPc.left, Act.counts, Bool.toNat_true]
        omega
    · cases hact
  | sort j =>
    unfold act callQsort at hact
    dsimp only at hact
    split at hact
    · rename_i hj
      cases hact
      refine left_set hj ?_ p.nums
      exact Nat.lt_succ_self 2
    · cases hact
  | scratch j cells =>
    unfold act scratch at hact
    dsimp only at hact
    split at hact
    · split at hact
      · cases hact
        exact Nat.le_refl _
      · cases hact
    · cases hact
  | sorted j cells =>
    unfold act qsortReturn at hact
    dsimp only at hact
    split at hact
    · rename_i hj
      split at hact
      · cases hact
        refine left_set hj ?_ _
        exact Nat.lt_succ_self 1
      · cases hact
    · cases hact
  | wait j =>
    unfold act threadWait at hact
    dsimp only at hact
    split at hact
    · rename_i hj
      cases hact
      have hset : Prog.left k m { p with threads := p.threads.set j .blocked } + 1 ≤ p.left k m := by
        refine left_set hj ?_ p.nums
        exact Nat.zero_lt_one
      exact Nat.le_trans (Nat.succ_le_succ (left_barrierWait k m _)) hset
    · cases hact

/-! ## Runs -/

theorem progInv_start (hnums : nums₀.length = k * m) (hsnums : snums.length = k * m) :
    ProgInv k m nums₀ (.start nums₀ snums) :=
  ⟨⟨hnums, hnums, hsnums, Nat.zero_le k, fun _ _ h => (nomatch h), fun _ _ => rfl⟩,
    .creating rfl rfl rfl List.not_mem_nil⟩

/-- A thread moves on its way to the barrier. -/
theorem Phase.set {now : ThreadPc} (h : Phase k m p) (hj : p.threads[j]? = some now) (hnow : now.isBlocked = false)
    (hne : now ≠ .returned) (hpc : pc.isBlocked = false) (hret' : pc ≠ .returned) (nums : List CInt) :
    Phase k m { p with nums := nums, threads := p.threads.set j pc } := by
  have hcount : (p.threads.set j pc).countP ThreadPc.isBlocked = p.threads.countP ThreadPc.isBlocked := by
    have hset := CondVar.countP_set_add ThreadPc.isBlocked hj pc
    rwa [hnow, hpc] at hset
  have hlength : (p.threads.set j pc).length = p.threads.length := List.length_set ..
  have hkeep : ThreadPc.returned ∉ p.threads → ThreadPc.returned ∉ p.threads.set j pc := by
    intro hret hmem
    rcases List.mem_or_eq_of_mem_set hmem with hmem | heq
    · exact hret hmem
    · exact hret' heq.symm
  cases h with
  | creating hmain hlen hwaiting hret =>
    exact .creating hmain (hlength.trans hlen) (hwaiting.trans hcount.symm) (hkeep hret)
  | blocked hmain hlen hwaiting hlt hret =>
    rw [← hcount] at hwaiting hlt
    exact .blocked hmain (hlength.trans hlen) hwaiting hlt (hkeep hret)
  | merging hmain hlen hall => exact absurd (hall _ (List.mem_of_getElem? hj)) hne
  | done hmain hlen hall => exact absurd (hall _ (List.mem_of_getElem? hj)) hne

namespace ProgInv

variable (h : ProgInv k m nums₀ p)
include h

theorem create {ok : Bool} (hact : create k p ok = .ok q) : ProgInv k m nums₀ q := by
  unfold Barrier.create at hact
  split at hact
  · rename_i i hmain
    split at hact
    · rename_i hi
      split at hact
      · cases hact
        obtain ⟨hparts, hphase⟩ := h
        cases hphase with
        | @creating i' hmain' hlen hwaiting hret =>
          obtain rfl : i' = i := MainPc.creating.inj (hmain'.symm.trans hmain)
          refine ⟨hparts.create (hlen ▸ hi), .creating rfl ?_ ?_ ?_⟩
          · dsimp only
            rw [List.length_append, hlen]
            rfl
          · dsimp only
            rw [List.countP_append, hwaiting]
            rfl
          · intro hmem
            rcases List.mem_append.1 hmem with hmem | hmem
            · exact hret hmem
            · cases List.eq_of_mem_singleton hmem
        | blocked hmain' => cases hmain'.symm.trans hmain
        | merging hmain' => cases hmain'.symm.trans hmain
        | done hmain' => cases hmain'.symm.trans hmain
      · cases hact
    · cases hact
  · cases hact

/-- What `merge` has found is in order. -/
theorem mergePass (hact : mergePass k m p = .ok q) : ProgInv k m nums₀ q := by
  unfold Barrier.mergePass at hact
  split at hact
  · rename_i i s hmain
    obtain ⟨hparts, hphase⟩ := h
    cases hphase with
    | @merging i' s' hmain' hlen hall hi hinv =>
      obtain ⟨rfl, rfl⟩ : i' = i ∧ s' = s := MainPc.merging.inj (hmain'.symm.trans hmain)
      split at hact
      · rename_i hlt
        obtain ⟨t, hpass, hinv⟩ := hinv.pass hparts.length hlt
        rw [hpass, ok_bind] at hact
        cases hact
        exact ⟨hparts, .merging rfl hlen hall hlt hinv⟩
      · rename_i hge
        cases hact
        obtain rfl : i' = k * m := Nat.le_antisymm hi (Nat.not_lt.1 hge)
        have hmerging := hinv.merging
        rw [List.take_of_length_le (Nat.le_of_eq hinv.snums)] at hmerging
        obtain ⟨hperm, hsorted⟩ := hmerging.sorted (hinv.snums.trans hparts.length.symm)
        exact ⟨{ hparts with out := hinv.snums }, .done rfl hlen hall hperm hsorted⟩
    | creating hmain' => cases hmain'.symm.trans hmain
    | blocked hmain' => cases hmain'.symm.trans hmain
    | done hmain' => cases hmain'.symm.trans hmain
  · cases hact

theorem callQsort (hact : callQsort m p j = .ok q) : ProgInv k m nums₀ q := by
  unfold Barrier.callQsort at hact
  split at hact
  · rename_i hj
    cases hact
    refine ⟨h.parts.move hj id, h.phase.set hj rfl ?_ rfl ?_ p.nums⟩
    · exact nofun
    · exact nofun
  · cases hact

theorem scratch (hact : scratch m p j cells = .ok q) : ProgInv k m nums₀ q := by
  unfold Barrier.scratch at hact
  split at hact
  · rename_i orig hj
    split at hact
    · rename_i hcells
      cases hact
      have hsame : p.threads.set j (.sorting orig) = p.threads := by
        obtain ⟨hlt, heq⟩ := List.getElem?_eq_some_iff.1 hj
        rw [← heq, List.set_getElem_self]
      have hne : ThreadPc.sorting orig ≠ .returned := nofun
      have hphase := h.phase.set hj rfl hne rfl hne (setPart m p.nums j cells)
      rw [hsame] at hphase
      refine ⟨h.parts.write hj hcells rfl fun i pc hi => ?_, hphase⟩
      by_cases hij : i = j
      · subst hij
        cases hi.symm.trans hj
        exact .inl ⟨rfl, h.parts.parts i _ hj⟩
      · exact .inr ⟨hij, hi⟩
    · cases hact
  · cases hact

/-- The chunk is sorted. -/
theorem qsortReturn (hsorts : Sorts qsort) (hact : qsortReturn qsort m p j cells = .ok q) : ProgInv k m nums₀ q := by
  unfold Barrier.qsortReturn at hact
  split at hact
  · rename_i orig hj
    split at hact
    · rename_i hq
      cases hact
      have horig : orig = part m nums₀ j := h.parts.parts j _ hj
      have hjk := Nat.lt_of_lt_of_le (List.getElem?_eq_some_iff.1 hj).1 h.parts.le
      have hcells : cells.length = m := by
        rw [(hsorts.perm hq).length_eq, horig]
        exact part_length h.parts.length₀ hjk
      refine ⟨h.parts.write hj hcells (List.length_set ..) fun i pc hi => ?_,
        h.phase.set hj rfl nofun rfl ThreadPc.noConfusion (setPart m p.nums j cells)⟩
      rcases Slots.slot_set hi with ⟨rfl, rfl⟩ | ⟨hne, hi⟩
      · exact .inl ⟨rfl, horig ▸ hsorts.perm hq, (hsorts.sorted hq).imp fun hab => compAsc_le.1 hab⟩
      · exact .inr ⟨hne, hi⟩
    · cases hact
  · cases hact

theorem act (hsorts : Sorts qsort) (hact : act qsort k m p a = .ok q) : ProgInv k m nums₀ q := by
  cases a with
  | create ok => exact h.create hact
  | mainWait =>
    unfold Barrier.act Barrier.mainWait at hact
    dsimp only at hact
    split at hact
    · rename_i i hmain
      split at hact
      · cases hact
      · rename_i hi
        cases hact
        exact h.mainWait hmain hi
    · cases hact
  | merge => exact h.mergePass hact
  | sort j => exact h.callQsort hact
  | scratch j cells => exact h.scratch hact
  | sorted j cells => exact h.qsortReturn hsorts hact
  | wait j =>
    unfold Barrier.act threadWait at hact
    dsimp only at hact
    split at hact
    · rename_i hj
      cases hact
      exact h.wait hj
    · cases hact

/-- **Nobody waits for ever**: as long as `main` is not done, `main` or a thread can go on. -/
theorem moves (hsorts : Sorts qsort) (hmain : p.main ≠ .done) :
    ∃ a, a.counts = true ∧ (step qsort k m p a).isSome := by
  obtain ⟨hparts, hphase⟩ := h
  cases hphase with
  | @creating i hmain' hlen hwaiting hret =>
    by_cases hi : i < k
    · refine ⟨.create true, rfl, ?_⟩
      simp only [step, Barrier.act, Barrier.create, hmain', if_pos hi, if_true]
      rfl
    · refine ⟨.mainWait, rfl, ?_⟩
      simp only [step, Barrier.act, Barrier.mainWait, hmain', if_neg hi]
      rfl
  | blocked hmain' hlen hwaiting hlt hret =>
    obtain ⟨pc, hpc, hfree⟩ : ∃ pc ∈ p.threads, ¬pc.isBlocked = true := by
      by_contra hall
      have hcount : p.threads.countP ThreadPc.isBlocked = p.threads.length := by
        refine List.countP_eq_length.2 fun pc hpc => ?_
        by_contra hfree
        exact hall ⟨pc, hpc, hfree⟩
      omega
    obtain ⟨j, hj⟩ := List.mem_iff_getElem?.1 hpc
    cases pc with
    | start =>
      refine ⟨.sort j, rfl, ?_⟩
      simp only [step, Barrier.act, Barrier.callQsort, hj]
      rfl
    | sorting orig =>
      obtain ⟨cells, hq⟩ := hsorts.returns orig
      refine ⟨.sorted j cells, rfl, ?_⟩
      simp only [step, Barrier.act, Barrier.qsortReturn, hj, if_pos hq]
      rfl
    | sorted =>
      refine ⟨.wait j, rfl, ?_⟩
      simp only [step, Barrier.act, threadWait, hj]
      rfl
    | blocked => exact absurd rfl hfree
    | returned => exact absurd hpc hret
  | @merging i s hmain' hlen hall hi hinv =>
    refine ⟨.merge, rfl, ?_⟩
    by_cases hlt : i < k * m
    · obtain ⟨t, hpass, -⟩ := hinv.pass hparts.length hlt
      simp only [step, Barrier.act, Barrier.mergePass, hmain', if_pos hlt, hpass]
      rfl
    · simp only [step, Barrier.act, Barrier.mergePass, hmain', if_neg hlt]
      rfl
  | done hmain' => exact absurd hmain' hmain

/-- A pass of `merge` stays inside the arrays, and does not take the error exit. -/
theorem mergePass_disabled {e : Stop} (hact : Barrier.mergePass k m p = .error e) : e = .disabled := by
  unfold Barrier.mergePass at hact
  split at hact
  · rename_i i s hmain
    split at hact
    · rename_i hlt
      obtain ⟨hparts, hphase⟩ := h
      cases hphase with
      | @merging i' s' hmain' hlen hall hi hinv =>
        obtain ⟨rfl, rfl⟩ : i' = i ∧ s' = s := MainPc.merging.inj (hmain'.symm.trans hmain)
        obtain ⟨t, hpass, -⟩ := hinv.pass hparts.length hlt
        rw [hpass, ok_bind] at hact
        cases hact
      | creating hmain' => cases hmain'.symm.trans hmain
      | blocked hmain' => cases hmain'.symm.trans hmain
      | done hmain' => cases hmain'.symm.trans hmain
    · cases hact
  · cases hact
    rfl

/-- Nothing undefined happens but where `pthread_create` fails, and the process does not exit. -/
theorem disabled {e : Stop} (hact : Barrier.act qsort k m p a = .error e) : e = .disabled ∨ a = .create false := by
  cases a with
  | merge => exact .inl (h.mergePass_disabled hact)
  | create ok =>
    cases ok with
    | false => exact .inr rfl
    | true =>
      simp only [Barrier.act, Barrier.create, if_true] at hact
      split at hact
      · split at hact <;> cases hact
        exact .inl rfl
      · cases hact
        exact .inl rfl
  | mainWait =>
    simp only [Barrier.act, Barrier.mainWait] at hact
    split at hact
    · split at hact <;> cases hact
      exact .inl rfl
    · cases hact
      exact .inl rfl
  | sort j =>
    simp only [Barrier.act, Barrier.callQsort] at hact
    split at hact <;> cases hact
    exact .inl rfl
  | scratch j cells =>
    simp only [Barrier.act, Barrier.scratch] at hact
    split at hact
    · split at hact <;> cases hact
      exact .inl rfl
    · cases hact
      exact .inl rfl
  | sorted j cells =>
    simp only [Barrier.act, Barrier.qsortReturn] at hact
    split at hact
    · split at hact <;> cases hact
      exact .inl rfl
    · cases hact
      exact .inl rfl
  | wait j =>
    simp only [Barrier.act, threadWait] at hact
    split at hact <;> cases hact
    exact .inl rfl

/-- The chunks are sorted where all threads have returned. -/
theorem chunk (hall : ∀ pc ∈ p.threads, pc = .returned) (hj : j < p.threads.length) :
    (part m p.nums j).Perm (part m nums₀ j) ∧ (part m p.nums j).Pairwise Le := by
  have hpc : p.threads[j]? = some p.threads[j] := List.getElem?_eq_getElem hj
  have hok := h.parts.parts j _ hpc
  rwa [hall _ (List.mem_of_getElem? hpc)] at hok

/-- The array has kept its elements where all chunks have. -/
theorem perm (hlen : p.threads.length = k) (hall : ∀ pc ∈ p.threads, pc = .returned) : p.nums.Perm nums₀ := by
  have hparts : ∀ j ∈ List.range k, (part m p.nums j).Perm (part m nums₀ j) := fun j hj =>
    (h.chunk hall (hlen ▸ List.mem_range.1 hj)).1
  have hflat := List.Perm.flatMap_left _ hparts
  rw [List.flatMap_def, List.flatMap_def] at hflat
  have hnow : ((List.range k).map (part m p.nums)).flatten = p.nums :=
    flatten_chunks.trans (List.take_of_length_le (Nat.le_of_eq h.parts.length))
  have hbefore : ((List.range k).map (part m nums₀)).flatten = nums₀ :=
    flatten_chunks.trans (List.take_of_length_le (Nat.le_of_eq h.parts.length₀))
  rwa [hnow, hbefore] at hflat

/-- **Whoever is behind the barrier finds the chunks sorted.** -/
theorem behind (hp : p.behind) :
    p.threads.length = k ∧ (∀ pc ∈ p.threads, pc = .returned) ∧
      ∀ j < k, (part m p.nums j).Perm (part m nums₀ j) ∧ (part m p.nums j).Pairwise Le := by
  suffices hreturned : p.threads.length = k ∧ ∀ pc ∈ p.threads, pc = .returned from
    ⟨hreturned.1, hreturned.2, fun j hj => h.chunk hreturned.2 (hreturned.1.symm ▸ hj)⟩
  cases h.phase with
  | creating hmain hlen hwaiting hret =>
    rcases hp with hp | hp
    · exact absurd hp hret
    · rw [hmain] at hp
      exact hp.elim
  | blocked hmain hlen hwaiting hlt hret =>
    rcases hp with hp | hp
    · exact absurd hp hret
    · rw [hmain] at hp
      exact hp.elim
  | merging hmain hlen hall => exact ⟨hlen, hall⟩
  | done hmain hlen hall => exact ⟨hlen, hall⟩

end ProgInv

theorem step_eq_some : step qsort k m p a = some q ↔ act qsort k m p a = .ok q := by
  unfold step
  cases act qsort k m p a <;> simp [Except.toOption]

/-- What is so at the end of the run of `as`. -/
structure ProgSpec (qsort : Qsort) (k m : Nat) (nums₀ : List CInt) (as : List Act) (p : Prog) : Prop where
  sorted : p.main = .done → p.snums.Perm nums₀ ∧ p.snums.Pairwise Le
  behind : p.behind → p.threads.length = k ∧ (∀ pc ∈ p.threads, pc = .returned) ∧
    ∀ j < k, (part m p.nums j).Perm (part m nums₀ j) ∧ (part m p.nums j).Pairwise Le
  safe : ∀ a e, act qsort k m p a = .error e → e = .disabled ∨ a = .create false
  moves : p.main ≠ .done → ∃ a, a.counts = true ∧ (step qsort k m p a).isSome
  bounded : as.countP Act.counts ≤ 4 * k + k * m + 3

/-- **The program sorts.** In every run, nobody gets behind the barrier before all chunks are sorted, nothing undefined
happens but where `pthread_create` fails, and where `main` comes to its end, `snums` is the array in ascending order;
and `main` comes to its end after a bounded number of steps. -/
theorem prog_sorts (hsorts : Sorts qsort) (hnums : nums₀.length = k * m) (hsnums : snums.length = k * m)
    {as : List Act} (hr : Steps.run (step qsort k m) (.start nums₀ snums) as = some p) :
    ProgSpec qsort k m nums₀ as p := by
  have hinv : ProgInv k m nums₀ p :=
    Steps.run_inv (fun s a t hs ht => hs.act hsorts (step_eq_some.1 ht)) (progInv_start hnums hsnums) hr
  refine ⟨fun hdone => ?_, hinv.behind, fun a e => hinv.disabled, hinv.moves hsorts, ?_⟩
  · cases hinv.phase with
    | done hmain hlen hall hperm hsorted => exact ⟨hperm.trans (hinv.perm hlen hall), hsorted⟩
    | creating hmain => cases hmain.symm.trans hdone
    | blocked hmain => cases hmain.symm.trans hdone
    | merging hmain => cases hmain.symm.trans hdone
  · have hcount := Steps.run_countP_le (I := fun _ => True) (c := Act.counts) (fun _ _ _ _ _ => trivial)
      (fun s a t _ ht => left_act (step_eq_some.1 ht)) trivial hr
    have hleft : (Prog.start nums₀ snums).left k m = 4 * k + k * m + 3 := by
      simp [Prog.left, Prog.start, MainPc.left]
    omega

/-- Two threads; the second one is at the barrier before the first one calls `qsort`. -/
def twoThreads : List Act :=
  [.create true, .create true, .sort 1, .scratch 1 ([9, 9].map toInt), .sorted 1 ([-2, 5].map toInt), .wait 1, .mainWait,
    .sort 0, .sorted 0 ([1, 5].map toInt), .wait 0, .merge, .merge, .merge, .merge, .merge]

theorem prog_sorts_twoThreads : ∃ p,
    Steps.run (step insertSorted 2 2) (.start ([5, 1, 5, -2].map toInt) ([0, 0, 0, 0].map toInt)) twoThreads = some p ∧
      p.snums = [-2, 1, 5, 5].map toInt ∧ ProgSpec insertSorted 2 2 ([5, 1, 5, -2].map toInt) twoThreads p := by
  have hrun : (Steps.run (step insertSorted 2 2) (.start ([5, 1, 5, -2].map toInt) ([0, 0, 0, 0].map toInt)) twoThreads).map
      Prog.snums = some ([-2, 1, 5, 5].map toInt) := by decide +kernel
  obtain ⟨p, hp, hsnums⟩ := Option.map_eq_some_iff.1 hrun
  exact ⟨p, hp, hsnums, prog_sorts insertSorted_sorts rfl rfl hp⟩

end SystemFunc.Barrier
