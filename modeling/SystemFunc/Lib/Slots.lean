import Mathlib.Data.List.Nodup

/-!
# Tables of slots

Threads that start and end keep a table: a slot holds at most one key (`f`), and so does a thread (`g`), which has none
once it has ended. `Registered f g slots ts` says that the table holds exactly the keys of the threads, and each of
them once.

- `slot_set`, `slot_snoc`: what a slot holds when one has been written, or added;
- `Registered.enter`, `Registered.exit`: a thread starts in a free slot, and ends;
- `Registered.keep`: a thread moves and keeps its key;
- `Registered.slot`, `Registered.count_eq_one`: the slot of a thread, of which there is one;
- `Registered.free`: with less threads than slots, a slot is free.
-/

namespace Slots

open scoped List

variable {σ θ κ : Type*}

/-! ## Writing a slot -/

section Set

variable {l : List σ} {i j : Nat} {v w a : σ}

/-- What a slot holds after one has been written. -/
theorem slot_set (h : (l.set i v)[j]? = some a) : j = i ∧ a = v ∨ j ≠ i ∧ l[j]? = some a := by
  by_cases hj : i = j
  · subst hj
    obtain ⟨hlt, he⟩ := List.getElem?_eq_some_iff.1 h
    rw [List.getElem_set_self] at he
    exact .inl ⟨rfl, he.symm⟩
  · rw [List.getElem?_set_ne hj] at h
    exact .inr ⟨Ne.symm hj, h⟩

/-- The other slots keep what they hold. -/
theorem slot_mem_set (hj : j ≠ i) (h : l[j]? = some a) : a ∈ l.set i v :=
  List.mem_iff_getElem?.2 ⟨j, by rw [List.getElem?_set_ne (Ne.symm hj), h]⟩

theorem mem_set_of_ne (hslot : l[i]? = some w) (hne : a ≠ w) (h : a ∈ l) : a ∈ l.set i v := by
  obtain ⟨j, hj⟩ := List.mem_iff_getElem?.1 h
  refine slot_mem_set ?_ hj
  rintro rfl
  exact hne (Option.some.inj (hj.symm.trans hslot))

/-- What a slot holds after one has been added. -/
theorem slot_snoc (h : (l ++ [v])[j]? = some a) : j = l.length ∧ a = v ∨ l[j]? = some a := by
  rcases Nat.lt_or_ge j l.length with hlt | hge
  · rw [List.getElem?_append_left hlt] at h
    exact .inr h
  · rw [List.getElem?_append_right hge, List.getElem?_singleton] at h
    obtain ⟨h0, hv⟩ := Option.ite_none_right_eq_some.1 h
    exact .inl ⟨Nat.le_antisymm (Nat.le_of_sub_eq_zero h0) hge, (Option.some.inj hv).symm⟩

theorem slot_append (h : l[j]? = some a) : (l ++ [v])[j]? = some a :=
  (List.getElem?_append_left (List.getElem?_eq_some_iff.1 h).1).trans h

end Set

/-! ## Tables -/

theorem filterMap_cons_append (g : θ → Option κ) (t : θ) (ts : List θ) :
    (t :: ts).filterMap g = (g t).toList ++ ts.filterMap g := by
  cases h : g t with
  | none => rw [List.filterMap_cons_none h]; rfl
  | some b => rw [List.filterMap_cons_some h]; rfl

/-- Entry `i` changes: its key is exchanged. -/
theorem filterMap_set_perm (g : θ → Option κ) {ts : List θ} {i : Nat} {t : θ} (ht : ts[i]? = some t) (u : θ) :
    (g t).toList ++ (ts.set i u).filterMap g ~ (g u).toList ++ ts.filterMap g := by
  induction ts generalizing i with
  | nil => cases ht
  | cons v ts ih =>
    cases i with
    | zero =>
      cases ht
      rw [List.set_cons_zero, filterMap_cons_append, filterMap_cons_append]
      exact List.perm_append_comm_assoc _ _ _
    | succ i =>
      rw [List.set_cons_succ, filterMap_cons_append, filterMap_cons_append]
      calc
        _ ~ (g v).toList ++ ((g t).toList ++ (ts.set i u).filterMap g) := List.perm_append_comm_assoc _ _ _
        _ ~ (g v).toList ++ ((g u).toList ++ ts.filterMap g) := (ih ht).append_left _
        _ ~ (g u).toList ++ ((g v).toList ++ ts.filterMap g) := List.perm_append_comm_assoc _ _ _

/-- The table holds the keys of the threads, each once. -/
structure Registered (f : σ → Option κ) (g : θ → Option κ) (slots : List σ) (ts : List θ) : Prop where
  perm : slots.filterMap f ~ ts.filterMap g
  nodup : (ts.filterMap g).Nodup

namespace Registered

variable {f : σ → Option κ} {g : θ → Option κ} {slots : List σ} {ts : List θ} {i : Nat} {x x' : σ} {t u : θ} {b : κ}
  (h : Registered f g slots ts)
include h

theorem enter (hx : slots[i]? = some x) (hfree : f x = none) (hf : f x' = some b) (hg : g u = some b)
    (hnew : b ∉ ts.filterMap g) : Registered f g (slots.set i x') (ts ++ [u]) := by
  have hts : (ts ++ [u]).filterMap g ~ b :: ts.filterMap g := by
    rw [List.filterMap_append, List.filterMap_cons_some hg]
    exact List.perm_append_singleton b _
  have hslots := filterMap_set_perm f hx x'
  rw [hfree, hf] at hslots
  exact ⟨(hslots.trans (h.perm.cons b)).trans hts.symm, hts.nodup_iff.2 (List.nodup_cons.2 ⟨hnew, h.nodup⟩)⟩

theorem exit (hx : slots[i]? = some x) (hf : f x = some b) (hfree : f x' = none) {j : Nat} (ht : ts[j]? = some t)
    (hg : g t = some b) (hu : g u = none) : Registered f g (slots.set i x') (ts.set j u) := by
  have hslots := filterMap_set_perm f hx x'
  have hts := filterMap_set_perm g ht u
  rw [hf, hfree] at hslots
  rw [hg, hu] at hts
  have hperm : b :: (slots.set i x').filterMap f ~ b :: (ts.set j u).filterMap g :=
    (hslots.trans h.perm).trans hts.symm
  exact ⟨hperm.cons_inv, (List.nodup_cons.1 (hts.nodup_iff.2 h.nodup)).2⟩

theorem keep {us : List θ} (hk : us.filterMap g ~ ts.filterMap g) : Registered f g slots us :=
  ⟨h.perm.trans hk.symm, hk.nodup_iff.2 h.nodup⟩

theorem slot (ht : t ∈ ts) (hg : g t = some b) : ∃ (j : Nat) (y : σ), slots[j]? = some y ∧ f y = some b := by
  have hmem : b ∈ slots.filterMap f := h.perm.mem_iff.2 (List.mem_filterMap.2 ⟨t, ht, hg⟩)
  obtain ⟨y, hy, hf⟩ := List.mem_filterMap.1 hmem
  obtain ⟨j, hj⟩ := List.mem_iff_getElem?.1 hy
  exact ⟨j, y, hj, hf⟩

theorem count_eq_one [DecidableEq κ] (ht : t ∈ ts) (hg : g t = some b) : (slots.filterMap f).count b = 1 := by
  rw [h.perm.count_eq]
  exact List.nodup_iff_count_eq_one.1 h.nodup _ (List.mem_filterMap.2 ⟨t, ht, hg⟩)

theorem free (hlt : (ts.filterMap g).length < slots.length) : ∃ y ∈ slots, f y = none := by
  rw [← h.perm.length_eq] at hlt
  obtain ⟨y, hy, hf⟩ := List.length_filterMap_lt_length_iff_exists.1 hlt
  exact ⟨y, hy, hf⟩

end Registered

end Slots
