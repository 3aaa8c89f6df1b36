import Mathlib.Algebra.BigOperators.Group.Finset.Piecewise
import Mathlib.Algebra.BigOperators.Group.Finset.Basic
import Mathlib.Data.Fintype.Card

/-!
# Counting threads

A crowd is a finite set of threads with a local state each, `f : θ → β`. `count p f` threads are in a state with `p`;
when one thread moves, the count moves by what `p` says about its old and its new state (`count_update`). A property
that one thread has alone stays so when no other thread has what the moving one gets (`unique_update`).
-/

namespace Crowd

variable {θ β : Type*} [Fintype θ]

/-- The number of threads whose local state has `p`. -/
def count (p : β → Bool) (f : θ → β) : Nat := (Finset.univ.filter fun t => p (f t)).card

variable {p : β → Bool} {f : θ → β}

theorem count_eq_sum : count p f = ∑ t, (p (f t)).toNat := by
  rw [count, Finset.card_filter]
  exact Finset.sum_congr rfl fun t _ => by cases p (f t) <;> rfl

/-- One thread moves. -/
theorem count_update [DecidableEq θ] (t : θ) (b : β) :
    count p (Function.update f t b) + (p (f t)).toNat = count p f + (p b).toNat := by
  rw [count_eq_sum, count_eq_sum, ← Finset.add_sum_erase _ _ (Finset.mem_univ t),
    ← Finset.add_sum_erase (a := t) Finset.univ (fun u => (p (f u)).toNat) (Finset.mem_univ t)]
  have hrest : ∑ u ∈ Finset.univ.erase t, (p (Function.update f t b u)).toNat =
      ∑ u ∈ Finset.univ.erase t, (p (f u)).toNat :=
    Finset.sum_congr rfl fun u hu => by rw [Function.update_of_ne (Finset.ne_of_mem_erase hu)]
  rw [hrest, Function.update_self]
  omega

theorem count_eq_zero (h : ∀ t, p (f t) = false) : count p f = 0 := by simp [count, h]

/-- Two kinds of threads that have no thread in common. -/
theorem count_add {q r : β → Bool} (h : ∀ b, (p b).toNat + (q b).toNat = (r b).toNat) :
    count p f + count q f = count r f := by
  simp only [count_eq_sum, ← Finset.sum_add_distrib, h]

theorem count_pos {t : θ} (h : p (f t) = true) : 0 < count p f :=
  Finset.card_pos.2 ⟨t, Finset.mem_filter.2 ⟨Finset.mem_univ t, h⟩⟩

/-- Of at most one thread with `p`, there are no two. -/
theorem eq_of_count_le_one (hc : count p f ≤ 1) {t u : θ} (ht : p (f t) = true) (hu : p (f u) = true) : t = u :=
  Finset.card_le_one.1 hc t (Finset.mem_filter.2 ⟨Finset.mem_univ t, ht⟩) u
    (Finset.mem_filter.2 ⟨Finset.mem_univ u, hu⟩)

omit [Fintype θ] in
/-- One thread moves, and at most one thread has `P`. -/
theorem unique_update [DecidableEq θ] {P : β → Prop} (h : ∀ u v, P (f u) → P (f v) → u = v) {t : θ} {b : β}
    (hb : P b → ∀ u, u ≠ t → ¬P (f u)) (u v : θ) (hu : P (Function.update f t b u))
    (hv : P (Function.update f t b v)) : u = v := by
  by_cases hut : u = t
  · subst hut
    rw [Function.update_self] at hu
    by_contra hne
    rw [Function.update_of_ne (Ne.symm hne)] at hv
    exact hb hu v (Ne.symm hne) hv
  · rw [Function.update_of_ne hut] at hu
    by_cases hvt : v = t
    · subst hvt
      rw [Function.update_self] at hv
      exact absurd hu (hb hv u hut)
    · rw [Function.update_of_ne hvt] at hv
      exact h u v hu hv

end Crowd
