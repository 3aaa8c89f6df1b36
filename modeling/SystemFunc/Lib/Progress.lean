import Mathlib.Algebra.GroupWithZero.Nat
import SystemFunc.Lib.Steps

/-!
# Runs that come to an end

A measure that no step increases, and that the steps of some kind decrease, bounds the number of these steps in a run
(`run_countP_le`); where steps of another kind increase it, they pay for them (`run_countP_le_mul`). Where every state
that is not final has a step that decreases it, a run to a final state exists from every state (`exists_run_final`).
What threads have left to do is a sum, of which a step changes one summand (`sum_map_set_add`).
-/

namespace Steps

/-- One thread moves. -/
theorem sum_map_set_add {θ : Type*} (f : θ → Nat) {ts : List θ} {i : Nat} {t : θ} (ht : ts[i]? = some t) (u : θ) :
    ((ts.set i u).map f).sum + f t = (ts.map f).sum + f u := by
  induction ts generalizing i with
  | nil => cases ht
  | cons v ts ih =>
    cases i with
    | zero =>
      cases ht
      simp only [List.set_cons_zero, List.map_cons, List.sum_cons]
      omega
    | succ i =>
      have hrest := ih ht
      simp only [List.set_cons_succ, List.map_cons, List.sum_cons]
      omega

theorem countP_cons_toNat {α : Type*} (p : α → Bool) (a : α) (as : List α) :
    (a :: as).countP p = as.countP p + (p a).toNat := by
  rw [List.countP_cons]
  cases p a <;> rfl

variable {σ α : Type*} {step : σ → α → Option σ} {I F : σ → Prop} {f : σ → Nat} {c : α → Bool} {s t : σ}
  (hI : ∀ s a t, I s → step s a = some t → I t)
include hI

/-- A step of the kind `d` pays for `m` steps of the kind `c`. -/
theorem run_countP_le_mul {d : α → Bool} {m : Nat}
    (hf : ∀ s a t, I s → step s a = some t → f t + (c a).toNat ≤ f s + m * (d a).toNat) {as : List α} (hi : I s)
    (hr : run step s as = some t) : f t + as.countP c ≤ f s + m * as.countP d := by
  induction as generalizing s with
  | nil =>
    cases hr
    exact Nat.le_refl _
  | cons a as ih =>
    obtain ⟨u, hu, ht⟩ := run_cons.1 hr
    have hstep := hf s a u hi hu
    have hrest := ih (hI s a u hi hu) ht
    rw [countP_cons_toNat, countP_cons_toNat, Nat.mul_add]
    omega

/-- What is left goes down by the steps of the kind `c` and up by those of the kind `d`. -/
theorem run_countP_eq {d : α → Bool}
    (hf : ∀ s a t, I s → step s a = some t → f t + (c a).toNat = f s + (d a).toNat) {as : List α} (hi : I s)
    (hr : run step s as = some t) : f t + as.countP c = f s + as.countP d := by
  induction as generalizing s with
  | nil =>
    cases hr
    rfl
  | cons a as ih =>
    obtain ⟨u, hu, ht⟩ := run_cons.1 hr
    have hstep := hf s a u hi hu
    have hrest := ih (hI s a u hi hu) ht
    rw [countP_cons_toNat, countP_cons_toNat]
    omega

/-- **The steps of one kind are bounded.** -/
theorem run_countP_le (hf : ∀ s a t, I s → step s a = some t → f t + (c a).toNat ≤ f s) {as : List α} (hi : I s)
    (hr : run step s as = some t) : f t + as.countP c ≤ f s := by
  have hle := run_countP_le_mul (m := 0) (d := fun _ => false) hI
    (fun s a t h hs => Nat.le_trans (hf s a t h hs) (Nat.le_add_right ..)) hi hr
  rwa [Nat.zero_mul] at hle

/-- **A final state can be reached.** -/
theorem exists_run_final (hnext : ∀ s, I s → ¬F s → ∃ a t, step s a = some t ∧ f t < f s) (hi : I s) :
    ∃ as t, run step s as = some t ∧ F t := by
  induction hn : f s using Nat.strongRecOn generalizing s with
  | ind n ih =>
    by_cases hF : F s
    · exact ⟨[], s, rfl, hF⟩
    · obtain ⟨a, u, hu, hlt⟩ := hnext s hi hF
      obtain ⟨as, t, hr, ht⟩ := ih (f u) (hn ▸ hlt) (hI s a u hi hu) rfl
      exact ⟨a :: as, t, run_cons.2 ⟨u, hu, hr⟩, ht⟩

end Steps
