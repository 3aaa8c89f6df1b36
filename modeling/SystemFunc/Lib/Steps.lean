import Mathlib.Logic.Basic

/-!
# Runs of partial steps

A system is a function `step : σ → α → Option σ`: the state after an action, or `none` where the action cannot
happen. The action carries every choice that is left open (who is scheduled, what the environment answers), so a
run is a list of actions (`run`) and can be evaluated.

- `Reach init step`: the states of all runs; `Reach.inv` is the induction over them;
- `run_inv`: what every step keeps, every run keeps;
- `Along P s as` and `Meets C s as`: every state of one run, and every step of it. `along_iff_meets` turns a
  condition on the steps into a property of the states, and back; `meets_iff_meets` compares two conditions.
-/

namespace Steps

variable {σ α : Type*}

/-- The state after a list of actions. -/
def run (step : σ → α → Option σ) : σ → List α → Option σ
  | s, [] => some s
  | s, a :: as => (step s a).bind fun t => run step t as

variable {step : σ → α → Option σ}

@[simp] theorem run_nil (s : σ) : run step s [] = some s := rfl

theorem run_cons {s u : σ} {a : α} {as : List α} :
    run step s (a :: as) = some u ↔ ∃ t, step s a = some t ∧ run step t as = some u := by
  simp only [run, Option.bind_eq_some_iff]

theorem run_append {s u : σ} {as bs : List α} :
    run step s (as ++ bs) = some u ↔ ∃ t, run step s as = some t ∧ run step t bs = some u := by
  induction as generalizing s with
  | nil => simp
  | cons a as ih =>
    simp only [List.cons_append, run_cons, ih]
    constructor
    · rintro ⟨t, ht, v, hv, hu⟩
      exact ⟨v, ⟨t, ht, hv⟩, hu⟩
    · rintro ⟨v, ⟨t, ht, hv⟩, hu⟩
      exact ⟨t, ht, v, hv, hu⟩

/-- The last step of a run. -/
theorem run_last {s u : σ} {as : List α} (h : run step s as = some u) :
    as = [] ∧ u = s ∨ ∃ bs b t, as = bs ++ [b] ∧ run step s bs = some t ∧ step t b = some u := by
  rcases List.eq_nil_or_concat as with rfl | ⟨bs, b, rfl⟩
  · cases h
    exact .inl ⟨rfl, rfl⟩
  · rw [List.concat_eq_append] at h ⊢
    obtain ⟨t, ht, hlast⟩ := run_append.1 h
    obtain ⟨v, hv, hvu⟩ := run_cons.1 hlast
    cases hvu
    exact .inr ⟨bs, b, t, rfl, ht, hv⟩

/-- A property that every step keeps holds at the end of every run. -/
theorem run_inv {P : σ → Prop} (hstep : ∀ s a t, P s → step s a = some t → P t) {s t : σ} {as : List α}
    (hs : P s) (h : run step s as = some t) : P t := by
  induction as generalizing s with
  | nil => cases h; exact hs
  | cons a as ih =>
    obtain ⟨u, hu, ht⟩ := run_cons.1 h
    exact ih (hstep s a u hs hu) ht

/-- Two systems that look the same through `f` and `g` at every step look the same at the end of every run. -/
theorem run_map_eq {τ ρ : Type*} {step' : τ → α → Option τ} {f : σ → ρ} {g : τ → ρ}
    (hstep : ∀ s t a, f s = g t → (step s a).map f = (step' t a).map g) {s : σ} {t : τ} (h : f s = g t)
    (as : List α) : (run step s as).map f = (run step' t as).map g := by
  induction as generalizing s t with
  | nil => exact congrArg some h
  | cons a as ih =>
    have hs := hstep s t a h
    simp only [run]
    cases hu : step s a with
    | none =>
      rw [hu, Option.map_none, eq_comm, Option.map_eq_none_iff] at hs
      rw [hs]
      rfl
    | some u =>
      rw [hu, Option.map_some, eq_comm, Option.map_eq_some_iff] at hs
      obtain ⟨v, hv, hvu⟩ := hs
      rw [hv]
      exact ih hvu.symm

/-! ## Reachable states -/

/-- The states of the runs that start in `init`. -/
def Reach (init : σ → Prop) (step : σ → α → Option σ) (t : σ) : Prop :=
  ∃ s as, init s ∧ run step s as = some t

variable {init : σ → Prop}

/-- **The invariant rule.** -/
theorem Reach.inv {P : σ → Prop} (hinit : ∀ s, init s → P s) (hstep : ∀ s a t, P s → step s a = some t → P t)
    {t : σ} (h : Reach init step t) : P t := by
  obtain ⟨s, as, hs, hr⟩ := h
  exact run_inv hstep (hinit s hs) hr

/-- A run from a reachable state ends in one. -/
theorem Reach.run {s t : σ} (h : Reach init step s) (as : List α) (hr : run step s as = some t) :
    Reach init step t := by
  obtain ⟨s₀, bs, hs, hb⟩ := h
  exact ⟨s₀, bs ++ as, hs, run_append.2 ⟨s, hb, hr⟩⟩

theorem Reach.next {s t : σ} {a : α} (h : Reach init step s) (hs : step s a = some t) : Reach init step t :=
  h.run [a] (run_cons.2 ⟨t, hs, rfl⟩)

/-- The invariant rule, where what is known of the reachable states is used. -/
theorem Reach.inv_reach {P : σ → Prop} (hinit : ∀ s, init s → P s)
    (hstep : ∀ s a t, Reach init step s → P s → step s a = some t → P t) {t : σ} (h : Reach init step t) : P t := by
  have hboth : Reach init step t ∧ P t := by
    refine h.inv (P := fun s => Reach init step s ∧ P s) (fun s hs => ⟨⟨s, [], hs, rfl⟩, hinit s hs⟩) ?_
    rintro s a t ⟨hr, hp⟩ hs
    exact ⟨hr.next hs, hstep s a t hr hp hs⟩
  exact hboth.2

/-! ## The states and the steps of one run -/

/-- `P` holds in every state of the run of `as` from `s`. -/
def Along (step : σ → α → Option σ) (P : σ → Prop) : σ → List α → Prop
  | s, [] => P s
  | s, a :: as => P s ∧ ∀ t, step s a = some t → Along step P t as

/-- Every step of the run of `as` from `s` meets `C`, a condition on the action and the state before it. -/
def Meets (step : σ → α → Option σ) (C : σ → α → Prop) : σ → List α → Prop
  | _, [] => True
  | s, a :: as => ∀ t, step s a = some t → C s a ∧ Meets step C t as

/-- Whether a given run meets a condition can be computed. -/
instance Meets.decidable {C : σ → α → Prop} [∀ s, DecidablePred (C s)] : ∀ s as, Decidable (Meets step C s as)
  | _, [] => isTrue trivial
  | s, a :: as =>
    match h : step s a with
    | none => isTrue fun t ht => by rw [h] at ht; cases ht
    | some t =>
      have := Meets.decidable (C := C) t as
      decidable_of_iff (C s a ∧ Meets step C t as) <| by simp [Meets, h]

theorem Along.head {P : σ → Prop} {s : σ} {as : List α} (h : Along step P s as) : P s := by
  cases as with
  | nil => exact h
  | cons a as => exact h.1

theorem Along.last {P : σ → Prop} {s t : σ} {as : List α} (h : Along step P s as) (hr : run step s as = some t) :
    P t := by
  induction as generalizing s with
  | nil =>
    cases hr
    exact h
  | cons a as ih =>
    obtain ⟨u, hu, ht⟩ := run_cons.1 hr
    exact ih (h.2 u hu) ht

theorem Along.mono {P Q : σ → Prop} (hPQ : ∀ s, P s → Q s) {s : σ} {as : List α} (h : Along step P s as) :
    Along step Q s as := by
  induction as generalizing s with
  | nil => exact hPQ s h
  | cons a as ih => exact ⟨hPQ s h.1, fun t ht => ih (h.2 t ht)⟩

theorem Along.and {P Q : σ → Prop} {s : σ} {as : List α} (hp : Along step P s as) (hq : Along step Q s as) :
    Along step (fun s => P s ∧ Q s) s as := by
  induction as generalizing s with
  | nil => exact ⟨hp, hq⟩
  | cons a as ih => exact ⟨⟨hp.1, hq.1⟩, fun t ht => ih (hp.2 t ht) (hq.2 t ht)⟩

/-- What a run meets, the rest of it meets. -/
theorem Meets.rest {C : σ → α → Prop} {s t : σ} {as bs : List α} (h : Meets step C s (as ++ bs))
    (hr : run step s as = some t) : Meets step C t bs := by
  induction as generalizing s with
  | nil =>
    cases hr
    exact h
  | cons a as ih =>
    obtain ⟨u, hu, ht⟩ := run_cons.1 hr
    exact ih (h u hu).2 ht

/-- A property that every step keeps holds along every run. -/
theorem along_inv {P : σ → Prop} (hstep : ∀ s a t, P s → step s a = some t → P t) {s : σ} (hs : P s) (as : List α) :
    Along step P s as := by
  induction as generalizing s with
  | nil => exact hs
  | cons a as ih => exact ⟨hs, fun t ht => ih (hstep s a t hs ht)⟩

section Condition

variable {I P : σ → Prop} {C : σ → α → Prop}

/-- **The condition is exact**: within it a step keeps the property, and a step outside it does not. The invariant is
only needed where the property has held so far. -/
theorem along_iff_meets_while (hI : ∀ s a t, I s → P s → P t → step s a = some t → I t)
    (hP : ∀ s a t, I s → P s → C s a → step s a = some t → P t)
    (hC : ∀ s a t, I s → P s → P t → step s a = some t → C s a) {s : σ} {as : List α} (hi : I s) (hp : P s) :
    Along step P s as ↔ Meets step C s as := by
  induction as generalizing s with
  | nil => exact ⟨fun _ => trivial, fun _ => hp⟩
  | cons a as ih =>
    constructor
    · intro h t ht
      have hpt : P t := (h.2 t ht).head
      exact ⟨hC s a t hi hp hpt ht, (ih (hI s a t hi hp hpt ht) hpt).1 (h.2 t ht)⟩
    · intro h
      refine ⟨hp, fun t ht => ?_⟩
      obtain ⟨hc, hm⟩ := h t ht
      have hpt : P t := hP s a t hi hp hc ht
      exact (ih (hI s a t hi hp hpt ht) hpt).2 hm

variable (hI : ∀ s a t, I s → step s a = some t → I t)
  (hP : ∀ s a t, I s → P s → C s a → step s a = some t → P t)
include hI hP

/-- A property that every step within the condition keeps holds along the runs that meet the condition. -/
theorem along_of_meets {s : σ} {as : List α} (hi : I s) (hp : P s) (hm : Meets step C s as) :
    Along step P s as := by
  induction as generalizing s with
  | nil => exact hp
  | cons a as ih =>
    refine ⟨hp, fun t ht => ?_⟩
    obtain ⟨hc, hm'⟩ := hm t ht
    exact ih (hI s a t hi ht) (hP s a t hi hp hc ht) hm'

/-- The condition is exact, with an invariant of all runs. -/
theorem along_iff_meets (hC : ∀ s a t, I s → P s → P t → step s a = some t → C s a) {s : σ} {as : List α}
    (hi : I s) (hp : P s) : Along step P s as ↔ Meets step C s as :=
  along_iff_meets_while (fun s a t hi _ _ hs => hI s a t hi hs) hP hC hi hp

end Condition

/-- Two conditions that say the same of every step are met by the same runs. The invariant is only needed where the
first has been met so far. -/
theorem meets_iff_meets {I : σ → Prop} {C D : σ → α → Prop}
    (hI : ∀ s a t, I s → C s a → step s a = some t → I t)
    (hCD : ∀ s a t, I s → step s a = some t → (C s a ↔ D s a)) {s : σ} {as : List α} (hi : I s) :
    Meets step C s as ↔ Meets step D s as := by
  induction as generalizing s with
  | nil => exact Iff.rfl
  | cons a as ih =>
    refine forall_congr' fun t => forall_congr' fun ht => ?_
    rw [← hCD s a t hi ht]
    exact and_congr_right fun hc => ih (hI s a t hi hc ht)

end Steps
