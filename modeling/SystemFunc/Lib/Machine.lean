import Mathlib.Logic.Basic

/-!
# Machines with outputs

A machine answers every call and moves on: `step : σ → ι → ο × σ`. Two machines whose states stay related under
every call give the same answers to every sequence of calls (`answers_eq_of_sim`).
-/

namespace Machine

variable {σ τ ι ο : Type*}

/-- The answers to a sequence of calls. -/
def answers (step : σ → ι → ο × σ) : σ → List ι → List ο
  | _, [] => []
  | s, i :: is => (step s i).1 :: answers step (step s i).2 is

/-- The state after a sequence of calls. -/
def after (step : σ → ι → ο × σ) : σ → List ι → σ
  | s, [] => s
  | s, i :: is => after step (step s i).2 is

/-- What every call keeps, and what it gives for the answers. -/
theorem answers_inv {step : σ → ι → ο × σ} {P : σ → Prop} {Q : ο → Prop}
    (hstep : ∀ s i, P s → Q (step s i).1 ∧ P (step s i).2) {s : σ} (hs : P s) (is : List ι) :
    ∀ o ∈ answers step s is, Q o := by
  induction is generalizing s with
  | nil => exact fun o ho => absurd ho List.not_mem_nil
  | cons i is ih =>
    obtain ⟨hq, hp⟩ := hstep s i hs
    exact List.forall_mem_cons.2 ⟨hq, ih hp⟩

variable {f : σ → ι → ο × σ} {g : τ → ι → ο × τ} {R : σ → τ → Prop}
  (hsim : ∀ s t i, R s t → (f s i).1 = (g t i).1 ∧ R (f s i).2 (g t i).2)
include hsim

/-- **Related machines give the same answers.** -/
theorem answers_eq_of_sim {s : σ} {t : τ} (h : R s t) (is : List ι) : answers f s is = answers g t is := by
  induction is generalizing s t with
  | nil => rfl
  | cons i is ih =>
    obtain ⟨ho, hr⟩ := hsim s t i h
    simp only [answers, ho, ih hr]

/-- Related machines stay related. -/
theorem after_sim {s : σ} {t : τ} (h : R s t) (is : List ι) : R (after f s is) (after g t is) := by
  induction is generalizing s t with
  | nil => exact h
  | cons i is ih => exact ih (hsim s t i h).2

end Machine
