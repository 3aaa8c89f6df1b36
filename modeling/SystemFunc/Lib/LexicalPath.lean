import Mathlib.Data.List.Basic

/-!
# Paths, component by component

A path is a list of components: this directory, the parent directory, or a name. `resolve` walks down and up, and fails
where it would leave the directory that it began in. It stays inside exactly when, read from the left, the parents never
outnumber the names (`resolve_isSome_iff`).
-/

namespace LexicalPath

inductive Component (ν : Type*) where
  | here
  | parent
  | name (n : ν)
  deriving DecidableEq

variable {ν : Type*}

/-- Where a path leads from the directory that `stack` names, the innermost name first. -/
def resolve : List ν → List (Component ν) → Option (List ν)
  | stack, [] => some stack
  | stack, .here :: path => resolve stack path
  | [], .parent :: _ => none
  | _ :: stack, .parent :: path => resolve stack path
  | stack, .name n :: path => resolve (n :: stack) path

def Component.isParent : Component ν → Bool
  | .parent => true
  | _ => false

def Component.isName : Component ν → Bool
  | .name _ => true
  | _ => false

/-- Read from the left, there are never more parents than names, and `depth` more. -/
def Shallow (depth : Nat) (path : List (Component ν)) : Prop :=
  ∀ l, l <+: path → l.countP Component.isParent ≤ depth + l.countP Component.isName

theorem shallow_cons {depth : Nat} {c : Component ν} {path : List (Component ν)} :
    Shallow depth (c :: path) ↔
      ∀ l, l <+: path → (c :: l).countP Component.isParent ≤ depth + (c :: l).countP Component.isName := by
  constructor
  · intro h l hl
    exact h (c :: l) (List.cons_prefix_cons.2 ⟨rfl, hl⟩)
  · intro h l hl
    cases l with
    | nil => exact Nat.zero_le _
    | cons d l =>
      obtain ⟨rfl, hl'⟩ := List.cons_prefix_cons.1 hl
      exact h l hl'

theorem resolve_isSome_iff (stack : List ν) (path : List (Component ν)) :
    (resolve stack path).isSome = true ↔ Shallow stack.length path := by
  induction path generalizing stack with
  | nil => simp [resolve, Shallow]
  | cons c path ih =>
    rw [shallow_cons]
    cases c with
    | here =>
      rw [resolve, ih]
      exact Iff.rfl
    | name n =>
      rw [resolve, ih]
      apply forall₂_congr
      intro l _
      simp only [List.countP_cons, Component.isParent, Component.isName, List.length_cons, Bool.false_eq_true,
        ↓reduceIte]
      omega
    | parent =>
      cases stack with
      | nil =>
        -- the first parent is already one too many
        refine iff_of_false Bool.false_ne_true fun h => ?_
        have hnil := h [] List.nil_prefix
        simp [Component.isParent, Component.isName] at hnil
      | cons n stack =>
        rw [resolve, ih]
        apply forall₂_congr
        intro l _
        simp only [List.countP_cons, Component.isParent, Component.isName, List.length_cons, Bool.false_eq_true,
          ↓reduceIte]
        omega

end LexicalPath
