import Mathlib.Logic.Function.Basic

/-!
# Tables with numbered entries

The descriptors of a process and what they refer to, or the blocks of a heap. What is new gets a number that is not in use
(`add`); an entry can be replaced and removed. A table is copied when the process forks.
-/

/-- The entries in use. -/
def Entries (α : Type*) := Nat → Option α

namespace Entries

variable {α : Type*} {t : Entries α} {i j : Nat} {a b : α}

/-- The table of a process that has exited. -/
def empty : Entries α := fun _ => none

def add (t : Entries α) (i : Nat) (a : α) : Entries α := Function.update t i (some a)

def remove (t : Entries α) (i : Nat) : Entries α := Function.update t i none

/-- Something is in use. -/
def Has (t : Entries α) (a : α) : Prop := ∃ i, t i = some a

theorem not_has_empty (a : α) : ¬(empty : Entries α).Has a := fun ⟨_, h⟩ => nomatch h

@[simp] theorem add_self (t : Entries α) (i : Nat) (a : α) : t.add i a i = some a := Function.update_self ..

theorem add_of_ne (h : j ≠ i) (a : α) : t.add i a j = t j := Function.update_of_ne h ..

@[simp] theorem remove_self (t : Entries α) (i : Nat) : t.remove i i = none := Function.update_self ..

theorem remove_of_ne (h : j ≠ i) : t.remove i j = t j := Function.update_of_ne h ..

theorem remove_of_none (h : t i = none) : t.remove i = t := Function.update_eq_self_iff.2 h.symm

theorem add_eq_some : t.add i a j = some b ↔ j = i ∧ a = b ∨ j ≠ i ∧ t j = some b := by
  by_cases h : j = i
  · rw [h, add_self]
    simp
  · rw [add_of_ne h]
    simp [h]

theorem remove_eq_some : t.remove i j = some b ↔ j ≠ i ∧ t j = some b := by
  by_cases h : j = i
  · rw [h, remove_self]
    simp
  · rw [remove_of_ne h]
    simp [h]

theorem add_comm (h : i ≠ j) : (t.add j b).add i a = (t.add i a).add j b := Function.update_comm h.symm _ _ _

theorem add_of_eq (h : t i = some a) : t.add i a = t := Function.update_eq_self_iff.2 h.symm

/-- What is not in use is not what is. -/
theorem ne_of_none (h : t i = none) (hj : t j = some b) : j ≠ i := by
  rintro rfl
  rw [h] at hj
  cases hj

/-- What was added last is removed. -/
theorem remove_add (h : t i = none) (a : α) : (t.add i a).remove i = t := by
  funext j
  by_cases hj : j = i
  · rw [hj, h, remove_self]
  · rw [remove_of_ne hj, add_of_ne hj]

theorem has_add (h : t i = none) : (t.add i a).Has b ↔ b = a ∨ t.Has b := by
  constructor
  · rintro ⟨j, hj⟩
    obtain ⟨-, hab⟩ | ⟨-, hj'⟩ := add_eq_some.1 hj
    · exact .inl hab.symm
    · exact .inr ⟨j, hj'⟩
  · rintro (rfl | ⟨j, hj⟩)
    · exact ⟨i, add_self ..⟩
    · exact ⟨j, add_eq_some.2 (.inr ⟨ne_of_none h hj, hj⟩)⟩

theorem has_remove : (t.remove i).Has a ↔ ∃ j, j ≠ i ∧ t j = some a := exists_congr fun _ => remove_eq_some

theorem Has.of_remove (h : (t.remove i).Has a) : t.Has a := by
  obtain ⟨j, -, hj⟩ := has_remove.1 h
  exact ⟨j, hj⟩

end Entries
