import Mathlib.Data.List.Basic

/-!
# First in, first out, at most `n`

The queue as its callers think of it: a list of at most `n` elements, put in at the tail (`push`) and taken from the
head (`pop`). The bound is a field, so that no operation can leave it.
-/

/-- A list of at most `n` elements, oldest first. -/
structure BoundedFifo (α : Type*) (n : Nat) where
  items : List α
  len_le : items.length ≤ n

namespace BoundedFifo

variable {α : Type*} {n : Nat}

def empty : BoundedFifo α n := ⟨[], Nat.zero_le n⟩

/-- There is room for one more. -/
theorem length_snoc_le (f : BoundedFifo α n) (a : α) (h : f.items.length < n) : (f.items ++ [a]).length ≤ n := by
  rw [List.length_append]
  exact h

/-- Put at the tail, unless there are `n` already. -/
def push (f : BoundedFifo α n) (a : α) : Option (BoundedFifo α n) :=
  if h : f.items.length < n then some ⟨f.items ++ [a], f.length_snoc_le a h⟩ else none

/-- Take from the head. -/
def pop : BoundedFifo α n → Option (α × BoundedFifo α n)
  | ⟨[], _⟩ => none
  | ⟨a :: l, h⟩ => some (a, ⟨l, Nat.le_of_succ_le h⟩)

theorem push_of_lt {f : BoundedFifo α n} (h : f.items.length < n) (a : α) :
    f.push a = some ⟨f.items ++ [a], f.length_snoc_le a h⟩ := dif_pos h

theorem push_full {f : BoundedFifo α n} (h : ¬f.items.length < n) (a : α) : f.push a = none := dif_neg h

theorem pop_nil {f : BoundedFifo α n} (h : f.items = []) : f.pop = none := by
  obtain ⟨l, hl⟩ := f
  cases h; rfl

theorem pop_cons {f : BoundedFifo α n} {a : α} {l : List α} (h : f.items = a :: l) :
    ∃ hl : l.length ≤ n, f.pop = some (a, ⟨l, hl⟩) := by
  obtain ⟨l', hl⟩ := f
  cases h
  exact ⟨Nat.le_of_succ_le hl, rfl⟩

/-! ## What has been put in and taken out -/

variable {f : BoundedFifo α n} {sent taken : List α}

/-- What is put in the queue comes behind all the rest. -/
theorem append_push {a : α} (h : taken ++ f.items = sent) :
    taken ++ ((f.push a).getD f).items = sent ++ ((f.push a).map fun _ => a).toList := by
  by_cases hf : f.items.length < n
  · rw [push_of_lt hf, ← h, List.append_assoc]
    rfl
  · rw [push_full hf]
    exact h.trans (List.append_nil sent).symm

/-- What is taken from it comes next. -/
theorem pop_append (h : taken ++ f.items = sent) :
    taken ++ (f.pop.map Prod.fst).toList ++ ((f.pop.map Prod.snd).getD f).items = sent := by
  cases hf : f.items with
  | nil =>
    rw [pop_nil hf, ← h]
    exact congrArg (· ++ f.items) (List.append_nil taken)
  | cons a l =>
    obtain ⟨hl, hpop⟩ := pop_cons hf
    rw [hpop, ← h, hf]
    exact List.append_assoc taken [a] l

end BoundedFifo
