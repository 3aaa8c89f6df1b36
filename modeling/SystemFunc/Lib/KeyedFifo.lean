import Mathlib.Data.List.Perm.Basic
import Mathlib.Data.List.Count

/-!
# Queues with keys

A queue whose values have keys; a receiver takes the first value whose key it wants, from wherever it is in the queue.

- `takeFirst_ofKey`: for every key, what is taken was the first value with it;
- `Account`: for every key, what came into the queue is what has left it, and then what is in it. It is kept by both
  operations, and nothing is lost or doubled (`Account.perm`).
-/

namespace KeyedFifo

variable {β κ : Type*} {key : β → κ} {k : κ} {x : β} {xs ys : List β}

/-- The first value whose key is wanted, and the others. -/
def takeFirst (key : β → κ) (want : κ → Prop) [DecidablePred want] : List β → Option (β × List β)
  | [] => none
  | x :: xs => if want (key x) then some (x, xs) else (takeFirst key want xs).map fun r => (r.1, x :: r.2)

variable {want : κ → Prop} [DecidablePred want]

theorem takeFirst_perm (h : takeFirst key want xs = some (x, ys)) : xs.Perm (x :: ys) := by
  induction xs generalizing ys with
  | nil => cases h
  | cons z xs ih =>
    rw [takeFirst] at h
    split at h
    · cases h
      exact .refl _
    · obtain ⟨⟨w, zs⟩, hw, hr⟩ := Option.map_eq_some_iff.1 h
      cases hr
      exact ((ih hw).cons z).trans (.swap ..)

theorem takeFirst_want (h : takeFirst key want xs = some (x, ys)) : want (key x) := by
  induction xs generalizing ys with
  | nil => cases h
  | cons z xs ih =>
    rw [takeFirst] at h
    split at h
    next hz =>
      cases h
      exact hz
    · obtain ⟨⟨w, zs⟩, hw, hr⟩ := Option.map_eq_some_iff.1 h
      cases hr
      exact ih hw

variable [DecidableEq κ]

/-- The values with one key, in their order. -/
def ofKey (key : β → κ) (k : κ) (xs : List β) : List β := xs.filter (key · = k)

@[simp] theorem ofKey_append (k : κ) (xs ys : List β) : ofKey key k (xs ++ ys) = ofKey key k xs ++ ofKey key k ys :=
  List.filter_append ..

theorem ofKey_cons (k : κ) (x : β) (xs : List β) : ofKey key k (x :: xs) = ofKey key k [x] ++ ofKey key k xs :=
  ofKey_append k [x] xs

/-- Values with different keys may change places. -/
theorem ofKey_swap {z : β} (h : key z ≠ key x) (k : κ) : ofKey key k (z :: x :: xs) = ofKey key k (x :: z :: xs) := by
  unfold ofKey
  by_cases hz : key z = k
  · have hx : key x ≠ k := fun he => h (hz.trans he.symm)
    simp [hz, hx]
  · simp [hz, List.filter_cons]

/-- **What is taken was the first with its key.** -/
theorem takeFirst_ofKey (h : takeFirst key want xs = some (x, ys)) (k : κ) :
    ofKey key k xs = ofKey key k (x :: ys) := by
  induction xs generalizing ys with
  | nil => cases h
  | cons z xs ih =>
    rw [takeFirst] at h
    split at h
    · cases h
      rfl
    next hz =>
      obtain ⟨⟨w, zs⟩, hw, hr⟩ := Option.map_eq_some_iff.1 h
      cases hr
      have hne : key z ≠ key w := fun he => hz (he ▸ takeFirst_want hw)
      rw [ofKey_cons, ih hw, ← ofKey_cons]
      exact ofKey_swap hne k

/-! ## Accounts -/

/-- For every key, what came in has left in the same order, or is in the queue. -/
def Account (key : β → κ) (came left queue : List β) : Prop :=
  ∀ k, ofKey key k came = ofKey key k left ++ ofKey key k queue

variable {came left queue queue' : List β}

theorem Account.nil : Account key [] [] [] := fun _ => rfl

theorem Account.put (h : Account key came left queue) (x : β) : Account key (came ++ [x]) left (queue ++ [x]) := by
  intro k
  rw [ofKey_append, ofKey_append, h k, List.append_assoc]

theorem Account.take (h : Account key came left queue) (hx : takeFirst key want queue = some (x, queue')) :
    Account key came (left ++ [x]) queue' := by
  intro k
  rw [h k, takeFirst_ofKey hx k, ofKey_cons, ofKey_append, List.append_assoc]

/-- **Nothing is lost or doubled.** -/
theorem Account.perm [DecidableEq β] (h : Account key came left queue) : came.Perm (left ++ queue) := by
  have hcount : ∀ (xs : List β) (x : β), (ofKey key (key x) xs).count x = xs.count x := fun xs x =>
    List.count_filter (by simp)
  rw [List.perm_iff_count]
  intro x
  rw [List.count_append, ← hcount came, h, List.count_append, hcount, hcount]

end KeyedFifo
