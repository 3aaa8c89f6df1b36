import Mathlib.Data.List.Basic

/-!
# Buffers

A buffer is the function of its cells. `slice buf i n` lists the `n` cells from `i` on, `store buf i bs` writes a list
there. Storing behind a slice appends to it (`slice_store`), storing twice is storing once (`store_append`), and the
cells of a slice from some point on are a slice again (`slice_drop`, `slice_take`).
-/

namespace Buffer

variable {β : Type*} {buf : Nat → β} {i n : Nat} {bs : List β}

/-- The `n` cells from `i` on. -/
def slice (buf : Nat → β) (i n : Nat) : List β := (List.range n).map fun k => buf (i + k)

/-- The buffer with `bs` from `i` on. -/
def store (buf : Nat → β) (i : Nat) (bs : List β) : Nat → β := fun k =>
  if i ≤ k then (bs[k - i]?).getD (buf k) else buf k

@[simp] theorem slice_length : (slice buf i n).length = n := by simp [slice]

@[simp] theorem slice_zero : slice buf i 0 = [] := rfl

theorem slice_add {m : Nat} : slice buf i (n + m) = slice buf i n ++ slice buf (i + n) m := by
  simp [slice, List.range_add, Nat.add_assoc]

theorem slice_take {m : Nat} (h : m ≤ n) : (slice buf i n).take m = slice buf i m := by
  obtain ⟨k, rfl⟩ := Nat.exists_eq_add_of_le h
  simp [slice_add]

theorem slice_le {m : Nat} (h : m ≤ n) : slice buf i m <+: slice buf i n := by
  rw [← slice_take h]
  exact List.take_prefix _ _

theorem slice_drop {m : Nat} (h : m ≤ n) : (slice buf i n).drop m = slice buf (i + m) (n - m) := by
  obtain ⟨k, rfl⟩ := Nat.exists_eq_add_of_le h
  simp [slice_add]

/-- What is stored is there. -/
theorem slice_store_self : slice (store buf i bs) i bs.length = bs := by
  apply List.ext_getElem (by simp)
  intro k _ hk
  simp [slice, store, hk]

/-- What was in front is still there. -/
theorem slice_store_left {j : Nat} (h : i + n ≤ j) : slice (store buf j bs) i n = slice buf i n := by
  refine List.map_congr_left fun k hk => ?_
  have hlt : ¬j ≤ i + k := by have := List.mem_range.1 hk; omega
  simp [store, hlt]

/-- Storing behind a slice appends to it. -/
theorem slice_store : slice (store buf (i + n) bs) i (n + bs.length) = slice buf i n ++ bs := by
  rw [slice_add, slice_store_self, slice_store_left (Nat.le_refl _)]

@[simp] theorem store_nil : store buf i [] = buf := by
  funext k
  simp [store]

/-- Storing behind what has been stored. -/
theorem store_append {cs : List β} : store (store buf i bs) (i + bs.length) cs = store buf i (bs ++ cs) := by
  funext k
  unfold store
  by_cases hi : i ≤ k
  · by_cases hk : i + bs.length ≤ k
    · have hsub : k - i - bs.length = k - (i + bs.length) := by omega
      have hnone : bs[k - i]? = none := List.getElem?_eq_none (by omega)
      rw [if_pos hk, if_pos hi, if_pos hi, hnone, List.getElem?_append_right (by omega), hsub]
      rfl
    · rw [if_neg hk, if_pos hi, if_pos hi, List.getElem?_append_left (by omega)]
  · have hk : ¬i + bs.length ≤ k := by omega
    rw [if_neg hk, if_neg hi, if_neg hi]

end Buffer
