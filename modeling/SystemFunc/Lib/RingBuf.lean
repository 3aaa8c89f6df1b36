import Mathlib.Data.Nat.ModEq
import Mathlib.Data.List.Basic

/-!
# The contents of a ring

`contents d cells cap head count` lists the `count` cells of an array of `cap` cells that follow `head`, wrapping
around at the end. Writing the next cell appends to it (`contents_push`), moving the head drops its first element
(`contents_pop`).
-/

namespace RingBuf

variable {β : Type*}

/-- The `count` cells from `head` on, around the end of the array. `d` is read outside the array. -/
def contents (d : β) (cells : List β) (cap head count : Nat) : List β :=
  (List.range count).map fun i => cells.getD ((head + i) % cap) d

variable {d : β} {cells : List β} {cap head count : Nat}

@[simp] theorem contents_length : (contents d cells cap head count).length = count := by simp [contents]

/-- Two offsets within one turn are different cells. -/
theorem offset_ne {i j : Nat} (hi : i < j) (hj : j < cap) : (head + i) % cap ≠ (head + j) % cap := by
  intro h
  have hm : i ≡ j [MOD cap] := Nat.ModEq.add_left_cancel' head h
  have := Nat.ModEq.eq_of_lt_of_lt hm (by omega) hj
  omega

/-- Writing the cell behind the last one appends it. -/
theorem contents_push (hlen : cells.length = cap) (hc : count < cap) (a : β) :
    contents d (cells.set ((head + count) % cap) a) cap head (count + 1) =
      contents d cells cap head count ++ [a] := by
  unfold contents
  rw [List.range_succ, List.map_append]
  congr 1
  · apply List.map_congr_left
    intro i hi
    have hne : (head + i) % cap ≠ (head + count) % cap := offset_ne (List.mem_range.1 hi) hc
    simp [List.getD_eq_getElem?_getD, hne.symm]
  · have hlt : (head + count) % cap < cells.length := by rw [hlen]; exact Nat.mod_lt _ (by omega)
    simp [List.getD_eq_getElem?_getD, hlt]

/-- Moving the head drops the first element. -/
theorem contents_pop :
    contents d cells cap head (count + 1) =
      cells.getD (head % cap) d :: contents d cells cap ((head + 1) % cap) count := by
  unfold contents
  rw [List.range_succ_eq_map, List.map_cons, List.map_map]
  congr 1
  apply List.map_congr_left
  intro i _
  have : (head + (i + 1)) % cap = ((head + 1) % cap + i) % cap := by
    rw [Nat.mod_add_mod]; congr 1; omega
  simp only [Function.comp_apply, Nat.succ_eq_add_one, this]

end RingBuf
