import Mathlib.Data.List.Basic

/-!
# Lines

A line of a list ends in a separator; the last one may end with the list. `first` is the first line, `lines` lists all
of them, and `chomp` is a line without its separator.

- `lines_cons_of_line` and `lines_tail`: the lines of a list from its start on;
- `lines_flatten`: nothing is lost;
- `lines_end_iff`: whether the last line has a separator.
-/

namespace Lines

variable {β : Type*} [DecidableEq β] {sep : β} {l s : List β}

/-- The shortest prefix that ends in `sep`, or the whole list. -/
def first (sep : β) (s : List β) : List β := s.take (s.idxOf sep + 1)

/-- The lines, with their separators. -/
def lines (sep : β) : List β → List (List β)
  | [] => []
  | b :: s =>
    if b = sep then [b] :: lines sep s
    else match lines sep s with
      | [] => [[b]]
      | l :: ls => (b :: l) :: ls

/-- A line without its separator. -/
def chomp (sep : β) (l : List β) : List β := if l.getLast? = some sep then l.dropLast else l

@[simp] theorem lines_nil : lines sep [] = [] := rfl

theorem first_of_line (h : sep ∉ l) : first sep (l ++ sep :: s) = l ++ [sep] := by
  have hidx : (l ++ sep :: s).idxOf sep = l.length := by
    rw [List.idxOf_append_of_notMem h, List.idxOf_cons_self, Nat.add_zero]
  rw [first, hidx, List.take_length_add_append]
  rfl

theorem first_of_notMem (h : sep ∉ s) : first sep s = s := by
  rw [first, List.idxOf_of_notMem h]
  exact List.take_of_length_le (Nat.le_succ _)

/-- A line and what is behind it. -/
theorem lines_cons_of_line (h : sep ∉ l) : lines sep (l ++ sep :: s) = (l ++ [sep]) :: lines sep s := by
  induction l with
  | nil => simp [lines]
  | cons b l ih =>
    rw [List.mem_cons, not_or] at h
    rw [List.cons_append, lines, if_neg (Ne.symm h.1), ih h.2]
    rfl

/-- What is behind the last separator. -/
theorem lines_tail (h : sep ∉ l) (hne : l ≠ []) : lines sep l = [l] := by
  induction l with
  | nil => exact absurd rfl hne
  | cons b l ih =>
    rw [List.mem_cons, not_or] at h
    rw [lines, if_neg (Ne.symm h.1)]
    cases l with
    | nil => rfl
    | cons c l => rw [ih h.2 (List.cons_ne_nil c l)]

theorem lines_flatten (s : List β) : (lines sep s).flatten = s := by
  induction s with
  | nil => rfl
  | cons b s ih =>
    rw [lines]
    split
    · rw [List.flatten_cons, ih]
      rfl
    · split
      next hnil =>
        rw [hnil] at ih
        rw [← ih]
        rfl
      next l ls hcons =>
        rw [hcons] at ih
        rw [List.flatten_cons, List.cons_append, ← List.flatten_cons, ih]

theorem ne_nil_of_mem_lines (h : l ∈ lines sep s) : l ≠ [] := by
  induction s generalizing l with
  | nil => cases h
  | cons b s ih =>
    rw [lines] at h
    split at h
    · rcases List.mem_cons.1 h with rfl | h
      · exact List.cons_ne_nil b []
      · exact ih h
    · split at h
      next => exact List.mem_singleton.1 h ▸ List.cons_ne_nil b []
      next l' ls hcons =>
        rcases List.mem_cons.1 h with rfl | h
        · exact List.cons_ne_nil b l'
        · exact ih (hcons ▸ List.mem_cons_of_mem l' h)

/-- Every line has its separator exactly when the list ends with one. -/
theorem lines_end_iff : (∀ l ∈ lines sep s, l.getLast? = some sep) ↔ s = [] ∨ s.getLast? = some sep := by
  induction s with
  | nil => simp
  | cons b s ih =>
    rw [lines]
    split
    next hb =>
      rw [List.forall_mem_cons, ih, hb]
      cases s <;> simp
    next hb =>
      split
      next hnil =>
        have hs : (lines sep s).flatten = s := lines_flatten s
        rw [hnil] at hs
        rw [← hs]
        simp
      next l ls hcons =>
        have hmem : l ∈ lines sep s := hcons ▸ List.mem_cons_self
        have hne := ne_nil_of_mem_lines hmem
        have hs : s ≠ [] := fun he => by
          rw [he] at hcons
          cases hcons
        have hlast : ∀ {t : List β}, t ≠ [] → (b :: t).getLast? = t.getLast? := by
          intro t ht
          cases t with
          | nil => exact absurd rfl ht
          | cons c t => rfl
        rw [hcons, List.forall_mem_cons] at ih
        rw [List.forall_mem_cons, hlast hne, hlast hs, ih]
        simp [hs]

theorem chomp_eq_dropLast_iff (hne : l ≠ []) : chomp sep l = l.dropLast ↔ l.getLast? = some sep := by
  unfold chomp
  split
  next h => exact iff_of_true rfl h
  next h =>
    refine iff_of_false (fun he => ?_) h
    have hlen := congrArg List.length he
    have hpos := List.length_pos_iff.2 hne
    rw [List.length_dropLast] at hlen
    omega

end Lines
