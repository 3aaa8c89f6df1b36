import Mathlib.Data.List.Basic

/-!
# Merging sorted runs

A merge takes, again and again, an element that stands in front of a run and comes before the fronts of the others
(`Takes`), and puts it at the end of what it has taken. `Merging` is what it keeps; at the end the runs are used up, and
what was taken are their elements in order (`Merging.sorted`).
-/

namespace Merge

open scoped List

variable {α : Type*} {r : α → α → Prop} {all out : List α} {runs runs' : List (List α)} {x : α}

/-- `x` is taken from the front of one of the runs. -/
def Takes (r : α → α → Prop) (runs : List (List α)) (x : α) (runs' : List (List α)) : Prop :=
  ∃ j rest, runs[j]? = some (x :: rest) ∧ runs' = runs.set j rest ∧ ∀ run ∈ runs, ∀ y ∈ run.head?, r x y

/-- What has been taken is in order and comes before what is left; nothing is lost. -/
structure Merging (r : α → α → Prop) (all out : List α) (runs : List (List α)) : Prop where
  each : ∀ run ∈ runs, run.Pairwise r
  perm : all ~ out ++ runs.flatten
  ordered : out.Pairwise r
  before : ∀ x ∈ out, ∀ y ∈ runs.flatten, r x y

theorem flatten_set_perm {j : Nat} {rest : List α} (h : runs[j]? = some (x :: rest)) :
    runs.flatten ~ x :: (runs.set j rest).flatten := by
  induction runs generalizing j with
  | nil => cases h
  | cons run runs ih =>
    cases j with
    | zero =>
      cases h
      exact .refl _
    | succ j =>
      calc
        _ ~ run ++ (x :: (runs.set j rest).flatten) := (ih h).append_left run
        _ ~ x :: (run ++ (runs.set j rest).flatten) := List.perm_middle

theorem Takes.perm (h : Takes r runs x runs') : runs.flatten ~ x :: runs'.flatten := by
  obtain ⟨j, rest, hj, rfl, -⟩ := h
  exact flatten_set_perm hj

/-- The other runs stay, and the rest of a run in order is in order. -/
theorem Takes.pairwise (h : Takes r runs x runs') (hruns : ∀ run ∈ runs, run.Pairwise r) :
    ∀ run ∈ runs', run.Pairwise r := by
  obtain ⟨j, rest, hj, rfl, -⟩ := h
  intro run hrun
  rcases List.mem_or_eq_of_mem_set hrun with hrun | rfl
  · exact hruns run hrun
  · exact (hruns _ (List.mem_of_getElem? hj)).of_cons

/-- What is taken comes before everything that the runs hold. -/
theorem Takes.before (htrans : ∀ x y z, r x y → r y z → r x z) (h : Takes r runs x runs')
    (hruns : ∀ run ∈ runs, run.Pairwise r) : ∀ y ∈ runs.flatten, r x y := by
  obtain ⟨-, -, -, -, hfront⟩ := h
  intro y hy
  obtain ⟨run, hrun, hy⟩ := List.mem_flatten.1 hy
  cases run with
  | nil => cases hy
  | cons front rest =>
    have hx : r x front := hfront _ hrun front rfl
    rcases List.mem_cons.1 hy with rfl | hy
    · exact hx
    · exact htrans _ _ _ hx ((List.pairwise_cons.1 (hruns _ hrun)).1 y hy)

theorem Merging.start (hruns : ∀ run ∈ runs, run.Pairwise r) : Merging r runs.flatten [] runs where
  each := hruns
  perm := .refl _
  ordered := .nil
  before := fun _ hx => nomatch hx

theorem Merging.take (htrans : ∀ x y z, r x y → r y z → r x z) (h : Merging r all out runs)
    (htake : Takes r runs x runs') : Merging r all (out ++ [x]) runs' where
  each := htake.pairwise h.each
  perm := by
    rw [List.append_assoc]
    exact h.perm.trans (htake.perm.append_left out)
  ordered := by
    refine List.pairwise_append.2 ⟨h.ordered, List.pairwise_singleton r x, fun y hy z hz => ?_⟩
    rw [List.eq_of_mem_singleton hz]
    exact h.before y hy x (htake.perm.mem_iff.2 List.mem_cons_self)
  before := by
    intro y hy z hz
    have hmem : z ∈ runs.flatten := htake.perm.mem_iff.2 (List.mem_cons_of_mem x hz)
    rcases List.mem_append.1 hy with hy | hy
    · exact h.before y hy z hmem
    · rw [List.eq_of_mem_singleton hy]
      exact htake.before htrans h.each z hmem

/-- As long as less has been taken than there is, a run has something left. -/
theorem Merging.left (h : Merging r all out runs) : out.length + runs.flatten.length = all.length := by
  rw [h.perm.length_eq, List.length_append]

theorem Merging.sorted (h : Merging r all out runs) (hlen : out.length = all.length) :
    out ~ all ∧ out.Pairwise r := by
  have hleft := h.left
  have hnil : runs.flatten = [] := List.length_eq_zero_iff.1 (by omega)
  refine ⟨?_, h.ordered⟩
  have hperm := h.perm
  rw [hnil, List.append_nil] at hperm
  exact hperm.symm

end Merge
