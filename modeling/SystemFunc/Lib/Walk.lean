import Mathlib.Data.Finset.Card

/-!
# Going through a set

`Walk ready done left` says where a walk through the set `ready` is: `done` lists what has been visited, each once, and
`left` holds of the rest. Visiting an element takes it out of what is left (`Walk.visit`), and when as many have been
visited as there are, none is left (`Walk.none_left`).
-/

structure Walk {α : Type*} (ready : Finset α) (done : List α) (left : α → Prop) : Prop where
  once : done.Nodup
  reported : ∀ a ∈ done, a ∈ ready
  rest : ∀ a ∈ ready, left a ↔ a ∉ done

namespace Walk

variable {α : Type*} {ready : Finset α} {done : List α} {left left' : α → Prop}

theorem start (h : ∀ a ∈ ready, left a) : Walk ready [] left where
  once := List.nodup_nil
  reported := by simp
  rest a ha := by simp [h a ha]

/-- Only what is left of `ready` counts. -/
theorem congr (h : Walk ready done left) (hl : ∀ a ∈ ready, left a ↔ left' a) : Walk ready done left' :=
  ⟨h.once, h.reported, fun a ha => (hl a ha).symm.trans (h.rest a ha)⟩

/-- The next one. -/
theorem visit {a : α} (h : Walk ready done left) (ha : a ∈ ready) (hleft : left a) :
    Walk ready (done ++ [a]) fun b => left b ∧ b ≠ a := by
  have hnew : a ∉ done := (h.rest a ha).1 hleft
  refine ⟨?_, ?_, ?_⟩
  · rw [List.nodup_append]
    refine ⟨h.once, List.nodup_singleton a, fun b hb c hc => ?_⟩
    rw [List.mem_singleton.1 hc]
    exact fun he => hnew (he ▸ hb)
  · intro b hb
    rcases List.mem_append.1 hb with hb | hb
    · exact h.reported b hb
    · rw [List.mem_singleton.1 hb]
      exact ha
  · intro b hb
    rw [List.mem_append, List.mem_singleton, not_or, h.rest b hb]

/-- Where nothing is left, everything has been visited. -/
theorem all (h : Walk ready done left) (hnone : ∀ a ∈ ready, ¬left a) : ∀ a ∈ ready, a ∈ done := by
  intro a ha
  by_contra hno
  exact hnone a ha ((h.rest a ha).2 hno)

/-- If as many have been visited as there are, none is left. -/
theorem none_left (h : Walk ready done left) (hcard : ready.card ≤ done.length) : ∀ a ∈ ready, ¬left a := by
  classical
  have hsub : done.toFinset ⊆ ready := fun a ha => h.reported a (List.mem_toFinset.1 ha)
  have hlen : ready.card ≤ done.toFinset.card := by rwa [List.toFinset_card_of_nodup h.once]
  have heq := Finset.eq_of_subset_of_card_le hsub hlen
  intro a ha hleft
  rw [← heq, List.mem_toFinset] at ha
  exact (h.rest a (h.reported a ha)).1 hleft ha

end Walk
