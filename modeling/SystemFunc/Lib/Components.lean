import Mathlib.Data.List.Induction
import SystemFunc.Lib.Slots
import SystemFunc.Lib.Steps

/-!
# Components

A system has a list of components, each of which is a system of its own. A step lets one of them act, adds a new one,
or leaves them as they are. Then every component makes a run of its own, of the actions that were its own
(`run_component`), whatever the others do.
-/

namespace Components

open Slots (slot_set slot_snoc)

variable {σ α ε β : Type*}

/-- What a step does to the components `es`, where `o` says which of them acts, and how. -/
inductive Moved (estep : ε → β → Option ε) (init : Nat → ε) (es : List ε) : Option (Nat × β) → List ε → Prop
  | stay : Moved estep init es none es
  | new : Moved estep init es none (es ++ [init es.length])
  | act {j : Nat} {b : β} {p q : ε} (hp : es[j]? = some p) (hq : estep p b = some q) :
      Moved estep init es (some (j, b)) (es.set j q)

/-- The actions of component `j`. -/
def actsOf (who : α → Option (Nat × β)) (j : Nat) (as : List α) : List β :=
  as.filterMap fun a => (who a).bind fun x => if x.1 = j then some x.2 else none

variable {who : α → Option (Nat × β)} {j : Nat} {a : α} {b : β}

theorem actsOf_snoc (who : α → Option (Nat × β)) (j : Nat) (as : List α) (a : α) :
    actsOf who j (as ++ [a]) = actsOf who j as ++ actsOf who j [a] := List.filterMap_append

theorem actsOf_none (ha : who a = none) : actsOf who j [a] = [] := by simp [actsOf, ha]

theorem actsOf_self (ha : who a = some (j, b)) : actsOf who j [a] = [b] := by simp [actsOf, ha]

theorem actsOf_ne {i : Nat} (ha : who a = some (i, b)) (h : i ≠ j) : actsOf who j [a] = [] := by
  simp [actsOf, ha, h]

variable {step : σ → α → Option σ} {estep : ε → β → Option ε} {init : Nat → ε} {view : σ → List ε} {I : σ → Prop}

/-- **Every component runs by itself.** -/
theorem run_component (hI : ∀ s a t, I s → step s a = some t → I t)
    (hmove : ∀ s a t, I s → step s a = some t → Moved estep init (view s) (who a) (view t)) {s t : σ} {as : List α}
    (hi : I s) (hnil : view s = []) (hr : Steps.run step s as = some t) :
    (∀ j, (view t).length ≤ j → actsOf who j as = []) ∧
      ∀ j e, (view t)[j]? = some e → Steps.run estep (init j) (actsOf who j as) = some e := by
  induction as using List.reverseRecOn generalizing t with
  | nil =>
    cases hr
    rw [hnil]
    exact ⟨fun _ _ => rfl, fun j e he => by rw [List.getElem?_nil] at he; cases he⟩
  | append_singleton as a ih =>
    obtain ⟨u, hu, hlast⟩ := Steps.run_append.1 hr
    obtain ⟨v, hv, hvt⟩ := Steps.run_cons.1 hlast
    cases hvt
    obtain ⟨hnone, hrun⟩ := ih hu
    have hmoved := hmove u a t (Steps.run_inv hI hi hu) hv
    generalize hes : view u = es at hmoved hnone hrun
    generalize hfs : view t = fs at hmoved
    generalize hwho : who a = o at hmoved
    cases hmoved with
    | stay =>
      refine ⟨fun j hj => ?_, fun j e he => ?_⟩ <;> rw [actsOf_snoc, actsOf_none hwho, List.append_nil]
      · exact hnone j hj
      · exact hrun j e he
    | new =>
      refine ⟨fun j hj => ?_, fun j e he => ?_⟩ <;> rw [actsOf_snoc, actsOf_none hwho, List.append_nil]
      · rw [List.length_append] at hj
        exact hnone j (Nat.le_of_add_right_le hj)
      · obtain ⟨rfl, rfl⟩ | he := slot_snoc he
        · rw [hnone _ (Nat.le_refl _)]
          rfl
        · exact hrun j e he
    | @act i b p q hp hq =>
      have hlt := (List.getElem?_eq_some_iff.1 hp).1
      refine ⟨fun j hj => ?_, fun j e he => ?_⟩ <;> rw [actsOf_snoc]
      · rw [List.length_set] at hj
        rw [actsOf_ne hwho (Nat.ne_of_lt (Nat.lt_of_lt_of_le hlt hj)), List.append_nil]
        exact hnone j hj
      · obtain ⟨rfl, rfl⟩ | ⟨hji, he⟩ := slot_set he
        · rw [actsOf_self hwho]
          exact Steps.run_append.2 ⟨p, hrun j p hp, Steps.run_cons.2 ⟨e, hq, rfl⟩⟩
        · rw [actsOf_ne hwho (Ne.symm hji), List.append_nil]
          exact hrun j e he

end Components
