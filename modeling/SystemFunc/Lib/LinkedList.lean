import Mathlib.Data.List.Nodup

/-!
# Linked lists in a heap

A heap `mem : A → Option N` has nodes at some addresses, and `next` reads the pointer in a node. `Chain mem head l`:
the pointers from `head` on visit the addresses `l` and end in a null pointer.

- `Chain.unique`, `Chain.nodup`: there is one such list, without repetition;
- `Chain.frame`, `Chain.push`, `Chain.pop`: heap updates elsewhere, a node in front, and the first node off;
- `Chain.mem_iff`: the list is what can be reached from `head`.
-/

namespace LinkedList

variable {A N : Type*} {next : N → Option A}

/-- The addresses from `head` on. -/
def Chain (next : N → Option A) (mem : A → Option N) : Option A → List A → Prop
  | head, [] => head = none
  | head, a :: l => head = some a ∧ ∃ n, mem a = some n ∧ Chain next mem (next n) l

/-- `a` can be reached from `head`. -/
inductive Reaches (next : N → Option A) (mem : A → Option N) : Option A → A → Prop
  | here (a : A) : Reaches next mem (some a) a
  | next {a b : A} {n : N} : mem a = some n → Reaches next mem (next n) b → Reaches next mem (some a) b

variable {mem mem' : A → Option N} {head : Option A} {l : List A}

theorem Chain.live (h : Chain next mem head l) {a : A} (ha : a ∈ l) : ∃ n, mem a = some n := by
  induction l generalizing head with
  | nil => cases ha
  | cons b l ih =>
    obtain ⟨-, n, hn, hl⟩ := h
    rcases List.mem_cons.1 ha with rfl | ha
    · exact ⟨n, hn⟩
    · exact ih hl ha

/-- Updates elsewhere. -/
theorem Chain.frame (h : Chain next mem head l) (hm : ∀ a ∈ l, mem' a = mem a) : Chain next mem' head l := by
  induction l generalizing head with
  | nil => exact h
  | cons a l ih =>
    obtain ⟨hh, n, hn, hl⟩ := h
    exact ⟨hh, n, (hm a (by simp)).trans hn, ih hl fun b hb => hm b (by simp [hb])⟩

theorem Chain.update [DecidableEq A] (h : Chain next mem head l) {a : A} (ha : a ∉ l) (n : Option N) :
    Chain next (Function.update mem a n) head l :=
  h.frame fun b hb => by
    have hne : b ≠ a := fun he => ha (he ▸ hb)
    exact Function.update_of_ne hne _ _

theorem Chain.push (h : Chain next mem head l) {a : A} {n : N} (ha : mem a = some n) (hn : next n = head) :
    Chain next mem (some a) (a :: l) :=
  ⟨rfl, n, ha, hn ▸ h⟩

theorem Chain.pop {a : A} (h : Chain next mem (some a) l) :
    ∃ n l', l = a :: l' ∧ mem a = some n ∧ Chain next mem (next n) l' := by
  cases l with
  | nil => cases h
  | cons b l =>
    obtain ⟨hh, n, hn, hl⟩ := h
    cases hh
    exact ⟨n, l, rfl, hn, hl⟩

theorem Chain.head_of_pos (h : Chain next mem head l) (hl : 0 < l.length) : ∃ a, head = some a := by
  cases l with
  | nil => cases hl
  | cons a l => exact ⟨a, h.1⟩

theorem Chain.unique {l' : List A} (h : Chain next mem head l) (h' : Chain next mem head l') : l = l' := by
  induction l generalizing head l' with
  | nil =>
    cases l' with
    | nil => rfl
    | cons b l' => cases h.symm.trans h'.1
  | cons a l ih =>
    obtain ⟨hh, n, hn, hl⟩ := h
    subst hh
    obtain ⟨m, l₁, rfl, hm, hl'⟩ := h'.pop
    cases hn.symm.trans hm
    rw [ih hl hl']

/-- The rest of a chain is the chain from there. -/
theorem Chain.suffix {l₁ l₂ : List A} {a : A} (h : Chain next mem head (l₁ ++ a :: l₂)) :
    Chain next mem (some a) (a :: l₂) := by
  induction l₁ generalizing head with
  | nil => exact ⟨rfl, h.2⟩
  | cons b l₁ ih =>
    obtain ⟨-, n, -, hl⟩ := h
    exact ih hl

theorem Chain.nodup (h : Chain next mem head l) : l.Nodup := by
  induction l generalizing head with
  | nil => exact List.nodup_nil
  | cons a l ih =>
    obtain ⟨hh, hrest⟩ := h
    obtain ⟨n, hn, hl⟩ := hrest
    refine List.nodup_cons.2 ⟨fun ha => ?_, ih hl⟩
    -- a second visit of `a` would be followed by the same addresses as the first
    obtain ⟨l₁, l₂, rfl⟩ := List.append_of_mem ha
    have hwhole : Chain next mem (some a) (a :: (l₁ ++ a :: l₂)) := ⟨rfl, n, hn, hl⟩
    have hlen := congrArg List.length (hl.suffix.unique hwhole)
    simp at hlen
    omega

theorem Chain.mem_iff (h : Chain next mem head l) {a : A} : a ∈ l ↔ Reaches next mem head a := by
  constructor
  · intro ha
    induction l generalizing head with
    | nil => cases ha
    | cons b l ih =>
      obtain ⟨rfl, n, hn, hl⟩ := h
      rcases List.mem_cons.1 ha with rfl | ha
      · exact .here a
      · exact .next hn (ih hl ha)
  · intro hr
    induction hr generalizing l with
    | here a =>
      obtain ⟨n, l', rfl, -⟩ := h.pop
      simp
    | next hn _ ih =>
      obtain ⟨m, l', rfl, hm, hl⟩ := h.pop
      cases hn.symm.trans hm
      exact List.mem_cons_of_mem _ (ih hl)

end LinkedList
