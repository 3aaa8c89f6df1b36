import Mathlib.Data.List.Basic

/-!
# Trees of directories

A node is a file with its content, or a directory with named entries. `lookup` follows a list of names, and takes the
first entry of a name.
-/

namespace DirTree

inductive Node (ν β : Type*) where
  | file (content : β)
  | dir (entries : List (ν × Node ν β))

namespace Node

variable {ν β : Type*}

def entries : Node ν β → List (ν × Node ν β)
  | file _ => []
  | dir es => es

variable [DecidableEq ν]

/-- The node at the end of a list of names. -/
def lookup : Node ν β → List ν → Option (Node ν β)
  | n, [] => some n
  | n, c :: cs => (n.entries.lookup c).bind fun m => lookup m cs

variable {n m p : Node ν β} {cs ds : List ν} {c : ν}

@[simp] theorem lookup_nil (n : Node ν β) : n.lookup [] = some n := by simp [lookup]

theorem lookup_append (n : Node ν β) (cs ds : List ν) : n.lookup (cs ++ ds) = (n.lookup cs).bind (·.lookup ds) := by
  induction cs generalizing n with
  | nil => simp
  | cons c cs ih =>
    rw [List.cons_append, lookup, lookup]
    cases n.entries.lookup c with
    | none => rfl
    | some m => exact ih m

/-- What is above a node is in the tree. -/
theorem lookup_front (h : n.lookup (cs ++ ds) = some m) : ∃ q, n.lookup cs = some q ∧ q.lookup ds = some m := by
  rw [lookup_append] at h
  exact Option.bind_eq_some_iff.1 h

/-- Every entry has a node. -/
theorem lookup_entry (h : n.lookup cs = some m) (hc : c ∈ m.entries.map Prod.fst) :
    ∃ q, n.lookup (cs ++ [c]) = some q := by
  obtain ⟨⟨c, q⟩, hmem, rfl⟩ := List.mem_map.1 hc
  rw [lookup_append, h, Option.bind_some, lookup]
  cases hlookup : m.entries.lookup c with
  | none => exact absurd (List.lookup_eq_none_iff.1 hlookup (c, q) hmem) (by simp)
  | some p => exact ⟨p, by simp⟩

/-- A node below another one is behind one of its entries. -/
theorem mem_entries (h : n.lookup cs = some m) (hc : n.lookup (cs ++ [c]) = some p) : c ∈ m.entries.map Prod.fst := by
  rw [lookup_append, h, Option.bind_some, lookup] at hc
  obtain ⟨q, hq, -⟩ := Option.bind_eq_some_iff.1 hc
  obtain ⟨l, r, hsplit, -⟩ := List.lookup_eq_some_iff.1 hq
  rw [hsplit]
  simp

end Node

end DirTree
