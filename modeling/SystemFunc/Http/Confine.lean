import SystemFunc.Http.Segments
import SystemFunc.Lib.LexicalPath

/-!
# Requests and the served directory

`main_handler` prefixes a path that begins with `/` by a `.`, and looks at nothing else in it. So the path that it
passes to the file system stays in the served directory exactly when the parent components of the decoded path, read
from the left, never outnumber the names (`confined_iff`).
-/

namespace SystemFunc.Http

open LexicalPath

/-- A component, as the file system reads it; an empty one is the directory itself. -/
def component (c : List UInt8) : Component (List UInt8) :=
  if c = [] ∨ c = lit "." then .here else if c = lit ".." then .parent else .name c

def components (path : List UInt8) : List (Component (List UInt8)) := (path.splitOn 47).map component

/-- The path does not lead out of the directory that it begins in. -/
def Confined (path : List UInt8) : Prop := (resolve [] (components path)).isSome = true

instance (path : List UInt8) : Decidable (Confined path) := by unfold Confined; infer_instance

theorem components_slash (path : List UInt8) : components (47 :: path) = .here :: components path := by
  simp [components, List.splitOn_cons_eq_if_modifyHead, component]

/-- The prefix is the directory itself, like the empty component that it takes the place of. -/
theorem components_spath (path : List UInt8) : Confined (spath path) ↔ Confined path := by
  unfold spath
  split
  · rename_i hhead
    obtain ⟨path, rfl⟩ := List.head?_eq_some_iff.1 hhead
    have hdot : components (46 :: 47 :: path) = .here :: components path := by
      simp [components, List.splitOn_cons_eq_if_modifyHead, component, lit]
    simp [Confined, hdot, components_slash, resolve]
  · exact Iff.rfl

/-- **Requests stay inside** the served directory exactly when, in the decoded path, there are never more parents than
names. -/
theorem confined_iff {tmp : List UInt8} {req : HttpRequestT} (h : parseRequest .zero tmp = .ok req)
    (hstatus : req.status = 1) :
    Confined (spath (strOf req.path)) ↔ Shallow 0 (components (strOf (Url.decode (pathWord (strOf tmp))))) := by
  rw [components_spath, parse_path h hstatus, Confined, resolve_isSome_iff]
  exact Iff.rfl

/-- What comes of a request: its status, and the path for the file system. -/
def parsed (buf : List UInt8) : Except Stop (Nat × List UInt8) := do
  let req ← parseRequest .zero (fill zeros buf)
  return (req.status, spath (strOf req.path))

theorem parsed_eq_ok {buf path : List UInt8} {status : Nat} (h : parsed buf = .ok (status, path)) :
    ∃ req, parseRequest .zero (fill zeros buf) = .ok req ∧ req.status = status ∧ spath (strOf req.path) = path := by
  obtain ⟨req, hreq, h⟩ := bind_eq_ok.1 h
  cases h
  exact ⟨req, hreq, rfl, rfl⟩

/-- Down and up again. -/
theorem confined_iff_inside : ∃ req, parseRequest .zero (fill zeros (lit "GET /a/%2e./b HTTP/1.1\r\n")) = .ok req ∧
    spath (strOf req.path) = lit "./a/../b" ∧ (Confined (spath (strOf req.path)) ↔
      Shallow 0 (components (strOf (Url.decode (pathWord (strOf
        (fill zeros (lit "GET /a/%2e./b HTTP/1.1\r\n")))))))) := by
  have hparsed : parsed (lit "GET /a/%2e./b HTTP/1.1\r\n") = .ok (1, lit "./a/../b") := by decide +kernel
  obtain ⟨req, hreq, hstatus, hpath⟩ := parsed_eq_ok hparsed
  exact ⟨req, hreq, hpath, confined_iff hreq hstatus⟩

/-- A parent component, plain and escaped, with and without a slash in front. -/
theorem leaves_root :
    parsed (lit "GET /../x HTTP/1.1\r\n") = .ok (1, lit "./../x") ∧ ¬Confined (lit "./../x") ∧
      parsed (lit "GET /%2e%2E/x HTTP/1.1\r\n") = .ok (1, lit "./../x") ∧
      parsed (lit "GET ../x HTTP/1.1\r\n") = .ok (1, lit "../x") ∧ ¬Confined (lit "../x") := by
  refine ⟨?_, ?_, ?_, ?_, ?_⟩ <;> decide +kernel

end SystemFunc.Http
