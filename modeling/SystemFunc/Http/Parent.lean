import Mathlib.Data.List.Basic
import SystemFunc.Http.Serve

/-!
# The link to the parent directory

`send_dir` cuts the path at its last slash, unless that is the first character. Where the path ends with a slash, only
that slash is cut, and the link leads to the directory itself (`parent_linked_iff`).
-/

namespace SystemFunc.Http

/-- The names in a path. -/
def names (path : List UInt8) : List (List UInt8) := (path.splitOn 47).filter (· ≠ [])

/-- A path that begins with `/`, fits its field, and has no empty component but for a slash at its end, and no `.` or
`..` either. -/
structure DirPath (path : List UInt8) : Prop where
  rooted : ∃ q, path = 47 :: q ∧ (∀ c ∈ (q.splitOn 47).dropLast, c ≠ []) ∧
    ∀ c ∈ q.splitOn 47, c ≠ lit "." ∧ c ≠ lit ".."
  short : path.length < 256
  nulFree : 0 ∉ path

/-- The line for `..` has a link to the path without its last name, and to `/` where there is at most one. -/
def ParentLinked (path : List UInt8) : Prop :=
  ∃ href, (∀ fs spath, sendEntry fs path spath (lit "..") = .ok (link href (lit "..") ++ lit "\n")) ∧
    names href = (names path).dropLast ∧ ((names path).length ≤ 1 → href = lit "/")

variable {path front last : List UInt8}

/-! ## The last slash -/

theorem names_append (front last : List UInt8) : names (front ++ 47 :: last) = names front ++ names last := by
  rw [names, List.splitOn_append_cons_self, List.filter_append]
  rfl

theorem names_nil : names [] = [] := by simp [names]

theorem names_of_notMem (h : 47 ∉ last) (hne : last ≠ []) : names last = [last] := by
  simp [names, List.splitOn_eq_singleton h, hne]

theorem strrchr_append (h : 47 ∉ last) : strrchr (front ++ 47 :: last) 47 = some front.length := by
  have hmem : (47 : UInt8) ∈ front ++ 47 :: last := by simp
  have hidx : (front ++ 47 :: last).reverse.idxOf 47 = last.length := by
    have hrev : 47 ∉ last.reverse := fun hl => h (List.mem_reverse.1 hl)
    rw [List.reverse_append, List.reverse_cons, List.append_assoc, List.idxOf_append_of_notMem hrev]
    simp
  rw [strrchr, if_pos hmem, hidx, List.length_append, List.length_cons]
  congr 1
  omega

theorem parentHref_append (h : 47 ∉ last) :
    parentHref (front ++ 47 :: last) = if front = [] then lit "/" else front := by
  rw [parentHref, strrchr_append h]
  cases front with
  | nil => rfl
  | cons b front =>
    rw [if_neg (List.cons_ne_nil b front)]
    have htake : (b :: front ++ 47 :: last).take (b :: front).length = b :: front := List.take_left
    exact htake

/-- A path is cut at its last slash. -/
theorem exists_last (h : 47 ∈ path) : ∃ front last, path = front ++ 47 :: last ∧ (47 : UInt8) ∉ last := by
  obtain ⟨l, r, hrev, hl⟩ := List.eq_append_cons_of_mem (List.mem_reverse.2 h)
  refine ⟨r.reverse, l.reverse, ?_, fun hmem => hl (List.mem_reverse.1 hmem)⟩
  rw [← List.reverse_reverse path, hrev]
  simp

theorem getLast?_eq_slash_iff (h : 47 ∉ last) : (front ++ 47 :: last).getLast? = some 47 ↔ last = [] := by
  constructor
  · intro hend
    by_contra hne
    rw [List.getLast?_append_cons, List.getLast?_cons_of_ne_nil hne] at hend
    exact h (List.mem_of_getLast? hend)
  · rintro rfl
    exact List.getLast?_concat

/-- In front of the last slash there is a name, unless it is the first character. -/
theorem DirPath.names_front (h : DirPath (front ++ 47 :: last)) (hlast : 47 ∉ last) (hne : front ≠ []) :
    names front ≠ [] := by
  obtain ⟨q, hq, hsome, -⟩ := h.rooted
  obtain ⟨b, front, rfl⟩ := List.exists_cons_of_ne_nil hne
  obtain ⟨rfl, rfl⟩ := List.cons.inj hq
  change ∀ c ∈ ((front ++ 47 :: last).splitOn 47).dropLast, c ≠ [] at hsome
  rw [List.splitOn_append_cons_self, List.splitOn_eq_singleton hlast, List.dropLast_concat] at hsome
  obtain ⟨c, cs, hcs⟩ := List.exists_cons_of_ne_nil (List.splitOn_ne_nil 47 front)
  have hc : c ∈ front.splitOn 47 := hcs ▸ List.mem_cons_self
  have hmem : c ∈ names (47 :: front) := by
    have hsplit := names_append [] front
    rw [List.nil_append, names_nil, List.nil_append] at hsplit
    rw [hsplit, names, List.mem_filter]
    exact ⟨hc, by simpa using hsome c hc⟩
  exact List.ne_nil_of_mem hmem

/-! ## The link -/

theorem link_inj {href href' name : List UInt8} (h : link href name = link href' name) : href = href' := by
  simpa [link] using h

theorem parentHref_length_lt (h : path.length < 256) : (parentHref path).length < 256 := by
  unfold parentHref
  split
  · rename_i i _
    have hsub := (List.take_sublist (i + 1) path).length_le
    omega
  · decide

/-- The line that is sent for `..`. -/
theorem sendEntry_parent (h : path.length < 256) (fs : FileSystem) (spath : List UInt8) :
    sendEntry fs path spath (lit "..") = .ok (link (parentHref path) (lit "..") ++ lit "\n") := by
  have hlen := parentHref_length_lt h
  have hdots : lit ".." ≠ lit "." := by decide
  have hfits : (link (parentHref path) (lit "..") ++ lit "\n").length < 1024 := by
    have hbefore : (lit "<td><a href=\"").length = 13 := by decide
    have hbetween : (lit "\"><font size=5>").length = 15 := by decide
    have hdots : (lit "..").length = 2 := by decide
    have hbehind : (lit "</font></a></td>").length = 16 := by decide
    have hnewline : (lit "\n").length = 1 := by decide
    simp only [link, List.length_append, hbefore, hbetween, hdots, hbehind, hnewline]
    omega
  rw [sendEntry, if_neg hdots, if_pos rfl, sprintf, if_pos hfits]

/-- What the line links to is `parentHref`. -/
theorem parentLinked_iff_href (h : path.length < 256) : ParentLinked path ↔
    names (parentHref path) = (names path).dropLast ∧ ((names path).length ≤ 1 → parentHref path = lit "/") := by
  constructor
  · rintro ⟨href, hline, hnames⟩
    have hfs := hline ⟨fun _ => false, fun _ => none, fun _ => none, fun _ => none⟩ []
    rw [sendEntry_parent h] at hfs
    have hhref := link_inj (List.append_cancel_right (Except.ok.inj hfs))
    rwa [hhref]
  · exact fun hnames => ⟨parentHref path, fun fs spath => sendEntry_parent h fs spath, hnames⟩

/-- **The link leads to the parent directory**, exactly where the path does not end with a slash behind a name. -/
theorem parent_linked_iff (h : DirPath path) :
    ParentLinked path ↔ path = lit "/" ∨ path.getLast? ≠ some 47 := by
  obtain ⟨q, hq, -, -⟩ := h.rooted
  obtain ⟨front, last, rfl, hlast⟩ := exists_last (hq ▸ List.mem_cons_self : (47 : UInt8) ∈ path)
  rw [parentLinked_iff_href h.short, parentHref_append hlast]
  rw [names_append, ne_eq, getLast?_eq_slash_iff hlast]
  by_cases hfront : front = []
  · have hroot : names (lit "/") = [] := by decide
    subst hfront
    rw [if_pos rfl, hroot, names_nil, List.nil_append, List.nil_append]
    by_cases hnil : last = []
    · subst hnil
      exact iff_of_true ⟨by rw [names_nil]; rfl, fun _ => rfl⟩ (.inl rfl)
    · rw [names_of_notMem hlast hnil]
      exact iff_of_true ⟨rfl, fun _ => rfl⟩ (.inr hnil)
  · have hnames := List.length_pos_iff.2 (h.names_front hlast hfront)
    rw [if_neg hfront]
    by_cases hnil : last = []
    · -- `front` keeps all names
      subst hnil
      rw [names_nil, List.append_nil]
      refine iff_of_false (fun hlink => ?_) ?_
      · have hlength := congrArg List.length hlink.1
        rw [List.length_dropLast] at hlength
        omega
      · rintro (hroot | hend)
        · exact hfront (List.append_cancel_right hroot)
        · exact hend rfl
    · rw [names_of_notMem hlast hnil, List.dropLast_concat]
      refine iff_of_true ⟨rfl, fun hle => ?_⟩ (.inr hnil)
      rw [List.length_append, List.length_singleton] at hle
      omega

/-- The parent of `/a/b` is `/a`. -/
theorem parent_linked_iff_ab : DirPath (lit "/a/b") ∧ ParentLinked (lit "/a/b") := by
  have hpath : DirPath (lit "/a/b") := ⟨⟨lit "a/b", by decide, by decide, by decide⟩, by decide, by decide⟩
  exact ⟨hpath, (parent_linked_iff hpath).2 (.inr (by decide))⟩

/-- From `/a/` the link leads to `/a`. -/
theorem parent_linked_itself : DirPath (lit "/a/") ∧ ¬ParentLinked (lit "/a/") := by
  refine ⟨⟨⟨lit "a/", by decide, by decide, by decide⟩, by decide, by decide⟩, fun hlink => ?_⟩
  have hnames := ((parentLinked_iff_href (by decide)).1 hlink).1
  exact absurd hnames (by decide)

end SystemFunc.Http
