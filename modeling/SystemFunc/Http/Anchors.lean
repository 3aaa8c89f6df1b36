import Mathlib.Data.Nat.Digits.Defs
import SystemFunc.Http.Links
import SystemFunc.Http.Parent

/-!
# The links of a page

`hrefs` reads the targets of the links off a page, as a browser does: what is between `<a href="` and the next quote. The
lines that `send_dir` sends for entries with unreserved names have one link each, in the order of the entries
(`sendDir_hrefs`), and fit into `cache`.
-/

namespace SystemFunc.Http

/-- Where a link begins. -/
def anchor : List UInt8 := lit "<a href=\""

/-- The targets of the links. -/
def hrefs : List UInt8 → List (List UInt8)
  | [] => []
  | b :: s => if anchor.isPrefixOf (b :: s) then (s.drop 8).takeWhile (· ≠ 34) :: hrefs s else hrefs s

/-- No link begins in a text, whatever comes behind it. -/
def noAnchor : List UInt8 → Bool
  | [] => true
  | [b] => b ≠ 60
  | b :: c :: s => (b ≠ 60 || c ≠ 97) && noAnchor (c :: s)

variable {s w path name spath : List UInt8} {fs : FileSystem}

theorem hrefs_append (h : noAnchor w = true) : hrefs (w ++ s) = hrefs s := by
  induction w with
  | nil => rfl
  | cons b w ih =>
    have hstep : noAnchor w = true ∧ anchor.isPrefixOf (b :: (w ++ s)) = false := by
      cases w with
      | nil =>
        have hb : b ≠ 60 := by simpa [noAnchor] using h
        refine ⟨rfl, ?_⟩
        simp [anchor, lit, List.isPrefixOf, Ne.symm hb]
      | cons c w =>
        obtain ⟨hbc, hw⟩ : (b ≠ 60 ∨ c ≠ 97) ∧ noAnchor (c :: w) = true := by simpa [noAnchor] using h
        refine ⟨hw, ?_⟩
        rcases hbc with hb | hc
        · simp [anchor, lit, List.isPrefixOf, Ne.symm hb]
        · simp [anchor, lit, List.isPrefixOf, Ne.symm hc]
    rw [List.cons_append, hrefs, hstep.2]
    exact ih hstep.1

theorem noAnchor_of_notMem (h : 60 ∉ w) : noAnchor w = true := by
  induction w with
  | nil => rfl
  | cons b w ih =>
    rw [List.mem_cons, not_or] at h
    cases w with
    | nil => simpa [noAnchor] using Ne.symm h.1
    | cons c w => simp [noAnchor, Ne.symm h.1, ih h.2]

/-- A link. -/
theorem hrefs_anchor {href : List UInt8} (hquote : 34 ∉ href) :
    hrefs (anchor ++ href ++ 34 :: s) = href :: hrefs (href ++ 34 :: s) := by
  have hanchor : anchor ++ href ++ 34 :: s = 60 :: (lit "a href=\"" ++ (href ++ 34 :: s)) := by
    simp [anchor, lit]
  have hfirst : anchor.isPrefixOf (60 :: (lit "a href=\"" ++ (href ++ 34 :: s))) = true := by
    simp [anchor, lit, List.isPrefixOf]
  have hdrop : (lit "a href=\"" ++ (href ++ 34 :: s)).drop 8 = href ++ 34 :: s := rfl
  have htake : (href ++ 34 :: s).takeWhile (· ≠ 34) = href := by
    have hall : ∀ b ∈ href, decide (b ≠ 34) = true := fun b hb => by
      have hne : b ≠ 34 := fun he => hquote (he ▸ hb)
      simp [hne]
    rw [List.takeWhile_append_of_pos hall]
    simp
  rw [hanchor, hrefs, hfirst, if_pos rfl, hdrop, htake, hrefs_append (by decide)]

/-! ## Names that need no escape -/

/-- A digit, a letter, or one of `-._`. -/
def Unreserved (b : UInt8) : Prop :=
  48 ≤ b.toNat ∧ b.toNat ≤ 57 ∨ 65 ≤ b.toNat ∧ b.toNat ≤ 90 ∨ 97 ≤ b.toNat ∧ b.toNat ≤ 122 ∨
    b.toNat = 45 ∨ b.toNat = 46 ∨ b.toNat = 95

instance (b : UInt8) : Decidable (Unreserved b) := inferInstanceAs (Decidable (_ ∨ _))

theorem Unreserved.plain {b : UInt8} (h : Unreserved b) :
    isspace b = false ∧ b ≠ 37 ∧ b ≠ 34 ∧ b ≠ 60 ∧ b ≠ 47 ∧ b ≠ 0 := by
  unfold Unreserved at h
  have hne : ∀ c : UInt8, b.toNat ≠ c.toNat → b ≠ c := fun c hc he => hc (he ▸ rfl)
  have h32 : b ≠ 32 := hne 32 (by simp; omega)
  refine ⟨?_, hne 37 (by simp; omega), hne 34 (by simp; omega), hne 60 (by simp; omega), hne 47 (by simp; omega),
    hne 0 (by simp; omega)⟩
  simp only [isspace, h32, decide_false, Bool.false_or, Bool.and_eq_false_iff, decide_eq_false_iff_not]
  omega

/-- A path of such names. -/
def PlainPath (path : List UInt8) : Prop := ∀ b ∈ path, b = 47 ∨ Unreserved b

/-- An entry with such a name. -/
structure PlainName (name : List UInt8) : Prop where
  some : name ≠ []
  unreserved : ∀ b ∈ name, Unreserved b

instance (name : List UInt8) : Decidable (PlainName name) :=
  decidable_of_iff (name ≠ [] ∧ (name.all fun b => decide (Unreserved b)) = true)
    ⟨fun h => ⟨h.1, by simpa using h.2⟩, fun h => ⟨h.some, by simpa using h.unreserved⟩⟩

theorem PlainPath.notMem (h : PlainPath path) : 34 ∉ path ∧ 60 ∉ path ∧ 37 ∉ path ∧ 0 ∉ path ∧ NoSpace path := by
  refine ⟨fun hb => ?_, fun hb => ?_, fun hb => ?_, fun hb => ?_, fun b hb => ?_⟩
  · exact (h _ hb).elim (by decide) fun hu => hu.plain.2.2.1 rfl
  · exact (h _ hb).elim (by decide) fun hu => hu.plain.2.2.2.1 rfl
  · exact (h _ hb).elim (by decide) fun hu => hu.plain.2.1 rfl
  · exact (h _ hb).elim (by decide) fun hu => hu.plain.2.2.2.2.2 rfl
  · rcases h b hb with rfl | hu
    · decide
    · exact hu.plain.1

theorem PlainName.plainPath (h : PlainName name) : PlainPath name := fun b hb => .inr (h.unreserved b hb)

theorem PlainName.notMem_slash (h : PlainName name) : 47 ∉ name := fun hb =>
  (h.unreserved _ hb).plain.2.2.2.2.1 rfl

theorem PlainPath.entryHref (h : PlainPath path) (hname : PlainName name) : PlainPath (entryHref path name) := by
  intro b hb
  rcases of_mem_href hb with hb | rfl
  · exact (List.mem_append.1 hb).elim (h b) (hname.plainPath b)
  · exact .inl rfl

theorem PlainPath.parentHref (h : PlainPath path) : PlainPath (parentHref path) := by
  unfold Http.parentHref
  split
  · exact fun b hb => h b (List.mem_of_mem_take hb)
  · intro b hb
    cases List.mem_singleton.1 hb
    exact .inl rfl

/-! ## The lines of a directory -/

/-- Where the link in the line for an entry leads. -/
def entryLink (path name : List UInt8) : List UInt8 :=
  if name = lit "." then path else if name = lit ".." then parentHref path else entryHref path name

/-- A link has its target, and nothing else in it is one. -/
theorem hrefs_link {href : List UInt8} (hhref : PlainPath href) (hname : PlainName name) :
    hrefs (link href name ++ s) = href :: hrefs s := by
  have hparts : link href name ++ s =
      lit "<td>" ++ (anchor ++ href ++ 34 :: (lit "><font size=5>" ++ (name ++ (lit "</font></a></td>" ++ s)))) := by
    simp [link, anchor, lit]
  obtain ⟨hquote, hless, -⟩ := hhref.notMem
  have hrest : hrefs (href ++ 34 :: (lit "><font size=5>" ++ (name ++ (lit "</font></a></td>" ++ s)))) = hrefs s := by
    rw [hrefs_append (noAnchor_of_notMem hless), ← List.cons_append,
      hrefs_append (w := 34 :: lit "><font size=5>") (by decide),
      hrefs_append (noAnchor_of_notMem hname.plainPath.notMem.2.1), hrefs_append (by decide)]
  rw [hparts, hrefs_append (by decide), hrefs_anchor hquote, hrest]

theorem length_link (href name : List UInt8) : (link href name).length = href.length + name.length + 44 := by
  have hbefore : (lit "<td><a href=\"").length = 13 := by decide
  have hbetween : (lit "\"><font size=5>").length = 15 := by decide
  have hbehind : (lit "</font></a></td>").length = 16 := by decide
  simp only [link, List.length_append, hbefore, hbetween, hbehind]
  omega

/-- The size of a file, in decimal. -/
theorem lit_size {n : Int} (h0 : 0 ≤ n) (h : n < 2 ^ 63) :
    (lit (toString n)).length ≤ 19 ∧ 60 ∉ lit (toString n) := by
  obtain ⟨k, rfl⟩ := Int.eq_ofNat_of_zero_le h0
  have hk : k < 10 ^ 19 := by omega
  have hchars : (toString (k : Int)).toList = Nat.toDigits 10 k := Nat.toList_repr
  constructor
  · rw [lit, List.length_map, hchars]
    exact Nat.toDigits_length 10 k 19 (by decide) hk
  · intro hmem
    obtain ⟨c, hc, hval⟩ := List.mem_map.1 hmem
    rw [hchars] at hc
    have hdigit := Nat.isDigit_of_mem_toDigits (by decide) (by decide) hc
    obtain ⟨-, hhigh⟩ : 48 ≤ c.toNat ∧ c.toNat ≤ 57 := by simpa [Char.isDigit, UInt32.le_iff_toNat_le] using hdigit
    have hnat := congrArg UInt8.toNat hval
    rw [UInt8.toNat_ofNat_of_lt' (Nat.lt_of_le_of_lt hhigh (by decide))] at hnat
    simp at hnat
    omega

/-- What is needed of an entry: an unreserved name, and, if it is not one of the two dots, a path that fits and an
answer of `stat`. -/
structure EntryFits (fs : FileSystem) (path spath name : List UInt8) : Prop where
  plain : PlainName name
  fits : name ≠ lit "." → name ≠ lit ".." → (entryHref path name).length < 256 ∧
    ∃ st, fs.stat (entryFilePath path spath name) = some st ∧ 0 ≤ st.size ∧ st.size < 2 ^ 63

theorem length_le_href (path name : List UInt8) : name.length ≤ (entryHref path name).length := by
  unfold entryHref
  split <;> simp only [List.length_append, List.length_cons] <;> omega

theorem plainName_dot : PlainName (lit ".") := by decide

theorem plainName_dots : PlainName (lit "..") := by decide

theorem sprintf_ok {n : Nat} (h : w.length < n) : sprintf n w = .ok w := if_pos h

/-- **The line of an entry** fits, and has one link. -/
theorem sendEntry_hrefs (hpath : PlainPath path) (hne : path ≠ []) (hlen : path.length < 256)
    (hspath : spath.length ≤ 256) (h : EntryFits fs path spath name) :
    ∃ row, sendEntry fs path spath name = .ok row ∧ ∀ s, hrefs (row ++ s) = entryLink path name :: hrefs s := by
  have hnewline : (lit "\n").length = 1 := by decide
  by_cases hdot : name = lit "."
  · subst hdot
    refine ⟨link path (lit ".") ++ lit "\n", ?_, fun s => ?_⟩
    · rw [sendEntry, if_pos rfl]
      refine sprintf_ok ?_
      have hone : (lit ".").length = 1 := by decide
      rw [List.length_append, length_link, hnewline, hone]
      omega
    · rw [List.append_assoc, hrefs_link hpath plainName_dot, hrefs_append (by decide), entryLink, if_pos rfl]
  by_cases hdots : name = lit ".."
  · subst hdots
    refine ⟨link (parentHref path) (lit "..") ++ lit "\n", sendEntry_parent hlen fs spath, fun s => ?_⟩
    rw [List.append_assoc, hrefs_link hpath.parentHref plainName_dots, hrefs_append (by decide), entryLink, if_neg hdot,
      if_pos rfl]
  · obtain ⟨hhref, st, hst, hpos, hlt⟩ := h.fits hdot hdots
    have hnamelen := (length_le_href path name).trans_lt hhref
    obtain ⟨hdigits, hless⟩ := lit_size hpos hlt
    have hfile : (entryFilePath path spath name).length < 1024 := by
      unfold entryFilePath
      split <;> simp only [List.length_append, List.length_cons] <;> omega
    refine ⟨link (entryHref path name) name ++ lit "<td><font size=5>" ++ lit (toString st.size) ++
      lit "</font></td>\n", ?_, fun s => ?_⟩
    · rw [sendEntry, if_neg hdot, if_neg hdots, if_neg hne, sprintf_ok hfile, ok_bind, hst]
      refine sprintf_ok ?_
      have hopen : (lit "<td><font size=5>").length = 17 := by decide
      have hclose : (lit "</font></td>\n").length = 13 := by decide
      simp only [List.length_append, length_link, hopen, hclose]
      omega
    · rw [List.append_assoc, List.append_assoc, List.append_assoc, hrefs_link (hpath.entryHref h.plain) h.plain,
        hrefs_append (by decide), hrefs_append (noAnchor_of_notMem hless), hrefs_append (by decide), entryLink,
        if_neg hdot, if_neg hdots]

section Directory

variable (hpath : PlainPath path) (hne : path ≠ []) (hlen : path.length < 256) (hspath : spath.length ≤ 256)
include hpath hne hlen hspath

theorem sendEntries_hrefs {names : List (List UInt8)} (h : ∀ name ∈ names, EntryFits fs path spath name) :
    ∃ body, sendEntries fs path spath names = .ok body ∧
      ∀ s, hrefs (body ++ s) = names.map (entryLink path) ++ hrefs s := by
  induction names with
  | nil => exact ⟨[], rfl, fun s => rfl⟩
  | cons name names ih =>
    rw [List.forall_mem_cons] at h
    obtain ⟨hentry, hrest⟩ := h
    obtain ⟨row, hrow, hlink⟩ := sendEntry_hrefs hpath hne hlen hspath hentry
    obtain ⟨body, hbody, hlinks⟩ := ih hrest
    refine ⟨lit "<tr>\n" ++ row ++ lit "</tr>\n" ++ body, ?_, fun s => ?_⟩
    · rw [sendEntries, hrow, ok_bind, hbody, ok_bind]
      rfl
    · rw [List.append_assoc, List.append_assoc, List.append_assoc, hrefs_append (by decide), hlink,
        hrefs_append (by decide), hlinks]
      rfl

/-- **The page of a directory** has a link for each entry. -/
theorem sendDir_hrefs {names : List (List UInt8)} (hnames : fs.scandir spath = some names)
    (h : ∀ name ∈ names, EntryFits fs path spath name) :
    ∃ page, sendDir fs path spath = .ok page ∧ hrefs page = names.map (entryLink path) := by
  obtain ⟨body, hbody, hlinks⟩ := sendEntries_hrefs hpath hne hlen hspath h
  have hless := noAnchor_of_notMem hpath.notMem.2.1
  have htitle : (lit "<html><body><head><title>" ++ path ++ lit "</title></head>").length < 1024 := by
    have hopen : (lit "<html><body><head><title>").length = 25 := by decide
    have hclose : (lit "</title></head>").length = 15 := by decide
    simp only [List.length_append, hopen, hclose]
    omega
  have hhead : (lit "<h1>now dir : " ++ path ++ lit "</h1><hr><table>").length < 1024 := by
    have hopen : (lit "<h1>now dir : ").length = 14 := by decide
    have hclose : (lit "</h1><hr><table>").length = 16 := by decide
    simp only [List.length_append, hopen, hclose]
    omega
  refine ⟨lit "<html><body><head><title>" ++ path ++ lit "</title></head>" ++
    (lit "<h1>now dir : " ++ path ++ lit "</h1><hr><table>") ++ body ++ lit "</table></body></html>", ?_, ?_⟩
  · rw [sendDir, hnames]
    simp only [sprintf_ok htitle, sprintf_ok hhead, hbody, ok_bind]
    rfl
  · simp only [List.append_assoc]
    rw [hrefs_append (by decide), hrefs_append hless, hrefs_append (by decide), hrefs_append (by decide),
      hrefs_append hless, hrefs_append (by decide), hlinks]
    have hend : hrefs (lit "</table></body></html>") = [] := by decide
    rw [hend, List.append_nil]

end Directory

end SystemFunc.Http
