import Mathlib.Data.List.Induction
import SystemFunc.Http.Anchors
import SystemFunc.Lib.DirTree

/-!
# A site with unreserved names

A directory tree is served in which every name is a row of letters, digits, `-`, `.` and `_`, and every path fits the
field of a request. A client begins with `/` and follows the links of directories.

- `serves_file`, `serves_dir`: the response to a request for a path;
- `site_complete`: the client finds exactly the paths of the tree. Every request is answered, a file with its content.
-/

namespace SystemFunc.Http

open DirTree (Node)

variable {fs : FileSystem} {root n : Node (List UInt8) (List UInt8)} {ns : List (List UInt8)} {call : Call}
  {target content name : List UInt8}

/-! ## Requests -/

/-- In `tmp` there is a request for `target`, with a `NUL` behind it. -/
def Asks (call : Call) (target : List UInt8) : Prop :=
  ∃ method pro e more, Fits method 64 ∧ Fits pro 64 ∧ isspace e = true ∧ 0 ∈ more ∧
    fill call.stale call.buf = requestFor method target pro e more

/-- A request as a browser sends it, over an empty `tmp`. -/
def ask (target : List UInt8) : Call where
  buf := lit "GET " ++ target ++ lit " HTTP/1.1\r\n"
  stale := zeros

theorem ask_length (target : List UInt8) : (ask target).buf.length = target.length + 15 := by
  have hget : (lit "GET ").length = 4 := by decide
  have hpro : (lit " HTTP/1.1\r\n").length = 11 := by decide
  simp only [ask, List.length_append, hget, hpro]
  omega

theorem ask_asks (h : target.length < 256) : Asks (ask target) target := by
  have hsize : TMP_SIZE = 10240 := rfl
  have hlen := ask_length target
  have hmethod : Fits (lit "GET") 64 := ⟨by decide, by decide, by decide, by decide⟩
  have hpro : Fits (lit "HTTP/1.1") 64 := ⟨by decide, by decide, by decide, by decide⟩
  refine ⟨lit "GET", lit "HTTP/1.1", 13, [10] ++ zeros.cells.drop (ask target).buf.length, hmethod, hpro, by decide, ?_, ?_⟩
  · refine List.mem_append_right _ ?_
    rw [zeros, List.drop_replicate]
    exact List.mem_replicate.2 ⟨by omega, rfl⟩
  · rw [fill, List.take_of_length_le (by omega)]
    simp [ask, requestFor, lit]

/-- The path that is asked for is served. -/
theorem readCb_asks (h : Asks call target) (hfits : Fits target 256) (hpercent : 37 ∉ target) :
    ∃ req, readCb fs call = mainHandler fs req ∧ req.status = 1 ∧ strOf req.path = target := by
  obtain ⟨method, pro, e, more, hmethod, hpro, he, hmore, hfill⟩ := h
  obtain ⟨req, hreq, hstatus, hpath⟩ := parse_requestFor hmethod hfits hpro he hmore hpercent
  refine ⟨req, ?_, hstatus, hpath⟩
  rw [readCb, hfill, hreq, ok_bind]

/-! ## Responses -/

/-- What the calls to the file system answer for a path, when there is a node at it. -/
inductive Shows (fs : FileSystem) (spath : List UInt8) : Node (List UInt8) (List UInt8) → Prop
  | file {content : List UInt8} {st : Stat} {reads : Reads} (haccess : fs.access spath = true)
      (hstat : fs.stat spath = some st) (hmode : st.mode &&& S_IFDIR = 0) (hpos : 0 ≤ st.size) (hlt : st.size < 2 ^ 63)
      (hopen : fs.openReads spath = some reads) (hread : reads.failed = false) (hcontent : reads.pieces.flatten = content) :
      Shows fs spath (.file content)
  | dir {entries : List (List UInt8 × Node (List UInt8) (List UInt8))} {st : Stat} {names : List (List UInt8)}
      (haccess : fs.access spath = true) (hstat : fs.stat spath = some st) (hmode : st.mode &&& S_IFDIR ≠ 0)
      (hpos : 0 ≤ st.size) (hlt : st.size < 2 ^ 63) (hscandir : fs.scandir spath = some names)
      (hnames : names.Perm (lit "." :: lit ".." :: entries.map Prod.fst)) : Shows fs spath (.dir entries)

theorem Shows.stat {spath : List UInt8} (h : Shows fs spath n) :
    ∃ st, fs.stat spath = some st ∧ 0 ≤ st.size ∧ st.size < 2 ^ 63 := by
  cases h with
  | file _ hstat _ hpos hlt => exact ⟨_, hstat, hpos, hlt⟩
  | dir _ hstat _ hpos hlt => exact ⟨_, hstat, hpos, hlt⟩

/-- The header of a response to a request that succeeds. -/
def okHeader (contentType : List UInt8) : List UInt8 :=
  lit "HTTP/1.1 200 OK\nContent-Type: " ++ contentType ++ lit "\n\n"

theorem getFileType_length (file : List UInt8) : (getFileType file).length ≤ 25 := by
  unfold getFileType
  split
  · decide
  · simp only []
    split_ifs <;> decide

theorem addHttpHeader_ok {contentType : List UInt8} (h : contentType.length ≤ 25) :
    addHttpHeader 200 (lit "OK") contentType = .ok (okHeader contentType) := by
  have hcode : lit "HTTP/1.1 " ++ lit (toString 200) ++ lit " " ++ lit "OK" ++ lit "\nContent-Type: " =
      lit "HTTP/1.1 200 OK\nContent-Type: " := by decide
  rw [addHttpHeader, hcode]
  refine sprintf_ok ?_
  have hopen : (lit "HTTP/1.1 200 OK\nContent-Type: ").length = 30 := by decide
  have hclose : (lit "\n\n").length = 2 := by decide
  simp only [List.length_append, hopen, hclose]
  omega

/-- **A file is sent whole**, behind a header with the type for its suffix. -/
theorem mainHandler_file {req : HttpRequestT} (hstatus : req.status = 1)
    (hshows : Shows fs (spath (strOf req.path)) (.file content)) :
    mainHandler fs req = .ok (okHeader (getFileType (spath (strOf req.path))) ++ content) := by
  cases hshows with
  | file haccess hstat hmode _ _ hopen hread hcontent =>
    rw [mainHandler, if_neg (by rw [hstatus]; decide)]
    simp only [haccess, Bool.true_eq_false, if_false, hstat, hmode, sendRegularFile, hopen, hread, Bool.false_eq_true,
      ok_bind, addHttpHeader_ok (getFileType_length _), hcontent, ne_eq, not_true_eq_false]
    rfl

theorem serves_file (h : Asks call target) (hfits : Fits target 256) (hpercent : 37 ∉ target)
    (hshows : Shows fs (spath target) (.file content)) :
    readCb fs call = .ok (okHeader (getFileType (spath target)) ++ content) := by
  obtain ⟨req, hreq, hstatus, hpath⟩ := @readCb_asks fs call target h hfits hpercent
  rw [← hpath] at hshows ⊢
  exact hreq.trans (mainHandler_file hstatus hshows)

/-- **A directory is sent as a page** with a link for each entry. -/
theorem serves_dir {names : List (List UInt8)} {st : Stat} (h : Asks call target) (hfits : Fits target 256)
    (hplain : PlainPath target) (haccess : fs.access (spath target) = true) (hstat : fs.stat (spath target) = some st)
    (hmode : st.mode &&& S_IFDIR ≠ 0) (hscandir : fs.scandir (spath target) = some names)
    (hnames : ∀ name ∈ names, EntryFits fs target (spath target) name) :
    ∃ page, readCb fs call = .ok (okHeader (lit "text/html; charset=utf-8") ++ page) ∧
      hrefs (okHeader (lit "text/html; charset=utf-8") ++ page) = names.map (entryLink target) := by
  obtain ⟨req, hreq, hstatus, hpath⟩ := @readCb_asks fs call target h hfits hplain.notMem.2.2.1
  have hspath : (spath target).length ≤ 256 := by
    have hlen := hfits.short
    unfold spath
    split
    · exact hlen
    · exact hlen.le
  obtain ⟨page, hpage, hhrefs⟩ := sendDir_hrefs hplain hfits.some hfits.short hspath hscandir hnames
  have htype : getFileType (lit ".html") = lit "text/html; charset=utf-8" := by decide
  refine ⟨page, ?_, ?_⟩
  · rw [hreq, mainHandler, if_neg (by rw [hstatus]; decide), hpath]
    simp only [haccess, Bool.true_eq_false, if_false, hstat, ne_eq, hmode, not_false_eq_true, if_true, hpage, ok_bind,
      htype, addHttpHeader_ok (by decide : (lit "text/html; charset=utf-8").length ≤ 25)]
    rfl
  · rw [hrefs_append (by decide), hhrefs]

/-! ## The paths of a tree -/

/-- The path with these names. -/
def hrefOf (ns : List (List UInt8)) : List UInt8 := ns.foldl entryHref (lit "/")

theorem hrefOf_snoc (ns : List (List UInt8)) (name : List UInt8) :
    hrefOf (ns ++ [name]) = entryHref (hrefOf ns) name := by
  rw [hrefOf, List.foldl_append]
  rfl

/-- A path begins with a slash, and only `/` ends with one. -/
theorem hrefOf_ends (h : ∀ name ∈ ns, PlainName name) :
    PlainPath (hrefOf ns) ∧ (hrefOf ns).head? = some 47 ∧ ((hrefOf ns).getLast? = some 47 ↔ ns = []) := by
  induction ns using List.reverseRecOn with
  | nil => exact ⟨fun b hb => .inl (List.mem_singleton.1 hb), rfl, iff_of_true rfl rfl⟩
  | append_singleton ns name ih =>
    rw [List.forall_mem_append, List.forall_mem_singleton] at h
    obtain ⟨hplain, hhead, -⟩ := ih h.1
    obtain ⟨path, hpath⟩ := List.head?_eq_some_iff.1 hhead
    rw [hrefOf_snoc]
    refine ⟨hplain.entryHref h.2, ?_, iff_of_false (fun hlast => ?_) (by simp)⟩
    · unfold entryHref
      split <;> rw [hpath] <;> rfl
    · have hmem : (47 : UInt8) ∈ name := by
        obtain ⟨c, name, rfl⟩ := List.exists_cons_of_ne_nil h.2.some
        refine List.mem_of_getLast? ?_
        unfold entryHref at hlast
        split at hlast
        · rwa [List.getLast?_append_of_ne_nil _ (List.cons_ne_nil c name)] at hlast
        · rwa [List.getLast?_append_of_ne_nil _ (List.cons_ne_nil _ _), List.getLast?_cons_cons] at hlast
      exact h.2.notMem_slash hmem

/-- The path of the directory above. -/
theorem parentHref_snoc (hns : ∀ name ∈ ns, PlainName name) (hname : PlainName name) :
    parentHref (hrefOf (ns ++ [name])) = hrefOf ns := by
  obtain ⟨-, hhead, hlast⟩ := hrefOf_ends hns
  rw [hrefOf_snoc, entryHref]
  split
  next hend =>
    rw [hlast.1 hend]
    exact (@parentHref_append [] name hname.notMem_slash).trans (if_pos rfl)
  next =>
    have hne : hrefOf ns ≠ [] := fun he => by rw [he] at hhead; cases hhead
    rw [parentHref_append hname.notMem_slash, if_neg hne]

/-- What is asked of the tree: unreserved names, and paths that fit. -/
def PlainTree (root : Node (List UInt8) (List UInt8)) : Prop :=
  ∀ ns n, root.lookup ns = some n →
    (∀ name ∈ ns, PlainName name ∧ name ≠ lit "." ∧ name ≠ lit "..") ∧ (hrefOf ns).length < 256

/-- The file system has the tree in the served directory. -/
def HasTree (fs : FileSystem) (root : Node (List UInt8) (List UInt8)) : Prop :=
  ∀ ns n, root.lookup ns = some n → Shows fs (46 :: hrefOf ns) n

section Site

variable (htree : HasTree fs root) (hplain : PlainTree root)
include htree hplain

omit htree in
theorem PlainTree.href (h : root.lookup ns = some n) :
    PlainPath (hrefOf ns) ∧ Fits (hrefOf ns) 256 ∧ spath (hrefOf ns) = 46 :: hrefOf ns := by
  obtain ⟨hnames, hlen⟩ := hplain ns n h
  obtain ⟨hpath, hhead, -⟩ := hrefOf_ends fun name hname => (hnames name hname).1
  obtain ⟨-, -, -, hnul, hspace⟩ := hpath.notMem
  refine ⟨hpath, ⟨hspace, fun he => ?_, hnul, hlen⟩, if_pos hhead⟩
  rw [he] at hhead
  cases hhead

/-- The names in a directory have lines that fit. -/
theorem entries_fit {entries : List (List UInt8 × Node (List UInt8) (List UInt8))}
    (h : root.lookup ns = some (.dir entries)) (hname : name ∈ lit "." :: lit ".." :: entries.map Prod.fst) :
    EntryFits fs (hrefOf ns) (spath (hrefOf ns)) name := by
  obtain ⟨hpath, hfits, hspath⟩ := hplain.href h
  simp only [List.mem_cons] at hname
  obtain rfl | rfl | hmem := hname
  · exact ⟨plainName_dot, fun hne => absurd rfl hne⟩
  · exact ⟨plainName_dots, fun _ hne => absurd rfl hne⟩
  · obtain ⟨m, hm⟩ := Node.lookup_entry h hmem
    obtain ⟨hnames, hshort⟩ := hplain _ _ hm
    refine ⟨(hnames name (by simp)).1, fun _ _ => ⟨hrefOf_snoc ns name ▸ hshort, ?_⟩⟩
    have hstat := (htree _ _ hm).stat
    rwa [← (hplain.href hm).2.2, hrefOf_snoc, ← spath_href hfits.some] at hstat

/-- The links on the page of a directory lead to it, to the directory above, and to its entries. -/
theorem page_links {entries : List (List UInt8 × Node (List UInt8) (List UInt8))}
    (h : root.lookup ns = some (.dir entries)) (hcall : Asks call (hrefOf ns)) :
    ∃ (page : List UInt8) (names : List (List UInt8)),
      readCb fs call = .ok (okHeader (lit "text/html; charset=utf-8") ++ page) ∧
      names.Perm (lit "." :: lit ".." :: entries.map Prod.fst) ∧
      hrefs (okHeader (lit "text/html; charset=utf-8") ++ page) = names.map (entryLink (hrefOf ns)) := by
  obtain ⟨hpath, hfits, hspath⟩ := hplain.href h
  have hshows := htree ns _ h
  rw [← hspath] at hshows
  cases hshows with
  | @dir _ st names haccess hstat hmode _ _ hscandir hnames =>
    obtain ⟨page, hpage, hhrefs⟩ := serves_dir hcall hfits hpath haccess hstat hmode hscandir
      fun name hname => entries_fit htree hplain h (hnames.mem_iff.1 hname)
    exact ⟨page, names, hpage, hnames, hhrefs⟩

omit htree in
/-- What a link on the page of a directory leads to is in the tree. -/
theorem link_in_tree {entries : List (List UInt8 × Node (List UInt8) (List UInt8))}
    (h : root.lookup ns = some (.dir entries)) (hname : name ∈ lit "." :: lit ".." :: entries.map Prod.fst) :
    ∃ ms m, root.lookup ms = some m ∧ entryLink (hrefOf ns) name = hrefOf ms := by
  simp only [List.mem_cons] at hname
  obtain rfl | rfl | hmem := hname
  · exact ⟨ns, _, h, if_pos rfl⟩
  · obtain ⟨hnames, -⟩ := hplain _ _ h
    rw [entryLink, if_neg (by decide), if_pos rfl]
    induction ns using List.reverseRecOn with
    | nil => exact ⟨[], root, Node.lookup_nil root, by decide⟩
    | append_singleton ns last _ =>
      obtain ⟨m, hm, -⟩ := Node.lookup_front h
      rw [List.forall_mem_append, List.forall_mem_singleton] at hnames
      exact ⟨ns, m, hm, parentHref_snoc (fun name hname => (hnames.1 name hname).1) hnames.2.1⟩
  · obtain ⟨m, hm⟩ := Node.lookup_entry h hmem
    obtain ⟨-, hdot, hdots⟩ := (hplain _ _ hm).1 name (by simp)
    exact ⟨ns ++ [name], m, hm, by rw [entryLink, if_neg hdot, if_neg hdots, hrefOf_snoc]⟩

end Site

/-! ## The client -/

/-- `stat` says that a path is a directory. -/
def IsDirectory (fs : FileSystem) (spath : List UInt8) : Prop :=
  ∃ st, fs.stat spath = some st ∧ st.mode &&& S_IFDIR ≠ 0

/-- What the client asks for: it begins with `/`, and follows the links on the pages of directories. -/
inductive Found (fs : FileSystem) : List UInt8 → Prop
  | root : Found fs (lit "/")
  | link {href href' : List UInt8} {call : Call} {response : List UInt8} (h : Found fs href)
      (hdir : IsDirectory fs (spath href)) (hcall : Asks call href) (hresponse : readCb fs call = .ok response)
      (hlink : href' ∈ hrefs response) : Found fs href'

/-- The client finds every path. -/
theorem found_of_lookup (htree : HasTree fs root) (hplain : PlainTree root) (h : root.lookup ns = some n) :
    Found fs (hrefOf ns) := by
  induction ns using List.reverseRecOn generalizing n with
  | nil => exact .root
  | append_singleton ns name ih =>
    obtain ⟨m, hm, -⟩ := Node.lookup_front h
    have hmem := Node.mem_entries hm h
    cases m with
    | file content => cases hmem
    | dir entries =>
      obtain ⟨hpath, hfits, hspath⟩ := hplain.href hm
      have hcall := ask_asks hfits.short
      obtain ⟨page, names, hpage, hnames, hhrefs⟩ := page_links htree hplain hm hcall
      have hdir : IsDirectory fs (spath (hrefOf ns)) := by
        have hshows := htree ns _ hm
        rw [← hspath] at hshows
        cases hshows with
        | dir _ hstat hmode => exact ⟨_, hstat, hmode⟩
      obtain ⟨-, hdot, hdots⟩ := (hplain _ _ h).1 name (by simp)
      refine .link (ih hm) hdir hcall hpage ?_
      rw [hhrefs, List.mem_map]
      refine ⟨name, hnames.mem_iff.2 (List.mem_cons_of_mem _ (List.mem_cons_of_mem _ hmem)), ?_⟩
      rw [entryLink, if_neg hdot, if_neg hdots, hrefOf_snoc]

/-- The client finds nothing else. -/
theorem lookup_of_found (htree : HasTree fs root) (hplain : PlainTree root) {href : List UInt8} (h : Found fs href) :
    ∃ ns n, root.lookup ns = some n ∧ href = hrefOf ns := by
  induction h with
  | root => exact ⟨[], root, Node.lookup_nil root, rfl⟩
  | @link href href' call response _ hdir hcall hresponse hlink ih =>
    obtain ⟨ns, n, hn, rfl⟩ := ih
    cases n with
    | file content =>
      have hshows := htree ns _ hn
      rw [← (hplain.href hn).2.2] at hshows
      obtain ⟨st, hst, hmode⟩ := hdir
      cases hshows with
      | file _ hstat hfile =>
        rw [hst] at hstat
        cases hstat
        exact absurd hfile hmode
    | dir entries =>
      obtain ⟨page, names, hpage, hnames, hhrefs⟩ := page_links htree hplain hn hcall
      rw [hresponse] at hpage
      cases hpage
      rw [hhrefs, List.mem_map] at hlink
      obtain ⟨name, hname, rfl⟩ := hlink
      exact link_in_tree hplain hn (hnames.mem_iff.1 hname)

/-- **The client finds the whole tree, and nothing is missing behind a link**: a file is answered with its content, and
a directory with a page. -/
theorem site_complete (htree : HasTree fs root) (hplain : PlainTree root) :
    (∀ href, Found fs href ↔ ∃ ns n, root.lookup ns = some n ∧ href = hrefOf ns) ∧
      ∀ ns n call, root.lookup ns = some n → Asks call (hrefOf ns) →
        match n with
        | .file content => readCb fs call = .ok (okHeader (getFileType (46 :: hrefOf ns)) ++ content)
        | .dir entries => ∃ (page : List UInt8) (names : List (List UInt8)),
            readCb fs call = .ok (okHeader (lit "text/html; charset=utf-8") ++ page) ∧
            names.Perm (lit "." :: lit ".." :: entries.map Prod.fst) ∧
            hrefs (okHeader (lit "text/html; charset=utf-8") ++ page) = names.map (entryLink (hrefOf ns)) := by
  refine ⟨fun href => ⟨lookup_of_found htree hplain, ?_⟩, fun ns n call hn hcall => ?_⟩
  · rintro ⟨ns, n, hn, rfl⟩
    exact found_of_lookup htree hplain hn
  · cases n with
    | file content =>
      obtain ⟨hpath, hfits, hspath⟩ := hplain.href hn
      have hshows := htree ns _ hn
      rw [← hspath] at hshows
      have hserves := serves_file hcall hfits hpath.notMem.2.2.1 hshows
      rwa [hspath] at hserves
    | dir entries => exact page_links htree hplain hn hcall

/-- The served directory has one file. -/
def oneFile : Node (List UInt8) (List UInt8) := .dir [(lit "a.txt", .file (lit "hi"))]

def oneFileSystem : FileSystem where
  access p := p = lit "./" ∨ p = lit "./a.txt"
  stat p := if p = lit "./" then some ⟨S_IFDIR, 4096⟩ else if p = lit "./a.txt" then some ⟨0o100644, 2⟩ else none
  openReads p := if p = lit "./a.txt" then some ⟨[lit "hi"], false⟩ else none
  scandir p := if p = lit "./" then some [lit ".", lit "..", lit "a.txt"] else none

theorem oneFile_lookup (h : oneFile.lookup ns = some n) :
    ns = [] ∧ n = oneFile ∨ ns = [lit "a.txt"] ∧ n = .file (lit "hi") := by
  cases ns with
  | nil =>
    rw [Node.lookup_nil] at h
    cases h
    exact .inl ⟨rfl, rfl⟩
  | cons c cs =>
    obtain ⟨m, hm, h⟩ : ∃ m, oneFile.lookup [c] = some m ∧ m.lookup cs = some n := Node.lookup_front h
    have hmem : c ∈ oneFile.entries.map Prod.fst := Node.mem_entries (Node.lookup_nil oneFile) hm
    cases List.mem_singleton.1 hmem
    have hfile : oneFile.lookup [lit "a.txt"] = some (.file (lit "hi")) := rfl
    rw [hfile] at hm
    cases hm
    cases cs with
    | nil =>
      rw [Node.lookup_nil] at h
      cases h
      exact .inr ⟨rfl, rfl⟩
    | cons d cs =>
      rw [Node.lookup] at h
      cases h

theorem oneFileSystem_hasTree : HasTree oneFileSystem oneFile := by
  intro ns n h
  obtain ⟨rfl, rfl⟩ | ⟨rfl, rfl⟩ := oneFile_lookup h
  · exact .dir rfl rfl (by decide) (by decide) (by decide) rfl (.refl _)
  · exact .file rfl rfl (by decide) (by decide) (by decide) rfl rfl rfl

theorem oneFile_plain : PlainTree oneFile := by
  intro ns n h
  obtain ⟨rfl, rfl⟩ | ⟨rfl, rfl⟩ := oneFile_lookup h
  · exact ⟨fun name hname => (List.not_mem_nil hname).elim, by decide⟩
  · refine ⟨fun name hname => ?_, by decide⟩
    cases List.mem_singleton.1 hname
    exact ⟨by decide, by decide, by decide⟩

theorem site_complete_oneFile : Found oneFileSystem (lit "/a.txt") ∧
    readCb oneFileSystem (ask (lit "/a.txt")) = .ok (okHeader (lit "text/plain; charset=utf-8") ++ lit "hi") := by
  obtain ⟨hfound, hserved⟩ := site_complete oneFileSystem_hasTree oneFile_plain
  have hfile : oneFile.lookup [lit "a.txt"] = some (.file (lit "hi")) := rfl
  exact ⟨(hfound _).2 ⟨_, _, hfile, by decide⟩, hserved _ _ _ hfile (ask_asks (by decide))⟩

end SystemFunc.Http
