import SystemFunc.Ls.Defs

/-!
# The walk of `LsDir`

The subdirectories that the walk comes to decide how it goes on: `first` finds the first one whose name does not fit
into `temp`, or that is closed. Where `chdir` has failed, `LsDir` lists the same directory again, one level deeper,
until it comes to the same subdirectory again; in the end no descriptor is left. `lsDir_ends` is the induction over
these levels, `loop_ends` the one over the entries, and `lists_iff` says when the listing is as it should be.
-/

namespace SystemFunc.Ls

/-! ## The first subdirectory that stops the walk -/

/-- How the walk of some subdirectories ends: with an error message where one is closed, outside `temp` where a name is
too long. -/
inductive Event where
  | done
  | stop
  | long
  deriving DecidableEq

def Event.then : Event → Event → Event
  | .done, e => e
  | .stop, _ => .stop
  | .long, _ => .long

/-- The name does not fit behind `./`. -/
def SubDir.Long (d : SubDir) : Prop := 7 < d.name.length

instance : DecidablePred SubDir.Long := fun d => inferInstanceAs (Decidable (7 < d.name.length))

def first (n : Nat) : List SubDir → Event
  | [] => .done
  | d :: ds => if d.Long then .long else if d.Closed n then .stop else first n ds

variable {n m level : Nat} {ds es before after : List SubDir} {d : SubDir}

theorem first_append : first n (ds ++ es) = (first n ds).then (first n es) := by
  induction ds with
  | nil => rfl
  | cons d ds ih =>
    simp only [List.cons_append, first]
    split
    · rfl
    · split
      · rfl
      · exact ih

theorem first_of_closed (hbefore : ∀ b ∈ before, ¬b.Long) (hd : ¬d.Long) (hclosed : d.Closed n) :
    first n (before ++ d :: after) = .stop := by
  induction before with
  | nil => rw [List.nil_append, first, if_neg hd, if_pos hclosed]
  | cons b before ih =>
    obtain ⟨hb, hbefore⟩ := List.forall_mem_cons.1 hbefore
    rw [List.cons_append, first, if_neg hb, ih hbefore, ite_self]

theorem not_long_of_done (h : first n ds = .done) : ∀ d ∈ ds, ¬d.Long := by
  induction ds with
  | nil => exact fun d hd => absurd hd List.not_mem_nil
  | cons d ds ih =>
    rw [first] at h
    split at h
    · cases h
    · rename_i hd
      split at h
      · cases h
      · exact List.forall_mem_cons.2 ⟨hd, ih h⟩

/-- A long name is come to exactly if no closed subdirectory is before it. -/
theorem first_eq_long_iff : first n ds = .long ↔
    ∃ before d after, ds = before ++ d :: after ∧ d.Long ∧ ∀ b ∈ before, ¬b.Closed n := by
  constructor
  · intro h
    induction ds with
    | nil => cases h
    | cons c ds ih =>
      rw [first] at h
      split at h
      · rename_i hc
        exact ⟨[], c, ds, rfl, hc, fun b hb => absurd hb List.not_mem_nil⟩
      · split at h
        · cases h
        · rename_i hopen
          obtain ⟨before, d, after, rfl, hd, hbefore⟩ := ih h
          exact ⟨c :: before, d, after, rfl, hd, List.forall_mem_cons.2 ⟨hopen, hbefore⟩⟩
  · rintro ⟨before, d, after, rfl, hd, hbefore⟩
    induction before with
    | nil => rw [List.nil_append, first, if_pos hd]
    | cons b before ih =>
      obtain ⟨hb, hbefore⟩ := List.forall_mem_cons.1 hbefore
      rw [List.cons_append, first, if_neg hb, ih hbefore, ite_self]

/-- The names are the same at every level. -/
theorem names_dirs (e : Entries) (k l : Nat) : (e.dirs k).map SubDir.name = (e.dirs l).map SubDir.name := by
  induction e generalizing k l with
  | nil => rfl
  | self rest ih => exact ih k l
  | parent rest ih => exact ih k l
  | file name size rest ih => exact ih k l
  | dir name size searchable readable sub rest ihsub ihrest =>
    simp only [Entries.dirs, List.map_cons, List.map_append]
    rw [ihsub (k + 1) (l + 1), ihrest k l]

theorem not_long_dirs {e : Entries} {k l : Nat} (h : ∀ d ∈ e.dirs k, ¬d.Long) : ∀ d ∈ e.dirs l, ¬d.Long := by
  intro d hd hlong
  have hname : d.name ∈ (e.dirs k).map SubDir.name := by
    rw [names_dirs e k l]
    exact List.mem_map_of_mem hd
  obtain ⟨c, hc, heq⟩ := List.mem_map.1 hname
  refine h c hc ?_
  rw [SubDir.Long, heq]
  exact hlong

/-! ## The calls -/

/-- What `lstat` tells of the entries in `e`, when it is called in `d`. -/
def Agrees (d : Entries) : Entries → Prop
  | .nil => True
  | .self rest => Agrees d rest
  | .parent rest => Agrees d rest
  | .file name size rest => d.find name = some (.file size) ∧ Agrees d rest
  | .dir name size searchable readable sub rest =>
    d.find name = some (.dir size ⟨searchable, readable, sub⟩) ∧ Agrees d rest

theorem Agrees.congr {d d' e : Entries} (h : Agrees d e) (hfind : ∀ name ∈ e.names, d'.find name = d.find name) :
    Agrees d' e := by
  induction e with
  | nil => trivial
  | self rest ih => exact ih h fun name hname => hfind name (List.mem_cons_of_mem _ hname)
  | parent rest ih => exact ih h fun name hname => hfind name (List.mem_cons_of_mem _ hname)
  | file name size rest ih =>
    exact ⟨(hfind name List.mem_cons_self).trans h.1,
      ih h.2 fun name hname => hfind name (List.mem_cons_of_mem _ hname)⟩
  | dir name size searchable readable sub rest ihsub ihrest =>
    exact ⟨(hfind name List.mem_cons_self).trans h.1,
      ihrest h.2 fun name hname => hfind name (List.mem_cons_of_mem _ hname)⟩

/-- In a directory, `lstat` tells what its entries are. -/
theorem Entries.Valid.agrees {e : Entries} (h : e.Valid) : Agrees e e := by
  induction e with
  | nil => trivial
  | self rest ih => exact (ih h).congr fun _ _ => rfl
  | parent rest ih => exact (ih h).congr fun _ _ => rfl
  | file name size rest ih =>
    refine ⟨if_pos rfl, (ih h.2.2).congr fun name' hname => if_neg ?_⟩
    rintro rfl
    exact h.2.1 hname
  | dir name size searchable readable sub rest ihsub ihrest =>
    refine ⟨if_pos rfl, (ihrest h.2.2.2).congr fun name' hname => if_neg ?_⟩
    rintro rfl
    exact h.2.1 hname

variable {root : Dir} {path : List Name} {d e : Dir} {name : Name} {size : Nat} {s t : State}

theorem lookup_append (h : root.lookup path = some d) (hsub : d.sub name = some e) :
    root.lookup (path ++ [name]) = some e := by
  induction path generalizing root with
  | nil =>
    cases h
    rw [List.nil_append, Dir.lookup, hsub]
    rfl
  | cons name' path ih =>
    obtain ⟨c, hc, hd⟩ := Option.bind_eq_some_iff.1 h
    rw [List.cons_append, Dir.lookup, hc]
    exact ih hd

theorem workDir_eq (h : root.lookup path = some d) : workDir root (.inside path) = .ok d := by
  rw [workDir, h]
  rfl

theorem opendir_eq (h : root.lookup path = some d) : opendir root (.inside path) =
    if d.searchable ∧ d.readable then .ok d.entries.names else .error (.exit EACCES "open dir error") := by
  rw [opendir, workDir_eq h]
  rfl

theorem lstat_eq {node : Node} (h : root.lookup path = some d) (hsearch : d.searchable = true)
    (hfind : d.entries.find name = some node) : lstat root (.inside path) name = .ok node := by
  rw [lstat, workDir_eq h, ok_bind, if_pos hsearch, hfind]
  rfl

theorem enter_inside (h : root.lookup path = some d) : (Cwd.inside path).Enter root ↔ d.searchable = true := by
  show (∃ d ∈ root.lookup path, d.searchable) ↔ d.searchable = true
  rw [h]
  simp

theorem target_sub : Cwd.target (lit "./" ++ name) (.inside path) = .inside (path ++ [name]) := by
  have hne : lit "./" ++ name ≠ lit "../" := fun heq => by simp [lit] at heq
  rw [Cwd.target, if_neg hne]
  rfl

/-- `chdir` to a subdirectory. -/
theorem chdir_sub (h : root.lookup path = some d) (hsearch : d.searchable = true) (hsub : d.sub name = some e)
    (henter : e.searchable = true) : chdir root (.inside path) (lit "./" ++ name) = .inside (path ++ [name]) := by
  rw [chdir, target_sub, if_pos ⟨(enter_inside h).2 hsearch, (enter_inside (lookup_append h hsub)).2 henter⟩]

/-- It fails. -/
theorem chdir_shut (h : root.lookup path = some d) (hsub : d.sub name = some e) (hshut : e.searchable = false) :
    chdir root (.inside path) (lit "./" ++ name) = .inside path := by
  rw [chdir, target_sub, if_neg]
  rintro ⟨-, henter⟩
  rw [enter_inside (lookup_append h hsub), hshut] at henter
  cases henter

/-- And back. -/
theorem chdir_up (h : root.lookup path = some d) (hsearch : d.searchable = true) (hsub : d.sub name = some e)
    (henter : e.searchable = true) : chdir root (.inside (path ++ [name])) (lit "../") = .inside path := by
  have htarget : Cwd.target (lit "../") (.inside (path ++ [name])) = .inside path := by
    rw [Cwd.target, if_pos rfl, if_neg (List.append_ne_nil_of_right_ne_nil path (List.cons_ne_nil name [])),
      List.dropLast_concat]
  rw [chdir, htarget, if_pos ⟨(enter_inside (lookup_append h hsub)).2 henter, (enter_inside h).2 hsearch⟩]

/-! ## How the calls end -/

/-- Every call that has returned came back to where it was. -/
def Paired (s : State) : Prop := ∀ c ∈ s.returns, c.2 = c.1

/-- What the walk comes to, where `cwd` and `out` are what it should come to. -/
inductive Ends (cwd : Cwd) (out : List Line) : Event → Res → Prop
  | done {t : State} : t.cwd = cwd → t.out = out → Paired t → Ends cwd out .done (t, none)
  | stop {t : State} {errno : Nat} {headStr : String} : Paired t → Ends cwd out .stop (t, some (.exit errno headStr))
  | long {t : State} : Paired t → Ends cwd out .long (t, some .undefined)

theorem Ends.andThen {c c' : Cwd} {o o' : List Line} {e e' : Event} {r : Res} {f : State → Res} (h : Ends c o e r)
    (hf : e = .done → ∀ t, t.cwd = c → t.out = o → Paired t → Ends c' o' e' (f t)) :
    Ends c' o' (e.then e') (r.andThen f) := by
  cases h with
  | done hc ho hp => exact hf rfl _ hc ho hp
  | stop hp => exact .stop hp
  | long hp => exact .long hp

theorem then_done (e : Event) : e.then .done = e := by cases e <;> rfl

theorem not_long_nil {searchable readable : Bool} : ¬SubDir.Long ⟨[], level, searchable, readable⟩ := Nat.not_lt_zero 7

/-- A name that is not long makes no difference. -/
theorem first_dirs (hname : name.length ≤ 7) :
    first n (⟨name, level, d.searchable, d.readable⟩ :: d.entries.dirs (level + 1)) = first n (d.dirs level) := by
  have hnot : ¬SubDir.Long ⟨name, level, d.searchable, d.readable⟩ := Nat.not_lt.2 hname
  rw [Dir.dirs, first, first, if_neg hnot, if_neg not_long_nil]
  rfl

/-- `f` lists a directory at this level, wherever it is in the tree. -/
def Listing (root : Dir) (n level : Nat) (f : State → Res) : Prop :=
  ∀ path d s, root.lookup path = some d → d.entries.Valid → s.cwd = .inside path → Paired s →
    Ends (chdir root (.inside path) (lit "../")) (s.out ++ d.entries.lines level) (first n (d.dirs level)) (f s)

variable {f : State → Res}

/-- What is remembered of a call that came back to where it was. -/
theorem Paired.returned (h : Paired t) {c : Cwd} (hc : t.cwd = c) :
    Paired { t with returns := t.returns ++ [(c, t.cwd)] } := by
  intro p hp
  rcases List.mem_append.1 hp with hp | hp
  · exact h p hp
  · rw [List.eq_of_mem_singleton hp]
    exact hc

/-- A subdirectory is visited. -/
theorem visit_dir (hf : Listing root n (level + 1) f) (h : root.lookup path = some d) (hsearch : d.searchable = true)
    (hvalid : d.entries.Valid) (hname : IsName name) (hfind : d.entries.find name = some (.dir size e))
    (he : e.entries.Valid) (hcwd : s.cwd = .inside path) (hpaired : Paired s)
    (hagain : e.searchable = false → name.length ≤ 7 → first n (d.dirs (level + 1)) = .stop) :
    Ends (.inside path) (s.out ++ ⟨level, name, size⟩ :: e.entries.lines (level + 1))
      (first n (⟨name, level + 1, e.searchable, e.readable⟩ :: e.entries.dirs (level + 2)))
      (visit root f level name s) := by
  have hsub : d.sub name = some e := by rw [Dir.sub, hfind]
  have hdots : ¬(name = lit ".." ∨ name = lit ".") := not_or.2 ⟨hname.2.2.2.2, hname.2.2.2.1⟩
  rw [visit, if_neg hdots, hcwd, lstat_eq h hsearch hfind]
  dsimp only [State.call]
  have hlen : (lit "./").length = 2 := rfl
  by_cases hlong : 7 < name.length
  · have hstrcat : strcat 10 (lit "./") name = .error .undefined := if_neg (by omega)
    have hfirst : first n (⟨name, level + 1, e.searchable, e.readable⟩ :: e.entries.dirs (level + 2)) = .long :=
      if_pos hlong
    rw [hstrcat, hfirst]
    exact .long hpaired
  · have hshort : name.length ≤ 7 := Nat.not_lt.1 hlong
    have hstrcat : strcat 10 (lit "./") name = .ok (lit "./" ++ name) := if_pos (by omega)
    rw [hstrcat, first_dirs hshort]
    dsimp only
    cases henter : e.searchable with
    | true =>
      rw [chdir_sub h hsearch hsub henter]
      have hends := hf (path ++ [name]) e ⟨.inside (path ++ [name]), s.out ++ [⟨level, name, size⟩], s.returns⟩
        (lookup_append h hsub) he rfl hpaired
      rw [chdir_up h hsearch hsub henter, List.append_assoc] at hends
      rw [← then_done (first n (e.dirs (level + 1)))]
      exact hends.andThen fun _ t hc hout hp => .done hc hout (hp.returned hc)
    | false =>
      -- the same directory is listed again, and that ends with an error message
      rw [chdir_shut h hsub henter]
      have hends := hf path d ⟨.inside path, s.out ++ [⟨level, name, size⟩], s.returns⟩ h hvalid rfl hpaired
      rw [hagain henter hshort] at hends
      have hstop : first n (e.dirs (level + 1)) = .stop :=
        first_of_closed (fun b hb => absurd hb List.not_mem_nil) not_long_nil (.inl henter)
      rw [hstop, ← then_done .stop]
      exact hends.andThen fun hdone => nomatch hdone

/-- `.` and `..` are passed over. -/
theorem visit_dots (h : name = lit ".." ∨ name = lit ".") : visit root f level name s = (s, none) := if_pos h

theorem visit_file (h : root.lookup path = some d) (hsearch : d.searchable = true) (hname : IsName name)
    (hfind : d.entries.find name = some (.file size)) (hcwd : s.cwd = .inside path) :
    visit root f level name s = ({ s with out := s.out ++ [⟨level, name, size⟩] }, none) := by
  have hdots : ¬(name = lit ".." ∨ name = lit ".") := not_or.2 ⟨hname.2.2.2.2, hname.2.2.2.1⟩
  rw [visit, if_neg hdots, hcwd, lstat_eq h hsearch hfind, ← hcwd]
  rfl

/-- The loop over the entries that are left, where those before them had no long names. -/
theorem loop_ends (hf : Listing root n (level + 1) f) (h : root.lookup path = some d) (hsearch : d.searchable = true)
    (hvalid : d.entries.Valid) {es : Entries} (hes : es.Valid) (hagrees : Agrees d.entries es)
    (hbefore : ∃ before, d.entries.dirs (level + 2) = before ++ es.dirs (level + 2) ∧ ∀ b ∈ before, ¬b.Long)
    (hcwd : s.cwd = .inside path) (hpaired : Paired s) :
    Ends (.inside path) (s.out ++ es.lines level) (first n (es.dirs (level + 1))) (loop root f level es.names s) := by
  induction es generalizing s with
  | nil => exact .done hcwd (List.append_nil _).symm hpaired
  | self rest ih =>
    rw [Entries.names, loop, visit_dots (.inr rfl)]
    exact ih hes hagrees hbefore hcwd hpaired
  | parent rest ih =>
    rw [Entries.names, loop, visit_dots (.inl rfl)]
    exact ih hes hagrees hbefore hcwd hpaired
  | file name size rest ih =>
    rw [Entries.names, loop, visit_file h hsearch hes.1 hagrees.1 hcwd]
    have hrest := ih (s := { s with out := s.out ++ [⟨level, name, size⟩] }) hes.2.2 hagrees.2 hbefore hcwd hpaired
    rw [List.append_assoc] at hrest
    exact hrest
  | dir name size searchable readable sub rest ihsub ihrest =>
    obtain ⟨before, hdirs, hshort⟩ := hbefore
    obtain ⟨hname, -, hsubvalid, hrestvalid⟩ := hes
    obtain ⟨hfind, hagrees⟩ := hagrees
    have hvisit := visit_dir hf h hsearch hvalid hname hfind hsubvalid hcwd hpaired fun hshut hlen => by
      have hlist : d.dirs (level + 1) = (⟨[], level + 1, d.searchable, d.readable⟩ :: before) ++
          ⟨name, level + 2, searchable, readable⟩ :: (sub.dirs (level + 3) ++ rest.dirs (level + 2)) := by
        rw [Dir.dirs, hdirs]
        rfl
      rw [hlist]
      exact first_of_closed (List.forall_mem_cons.2 ⟨not_long_nil, hshort⟩) (Nat.not_lt.2 hlen) (.inl hshut)
    have hevent : first n ((Entries.dir name size searchable readable sub rest).dirs (level + 1)) =
        (first n (⟨name, level + 1, searchable, readable⟩ :: sub.dirs (level + 2))).then
          (first n (rest.dirs (level + 1))) := by
      rw [Entries.dirs, ← List.cons_append, first_append]
    rw [Entries.names, loop, hevent]
    refine hvisit.andThen fun hdone t hc hout hp => ?_
    have hrest := ihrest (s := t) hrestvalid hagrees ?_ hc hp
    · rw [hout, List.append_assoc] at hrest
      exact hrest
    · obtain ⟨hlen, hsub⟩ := List.forall_mem_cons.1 (not_long_of_done hdone)
      have hvisited : ∀ b ∈ ⟨name, level + 2, searchable, readable⟩ :: sub.dirs (level + 3), ¬b.Long :=
        List.forall_mem_cons.2 ⟨hlen, not_long_dirs hsub⟩
      refine ⟨before ++ ⟨name, level + 2, searchable, readable⟩ :: sub.dirs (level + 3), ?_, fun b hb => ?_⟩
      · rw [hdirs, List.append_assoc]
        rfl
      · exact (List.mem_append.1 hb).elim (hshort b) (hvisited b)

/-- **Every call of `LsDir`**, from the last descriptor on. -/
theorem lsDir_ends (root : Dir) (m level : Nat) : Listing root (m + level) level (lsDir root m level) := by
  induction m generalizing level with
  | zero =>
    intro path d s h hvalid hcwd hpaired
    have hstop : first (0 + level) (d.dirs level) = .stop :=
      first_of_closed (fun b hb => absurd hb List.not_mem_nil) not_long_nil (.inr (.inr (by dsimp only; omega)))
    rw [hstop]
    exact .stop hpaired
  | succ m ih =>
    intro path d s h hvalid hcwd hpaired
    rw [lsDir, hcwd, opendir_eq h]
    by_cases hopen : d.searchable ∧ d.readable
    · have hlevel : m + 1 + level = m + (level + 1) := by omega
      have hloop := loop_ends (ih (level + 1)) h hopen.1 hvalid hvalid hvalid.agrees
        ⟨[], rfl, fun b hb => absurd hb List.not_mem_nil⟩ hcwd hpaired
      have hnot : ¬SubDir.Closed (m + (level + 1)) ⟨[], level, d.searchable, d.readable⟩ := by
        rintro (hshut | hshut | hfull)
        · exact absurd (hopen.1.symm.trans hshut) (by decide)
        · exact absurd (hopen.2.symm.trans hshut) (by decide)
        · dsimp only at hfull
          omega
      have hfirst : first (m + (level + 1)) (d.dirs level) = first (m + (level + 1)) (d.entries.dirs (level + 1)) := by
        rw [Dir.dirs, first, if_neg not_long_nil, if_neg hnot]
      rw [if_pos hopen, hlevel, hfirst, ← then_done (first _ (d.entries.dirs (level + 1)))]
      dsimp only [State.call]
      refine hloop.andThen fun _ t hc hout hp => .done ?_ hout hp
      dsimp only
      rw [hc]
    · have hclosed : SubDir.Closed (m + 1 + level) ⟨[], level, d.searchable, d.readable⟩ := by
        rcases Classical.not_and_iff_not_or_not.1 hopen with hshut | hshut
        · exact .inl (Bool.eq_false_of_not_eq_true hshut)
        · exact .inr (.inl (Bool.eq_false_of_not_eq_true hshut))
      have hstop : first (m + 1 + level) (d.dirs level) = .stop :=
        first_of_closed (fun b hb => absurd hb List.not_mem_nil) not_long_nil hclosed
      rw [if_neg hopen, hstop]
      exact .stop hpaired

/-! ## The listing -/

theorem Ends.iff_ne_long {c : Cwd} {o : List Line} {e : Event} {r : Res} (h : Ends c o e r) :
    e ≠ .long ↔ ((∃ errno headStr, r.2 = some (.exit errno headStr)) ∨ r.2 = none ∧ r.1.out = o) ∧
      r.2 ≠ some .undefined ∧ Paired r.1 := by
  cases h with
  | done hc ho hp => exact iff_of_true nofun ⟨.inr ⟨rfl, ho⟩, nofun, hp⟩
  | @stop t errno headStr hp => exact iff_of_true nofun ⟨.inl ⟨errno, headStr, rfl⟩, nofun, hp⟩
  | long hp => exact iff_of_false (fun hne => hne rfl) fun hall => hall.2.1 rfl

/-- **`LsDir` lists the tree**, or ends with an error message, exactly if every subdirectory with a name of more than
seven bytes comes after one that cannot be entered or opened. -/
theorem lists_iff (tree : Tree) (n : Nat) : Lists tree.root n ↔
    ∀ before d after, tree.root.dirs 0 = before ++ d :: after → 7 < d.name.length → ∃ b ∈ before, b.Closed n := by
  have hends := lsDir_ends tree.root n 0 [] tree.root ⟨.inside [], [], []⟩ rfl tree.valid rfl fun c hc => nomatch hc
  have hlists : Lists tree.root n ↔ first n (tree.root.dirs 0) ≠ .long := by
    refine Iff.trans ?_ hends.iff_ne_long.symm
    exact ⟨fun h => ⟨h.ends, h.inside, h.returns⟩, fun h => ⟨h.1, h.2.1, h.2.2⟩⟩
  rw [hlists, Ne, first_eq_long_iff]
  constructor
  · intro hnot before d after hdirs hlong
    by_contra hopen
    exact hnot ⟨before, d, after, hdirs, hlong, fun b hb hclosed => hopen ⟨b, hb, hclosed⟩⟩
  · rintro hall ⟨before, d, after, hdirs, hlong, hopen⟩
    obtain ⟨b, hb, hclosed⟩ := hall before d after hdirs hlong
    exact hopen b hb hclosed

/-- A directory with one subdirectory. -/
def pictures : Tree where
  root := ⟨true, true, .self (.parent (.dir (lit "pictures") 4096 true true .nil .nil))⟩
  valid := ⟨⟨by decide, by decide, by decide, by decide, by decide⟩, List.not_mem_nil, trivial, trivial⟩

/-- The name does not fit. -/
theorem pictures_long : (run pictures.root 1000).2 = some .undefined ∧ ¬Lists pictures.root 1000 := by
  have hrun : (run pictures.root 1000).2 = some .undefined := by decide +kernel
  exact ⟨hrun, fun hlists => hlists.inside hrun⟩

end SystemFunc.Ls
