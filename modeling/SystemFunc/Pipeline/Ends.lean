import SystemFunc.Pipeline.Defs

/-!
# The ends of the pipe

- `Prog.final`, `wire_ops`: the descriptors of a child behind its calls;
- `final_std`, `final_other`: its command has the end that it uses, or none, and never the other one;
- `Prog.flushed`: what comes into the pipe where `execlp` fails;
- `wired_iff`: when the commands have the pipe as their standard input and output;
- `Moves`, `step_moves`: what a step does.
-/

namespace SystemFunc.Pipeline

variable {g : Prog} {v : Setup} {s t : State} {a : Act} {e : End} {p q : Proc} {j n : Nat} {fds fds' : Entries File}
  {l : List FdOp}

/-! ## The descriptors of a child -/

theorem End.other_ne (e : End) : e.other ≠ e := by cases e <;> exact nofun

theorem pipefd_ne : v.pipefd e.other ≠ v.pipefd e := by
  have hlt := v.read_lt_write
  cases e <;> simp only [End.other] <;> omega

theorem fds_eq_pipe : v.fds n = some (.pipe e) ↔ n = v.pipefd e := by
  have hne := @pipefd_ne v .read
  simp only [End.other] at hne
  rw [Setup.fds]
  split
  next hr => cases e <;> simp [hr, hne.symm]
  next hr =>
    split
    next hw => cases e <;> simp [hw, hne]
    next hw =>
      constructor
      · intro h
        split at h <;> cases h
      · rintro rfl
        cases e
        · exact absurd rfl hr
        · exact absurd rfl hw

theorem fds_pipefd : v.fds (v.pipefd e) = some (.pipe e) := fds_eq_pipe.2 rfl

theorem open_std (h : fds e.std = some (.pipe e)) : v.Open fds (.pipe e) := ⟨_, v.std_lt e, h⟩

theorem not_open_empty (f : File) : ¬v.Open .empty f := fun ⟨_, _, h⟩ => nomatch h

theorem open_of_remove {f : File} (h : v.Open (fds.remove n) f) : v.Open fds f := by
  obtain ⟨m, hm, h⟩ := h
  exact ⟨m, hm, (Entries.remove_eq_some.1 h).2⟩

/-- The calls, one after the other. -/
def Prog.wire (g : Prog) : List FdOp → Entries File → Option (Entries File)
  | [], fds => some fds
  | op :: l, fds => (g.table fds op).bind fun fds' => g.wire l fds'

theorem table_close (g : Prog) (fds : Entries File) (n : Nat) : g.table fds (.close n) = some (fds.remove n) := by
  rw [Prog.table, FdOp.run]
  cases hn : fds n with
  | some f => rfl
  | none =>
    rw [Entries.remove_of_none hn]
    cases g <;> rfl

theorem table_dup2 {m : Nat} {f : File} (h : fds n = some f) : g.table fds (.dup2 n m) = some (fds.add m f) := by
  rw [Prog.table, FdOp.run, h]
  rfl

/-- The descriptors with which the command of a child begins. -/
def Prog.final (v : Setup) (e : End) : Prog → Entries File
  | .pipe6 => (v.fds.remove (v.pipefd e.other)).add e.std (.pipe e)
  | .pipe8 => ((v.fds.add e.std (.pipe e)).remove (v.pipefd .read)).remove (v.pipefd .write)

theorem final_pipe8 (v : Setup) (e : End) : Prog.pipe8.final v e =
    ((v.fds.add e.std (.pipe e)).remove (v.pipefd .read)).remove (v.pipefd .write) := rfl

theorem wire_ops (g : Prog) (v : Setup) (e : End) : g.wire (g.ops v e) v.fds = some (g.final v e) := by
  cases g with
  | pipe6 =>
    have hfd : v.fds.remove (v.pipefd e.other) (v.pipefd e) = some (.pipe e) := by
      rw [Entries.remove_of_ne pipefd_ne.symm, fds_pipefd]
    simp only [Prog.ops, Prog.wire, table_close, table_dup2 hfd, Option.bind_some]
    rfl
  | pipe8 =>
    simp only [Prog.ops, Prog.wire, table_close, table_dup2 fds_pipefd, Option.bind_some]
    rfl

/-- What the first child puts into the pipe where its `execlp` fails. -/
def Prog.flushed (g : Prog) (v : Setup) : List UInt8 := g.spill v 0 (g.final v .write) "execlp error"

/-- A child has one end only, or none. -/
theorem final_std (g : Prog) (v : Setup) (e : End) :
    (g.final v e) e.std = some (.pipe e) ∨ (g.final v e) e.std = none := by
  cases g with
  | pipe6 => exact .inl (Entries.add_self ..)
  | pipe8 =>
    rw [final_pipe8]
    by_cases hw : e.std = v.pipefd .write
    · rw [hw, Entries.remove_self]
      exact .inr rfl
    · rw [Entries.remove_of_ne hw]
      by_cases hr : e.std = v.pipefd .read
      · rw [hr, Entries.remove_self]
        exact .inr rfl
      · rw [Entries.remove_of_ne hr, Entries.add_self]
        exact .inl rfl

theorem final_ne_other (g : Prog) (v : Setup) (e : End) (n : Nat) : (g.final v e) n ≠ some (.pipe e.other) := by
  intro h
  have hne : File.pipe e ≠ .pipe e.other := fun he => e.other_ne (File.pipe.inj he).symm
  cases g with
  | pipe6 =>
    obtain ⟨-, he⟩ | ⟨-, h⟩ := Entries.add_eq_some.1 h
    · exact hne he
    · obtain ⟨hn, h⟩ := Entries.remove_eq_some.1 h
      exact hn (fds_eq_pipe.1 h)
  | pipe8 =>
    obtain ⟨hw, h⟩ := Entries.remove_eq_some.1 h
    obtain ⟨hr, h⟩ := Entries.remove_eq_some.1 h
    obtain ⟨-, he⟩ | ⟨-, h⟩ := Entries.add_eq_some.1 h
    · exact hne he
    · cases e
      · exact hw (fds_eq_pipe.1 h)
      · exact hr (fds_eq_pipe.1 h)

theorem final_other (g : Prog) (v : Setup) (e : End) : ¬v.Open (g.final v e) (.pipe e.other) :=
  fun ⟨n, _, h⟩ => final_ne_other g v e n h

/-- The second child puts nothing into the pipe. -/
theorem spill_read (g : Prog) (v : Setup) (j : Nat) (what : String) : g.spill v j (g.final v .read) what = [] := by
  have hno : ∀ n, (g.final v .read) n ≠ some (.pipe .write) := final_ne_other g v .read
  simp only [Prog.spill, hno, and_false, if_false, List.append_nil]

/-- Nor does the first one, if its standard output is a terminal and its standard error is open. -/
theorem flushed_nil (hbuf : v.buffered 0 = []) (herr : v.inherited 2 = true) : g.flushed v = [] := by
  have hne : ∀ e : End, 2 ≠ v.pipefd e := by
    intro e he
    have hfree : v.inherited (v.pipefd e) = false := by
      cases e
      · exact v.read_free
      · exact v.write_free
    rw [← he, herr] at hfree
    cases hfree
  have hno : g = .pipe6 → (g.final v .write) 2 ≠ some (.pipe .write) := by
    rintro rfl h
    obtain ⟨hstd, -⟩ | ⟨-, h⟩ := Entries.add_eq_some.1 h
    · cases hstd
    · exact hne .write (fds_eq_pipe.1 (Entries.remove_eq_some.1 h).2)
  rw [Prog.flushed, Prog.spill, if_neg fun h => hno h.1 h.2, hbuf, ite_self]
  rfl

/-- The commands have the pipe as their standard input and output. -/
def Wired (g : Prog) (v : Setup) : Prop := ∀ e : End, (g.final v e) e.std = some (.pipe e)

/-- **In `pipe8.c` descriptors `0` and `1` have to be in use before `pipe`**: the child closes what `pipe` has
returned. -/
theorem wired_iff : Wired g v ↔ (g = .pipe8 → v.inherited 0 = true ∧ v.inherited 1 = true) := by
  have hlt := v.read_lt_write
  cases g with
  | pipe6 => exact ⟨fun _ => nofun, fun _ e => Entries.add_self ..⟩
  | pipe8 =>
    constructor
    · intro h _
      have hstd : ∀ e : End, e.std ≠ v.pipefd .read := by
        rintro e he
        have hnone : (Prog.pipe8.final v e) e.std = none := by
          rw [final_pipe8, he, Entries.remove_of_ne (by omega), Entries.remove_self]
        rw [h e] at hnone
        cases hnone
      have h0 : 0 ≠ v.pipefd .read := hstd .read
      have h1 : 1 ≠ v.pipefd .read := hstd .write
      exact ⟨v.read_lowest 0 (by omega), v.read_lowest 1 (by omega)⟩
    · intro h e
      obtain ⟨h0, h1⟩ := h rfl
      have hstd : ∀ n, v.inherited n = false → e.std ≠ n := by
        rintro n hn rfl
        cases e
        · exact absurd (hn.symm.trans h0) nofun
        · exact absurd (hn.symm.trans h1) nofun
      rw [final_pipe8, Entries.remove_of_ne (hstd _ v.write_free), Entries.remove_of_ne (hstd _ v.read_free),
        Entries.add_self]

/-- The calls that are left are of this child, and make the descriptors of its command. -/
def Wires (g : Prog) (v : Setup) (e : End) (l : List FdOp) (fds : Entries File) : Prop :=
  l <:+ g.ops v e ∧ g.wire l fds = some (g.final v e)

theorem Wires.next {op : FdOp} (h : Wires g v e (op :: l) fds) :
    ∃ fds', g.table fds op = some fds' ∧ Wires g v e l fds' := by
  obtain ⟨hl, hw⟩ := h
  obtain ⟨fds', htable, hw⟩ := Option.bind_eq_some_iff.1 hw
  exact ⟨fds', htable, (List.suffix_cons op l).trans hl, hw⟩

/-- What a call makes is a descriptor of a file that was open. -/
theorem open_table {op : FdOp} {f : File} (hop : op ∈ g.ops v e) (ht : g.table fds op = some fds')
    (ho : v.Open fds' f) : v.Open fds f := by
  cases op with
  | close n =>
    rw [table_close] at ht
    cases ht
    exact open_of_remove ho
  | dup2 old new =>
    obtain ⟨m, hm, ho⟩ := ho
    rw [Prog.table, FdOp.run] at ht
    cases hold : fds old with
    | some f' =>
      rw [hold] at ht
      cases ht
      obtain ⟨-, rfl⟩ | ⟨-, ho⟩ := Entries.add_eq_some.1 ho
      · have hlt : old < v.openMax := by
          have hpipefd := v.pipefd_lt e
          cases g <;> simp only [Prog.ops, List.mem_cons, FdOp.dup2.injEq, reduceCtorEq, List.not_mem_nil, or_false,
            false_or] at hop <;> rw [hop.1] <;> exact hpipefd
        exact ⟨old, hlt, hold⟩
      · exact ⟨m, hm, ho⟩
    | none =>
      rw [hold] at ht
      simp only [Option.map_none] at ht
      split at ht <;> cases ht
      exact ⟨m, hm, ho⟩

theorem Wires.open {f : File} (h : Wires g v e l fds) (ho : v.Open (g.final v e) f) : v.Open fds f := by
  induction l generalizing fds with
  | nil =>
    cases h.2
    exact ho
  | cons op l ih =>
    obtain ⟨fds', ht, hnext⟩ := h.next
    exact open_table (h.1.subset List.mem_cons_self) ht (ih hnext)

/-! ## What a step does -/

/-- The new process. -/
def Proc.forked (g : Prog) (v : Setup) (s : State) : Proc :=
  ⟨s.fds, .ops (g.ops v (.ofIdx s.procs.length)), false⟩

/-- Child `j` has exited. -/
def State.exited (s : State) (j : Nat) (p : Proc) (kids : Children) : State :=
  { s.set j { p with fds := .empty, ctrl := .exited } with kids := kids }

inductive Moves (g : Prog) (v : Setup) (s : State) : Act → State → Prop
  | fork (hctrl : s.ctrl = .fork) :
      Moves g v s (.fork true) { s with
        kids := s.kids.fork
        procs := s.procs ++ [.forked g v s]
        ctrl := if s.procs.length + 1 < 2 then .fork else .close .read }
  | forkFailed (hctrl : s.ctrl = .fork) :
      Moves g v s (.fork false) { s with ctrl := .exited 1 (some "fork error"), fds := .empty }
  | closeRead (hctrl : s.ctrl = .close .read) :
      Moves g v s .close { s with fds := s.fds.remove (v.pipefd .read), ctrl := .close .write }
  | closeWrite (hctrl : s.ctrl = .close .write) :
      Moves g v s .close { s with fds := s.fds.remove (v.pipefd .write), ctrl := .wait }
  | reap {kids : Children} (j : Nat) (hctrl : s.ctrl = .wait) (hkids : s.kids.waitpid (.pid j) = some kids) :
      Moves g v s (.wait (.pid j)) { s with kids := kids }
  | again (hctrl : s.ctrl = .wait) : Moves g v s (.wait .again) s
  | last (hctrl : s.ctrl = .wait) (hz : s.kids.zombies = 0) (hrun : s.kids.running = 0) :
      Moves g v s (.wait .echild) { s with ctrl := g.last, fds := .empty }
  | op {j : Nat} {p : Proc} {op : FdOp} {l : List FdOp} {fds : Entries File} (hp : s.procs[j]? = some p)
      (hctrl : p.ctrl = .ops (op :: l)) (ht : g.table p.fds op = some fds) :
      Moves g v s (.op j) (s.set j { p with fds := fds, ctrl := .ops l })
  | opFailed {j : Nat} {p : Proc} {op : FdOp} {l : List FdOp} {kids : Children} (hp : s.procs[j]? = some p)
      (hctrl : p.ctrl = .ops (op :: l)) (ht : g.table p.fds op = none) (hkids : s.kids.exit j = some kids) :
      Moves g v s (.op j) ((s.flush g v j p.fds "dup2 error").exited j p kids)
  | exec {j : Nat} {p : Proc} (hp : s.procs[j]? = some p) (hctrl : p.ctrl = .ops []) :
      Moves g v s (.exec j true) (s.set j { p with ctrl := .running, execed := true })
  | execFailed {j : Nat} {p : Proc} {kids : Children} (hp : s.procs[j]? = some p) (hctrl : p.ctrl = .ops [])
      (hkids : s.kids.exit j = some kids) :
      Moves g v s (.exec j false) ((s.flush g v j p.fds "execlp error").exited j p kids)
  | write {p : Proc} {n : Nat} (hp : s.procs[0]? = some p) (hctrl : p.ctrl = .running)
      (hstd : p.fds End.write.std = some (.pipe .write)) (hn : 0 < n) (hle : s.sent + n ≤ v.out.length) :
      Moves g v s (.write n) { s with pipe := s.pipe ++ (v.out.drop s.sent).take n, sent := s.sent + n }
  | read {p : Proc} {n : Nat} (hp : s.procs[1]? = some p) (hctrl : p.ctrl = .running)
      (hstd : p.fds End.read.std = some (.pipe .read)) (hn : 0 < n) (hle : n ≤ s.pipe.length) :
      Moves g v s (.read n) { s with got := s.got ++ s.pipe.take n, pipe := s.pipe.drop n }
  | eof {p : Proc} {kids : Children} (hp : s.procs[1]? = some p) (hctrl : p.ctrl = .running)
      (hstd : p.fds End.read.std = some (.pipe .read)) (hpipe : s.pipe = []) (hend : ¬s.Has v .write)
      (hkids : s.kids.exit 1 = some kids) : Moves g v s .eof ({ s with eof := true }.exited 1 p kids)
  | failWrite {p : Proc} {kids : Children} (hp : s.procs[0]? = some p) (hctrl : p.ctrl = .running)
      (hstd : p.fds End.write.std = none ∨ ¬s.Has v .read) (hkids : s.kids.exit 0 = some kids) :
      Moves g v s (.fail 0) (s.exited 0 p kids)
  | failRead {p : Proc} {kids : Children} (hp : s.procs[1]? = some p) (hctrl : p.ctrl = .running)
      (hstd : p.fds End.read.std = none) (hkids : s.kids.exit 1 = some kids) :
      Moves g v s (.fail 1) (s.exited 1 p kids)
  | finish {p : Proc} {kids : Children} (hp : s.procs[0]? = some p) (hctrl : p.ctrl = .running)
      (hsent : s.sent = v.out.length) (hkids : s.kids.exit 0 = some kids) :
      Moves g v s .finish (s.exited 0 p kids)

theorem command_eq_some {f : Proc → Option State} (h : s.command j f = some t) :
    ∃ p, s.procs[j]? = some p ∧ p.ctrl = .running ∧ f p = some t := by
  obtain ⟨p, hp, h⟩ := Option.bind_eq_some_iff.1 h
  split at h
  · exact ⟨p, hp, ‹_›, h⟩
  all_goals cases h

theorem exit_eq_some (h : s.exit j p = some t) : ∃ kids, s.kids.exit j = some kids ∧ t = s.exited j p kids := by
  obtain ⟨kids, hkids, rfl⟩ := Option.map_eq_some_iff.1 h
  exact ⟨kids, hkids, rfl⟩

theorem step_moves (hs : step g v s a = some t) : Moves g v s a t := by
  cases a with
  | fork ok =>
    obtain ⟨hctrl, h⟩ := Option.ite_none_right_eq_some.1 hs
    cases h
    cases ok
    · exact .forkFailed hctrl
    · exact .fork hctrl
  | close =>
    simp only [step] at hs
    split at hs <;> cases hs
    · exact .closeRead ‹_›
    · exact .closeWrite ‹_›
  | wait w =>
    obtain ⟨⟨hctrl, -⟩, h⟩ := Option.ite_none_right_eq_some.1 hs
    obtain ⟨kids, hkids, rfl⟩ := Option.map_eq_some_iff.1 h
    cases w with
    | pid j => exact .reap j hctrl hkids
    | again =>
      obtain ⟨rfl, -⟩ := Children.waitpid_none hkids rfl
      exact .again hctrl
    | echild =>
      obtain ⟨⟨hz, hrun⟩, hkids⟩ := Option.ite_none_right_eq_some.1 hkids
      cases hkids
      exact .last hctrl hz hrun
  | op j =>
    obtain ⟨p, hp, h⟩ := Option.bind_eq_some_iff.1 hs
    split at h
    next op l hctrl =>
      split at h
      next fds ht =>
        cases h
        exact .op hp hctrl ht
      next ht =>
        obtain ⟨kids, hkids, rfl⟩ := exit_eq_some h
        exact .opFailed hp hctrl ht hkids
    next => cases h
  | exec j ok =>
    obtain ⟨p, hp, h⟩ := Option.bind_eq_some_iff.1 hs
    split at h
    next hctrl =>
      cases ok
      · obtain ⟨kids, hkids, rfl⟩ := exit_eq_some h
        exact .execFailed hp hctrl hkids
      · cases h
        exact .exec hp hctrl
    next => cases h
  | write n =>
    obtain ⟨p, hp, hctrl, h⟩ := command_eq_some hs
    obtain ⟨⟨hstd, -, hn, hle, -⟩, h⟩ := Option.ite_none_right_eq_some.1 h
    cases h
    exact .write hp hctrl hstd hn hle
  | read n =>
    obtain ⟨p, hp, hctrl, h⟩ := command_eq_some hs
    obtain ⟨⟨hstd, hn, hle⟩, h⟩ := Option.ite_none_right_eq_some.1 h
    cases h
    exact .read hp hctrl hstd hn hle
  | eof =>
    obtain ⟨p, hp, hctrl, h⟩ := command_eq_some hs
    obtain ⟨⟨hstd, hpipe, hend⟩, h⟩ := Option.ite_none_right_eq_some.1 h
    obtain ⟨kids, hkids, rfl⟩ := exit_eq_some h
    exact .eof hp hctrl hstd hpipe hend hkids
  | fail j =>
    obtain ⟨p, hp, hctrl, h⟩ := command_eq_some hs
    obtain ⟨⟨rfl, -, hstd⟩ | ⟨rfl, hstd⟩, h⟩ := Option.ite_none_right_eq_some.1 h
    · obtain ⟨kids, hkids, rfl⟩ := exit_eq_some h
      exact .failWrite hp hctrl (hstd.imp_right And.right) hkids
    · obtain ⟨kids, hkids, rfl⟩ := exit_eq_some h
      exact .failRead hp hctrl hstd hkids
  | finish =>
    obtain ⟨p, hp, hctrl, h⟩ := command_eq_some hs
    obtain ⟨hsent, h⟩ := Option.ite_none_right_eq_some.1 h
    obtain ⟨kids, hkids, rfl⟩ := exit_eq_some h
    exact .finish hp hctrl hsent hkids

end SystemFunc.Pipeline
