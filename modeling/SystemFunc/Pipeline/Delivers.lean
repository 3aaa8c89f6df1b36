import SystemFunc.Lib.Progress
import SystemFunc.Pipeline.Processes

/-!
# What comes through the pipeline

- `Inv.progress`: somebody can go on until all have exited, with no call failing;
- `left_step`: but for polls of `waitpid`, every step does something of what is left;
- `pipeline_delivers`: the second command reads what the first one writes;
- `pipeline_delivers_iff`: when it does.
-/

namespace SystemFunc.Pipeline

variable {g : Prog} {v : Setup} {s t : State} {a : Act} {e : End} {p q : Proc} {j n : Nat} {fds fds' : Entries File}
  {l : List FdOp}

/-! ## Somebody goes on -/

def State.Final (s : State) : Prop := (∃ code perror, s.ctrl = .exited code perror) ∧ ∀ p ∈ s.procs, p.ctrl = .exited

/-- `waitpid` returns `0`. -/
def Act.isPoll : Act → Bool
  | .wait .again => true
  | _ => false

/-- Not a poll, and `fork` and `execlp` succeed. -/
def Act.good : Act → Bool
  | .fork ok => ok
  | .exec _ ok => ok
  | a => !a.isPoll

/-- Somebody can go on. -/
def Goes (g : Prog) (v : Setup) (s : State) : Prop := ∃ a t, a.good = true ∧ step g v s a = some t

theorem exit_isSome (p : Proc) (h : s.kids.list[j]? = some .running) : ∃ t, s.exit j p = some t := by
  refine ⟨_, Option.map_eq_some_iff.2 ⟨_, if_pos h, rfl⟩⟩

theorem command_eq (hp : s.procs[j]? = some p) (hctrl : p.ctrl = .running) (f : Proc → Option State) :
    s.command j f = f p := by
  rw [State.command, hp, Option.bind_some, hctrl]

theorem Inv.goes_ops (h : Inv g v s) (hp : s.procs[j]? = some p) (hctrl : p.ctrl = .ops l) : Goes g v s := by
  obtain ⟨hwires, -, -⟩ := h.ops hp hctrl
  cases l with
  | nil =>
    refine ⟨.exec j true, s.set j { p with ctrl := .running, execed := true }, rfl, ?_⟩
    simp only [step, hp, Option.bind_some, hctrl, if_true]
  | cons op l =>
    obtain ⟨fds', ht, -⟩ := hwires.next
    refine ⟨.op j, s.set j { p with fds := fds', ctrl := .ops l }, rfl, ?_⟩
    simp only [step, hp, Option.bind_some, hctrl, ht]

theorem goes_fork (hctrl : s.ctrl = .fork) : Goes g v s := ⟨.fork true, _, rfl, if_pos hctrl⟩

theorem goes_close (hctrl : s.ctrl = .close e) : Goes g v s := by
  cases e
  · refine ⟨.close, { s with fds := s.fds.remove (v.pipefd .read), ctrl := .close .write }, rfl, ?_⟩
    simp only [step, hctrl]
  · refine ⟨.close, { s with fds := s.fds.remove (v.pipefd .write), ctrl := .wait }, rfl, ?_⟩
    simp only [step, hctrl]

/-- The parent closes what it has open. -/
theorem Inv.goes_parent (h : Inv g v s) (ho : v.Open s.fds (.pipe e)) : Goes g v s := by
  have hparent := h.parent
  match hctrl : s.ctrl with
  | .fork => exact goes_fork hctrl
  | .close _ => exact goes_close hctrl
  | .wait =>
    rw [hctrl] at hparent
    exact absurd ho (hparent.2 e)
  | .exited _ _ =>
    rw [hctrl] at hparent
    exact absurd ho (hparent.1 e)

theorem Inv.length_le (h : Inv g v s) : s.procs.length ≤ 2 := by
  have hparent := h.parent
  rw [← h.length]
  match hctrl : s.ctrl with
  | .fork | .close .read | .close .write =>
    rw [hctrl] at hparent
    have hlen := hparent.2
    omega
  | .wait =>
    rw [hctrl] at hparent
    exact Nat.le_of_eq hparent.1
  | .exited _ _ =>
    rw [hctrl] at hparent
    obtain ⟨-, hlen, -⟩ | ⟨-, hlen⟩ := hparent.2
    · exact Nat.le_of_eq hlen
    · exact Nat.le_of_lt hlen

/-- Who has the end that child `j` does not use: the parent, a child in front of its command, or the other child. -/
theorem Inv.holder (h : Inv g v s) {i : Nat} (hi : e = .ofIdx i) (hlt : i < 2) (hhas : s.Has v e) :
    Goes g v s ∨ ∃ p, s.procs[i]? = some p ∧ p.ctrl = .running := by
  obtain ho | ⟨p, hp, ho⟩ := hhas
  · exact .inl (h.goes_parent ho)
  · obtain ⟨j, hj⟩ := List.mem_iff_getElem?.1 hp
    have hjlt := (List.getElem?_eq_some_iff.1 hj).1
    have hle := h.length_le
    match hctrl : p.ctrl with
    | .ops l => exact .inl (h.goes_ops hj hctrl)
    | .running =>
      refine .inr ⟨p, ?_, hctrl⟩
      rw [(h.running hj hctrl).1] at ho
      have hsame : e = .ofIdx j := by
        refine Classical.byContradiction fun hne => final_other g v (.ofIdx j) ?_
        have hother : (End.ofIdx j).other = e := by cases e <;> cases hidx : End.ofIdx j <;> simp_all [End.other]
        rwa [hother]
      obtain rfl : i = j := by
        obtain rfl | rfl : i = 0 ∨ i = 1 := by omega
        all_goals obtain rfl | rfl : j = 0 ∨ j = 1 := by omega
        all_goals first | rfl | (rw [hi] at hsame; cases hsame)
      exact hj
    | .exited =>
      obtain ⟨kid, -, hstage⟩ := h.stage j p hj
      cases hstage with
      | ops _ => cases hctrl
      | running => cases hctrl
      | exited _ => exact absurd ho (not_open_empty _)

/-- The writer can go on, unless the pipe is full and the reader has not exited. -/
theorem Inv.goes_writer (h : Inv g v s) (hp : s.procs[0]? = some p) (hctrl : p.ctrl = .running)
    (hroom : s.Has v .read → s.pipe.length < v.capacity) : Goes g v s := by
  obtain ⟨rfl, hkid⟩ := h.running hp hctrl
  obtain ⟨t, ht⟩ := exit_isSome ⟨g.final v .write, .running, true⟩ hkid
  by_cases hsent : s.sent = v.out.length
  · refine ⟨.finish, t, rfl, ?_⟩
    show s.command 0 _ = _
    rw [command_eq hp rfl]
    exact (if_pos hsent).trans ht
  have hlt : s.sent < v.out.length := Nat.lt_of_le_of_ne h.sent_le hsent
  have hfail : ((g.final v .write) End.write.std = none ∨
      (g.final v .write) End.write.std = some (.pipe .write) ∧ ¬s.Has v .read) → Goes g v s := by
    intro hstd
    refine ⟨.fail 0, t, rfl, ?_⟩
    show s.command 0 _ = _
    rw [command_eq hp rfl]
    exact (if_pos (.inl ⟨rfl, hlt, hstd⟩)).trans ht
  obtain hstd | hstd := final_std g v .write
  · by_cases hread : s.Has v .read
    · have hcap := hroom hread
      refine ⟨.write 1, { s with pipe := s.pipe ++ (v.out.drop s.sent).take 1, sent := s.sent + 1 }, rfl, ?_⟩
      show s.command 0 _ = _
      rw [command_eq hp rfl]
      exact if_pos ⟨hstd, hread, Nat.zero_lt_one, hlt, hcap⟩
    · exact hfail (.inr ⟨hstd, hread⟩)
  · exact hfail (.inl hstd)

/-- The reader can go on, unless the pipe is empty and the writer has not exited. -/
theorem Inv.goes_reader (h : Inv g v s) (hp : s.procs[1]? = some p) (hctrl : p.ctrl = .running)
    (hdata : s.Has v .write → s.pipe ≠ []) : Goes g v s := by
  obtain ⟨rfl, hkid⟩ := h.running hp hctrl
  obtain hstd | hstd := final_std g v .read
  · by_cases hpipe : s.pipe = []
    · have hend : ¬s.Has v .write := fun hwrite => hdata hwrite hpipe
      obtain ⟨t, ht⟩ := exit_isSome (s := { s with eof := true }) ⟨g.final v .read, .running, true⟩ hkid
      refine ⟨.eof, t, rfl, ?_⟩
      show s.command 1 _ = _
      rw [command_eq hp rfl]
      exact (if_pos ⟨hstd, hpipe, hend⟩).trans ht
    · refine ⟨.read 1, { s with got := s.got ++ s.pipe.take 1, pipe := s.pipe.drop 1 }, rfl, ?_⟩
      show s.command 1 _ = _
      rw [command_eq hp rfl]
      exact if_pos ⟨hstd, Nat.zero_lt_one, List.length_pos_iff.2 hpipe⟩
  · obtain ⟨t, ht⟩ := exit_isSome ⟨g.final v .read, .running, true⟩ hkid
    refine ⟨.fail 1, t, rfl, ?_⟩
    show s.command 1 _ = _
    rw [command_eq hp rfl]
    exact (if_pos (.inr ⟨rfl, hstd⟩)).trans ht

/-- A child that has not exited. -/
theorem Inv.goes_child (h : Inv g v s) (hp : s.procs[j]? = some p) (hlive : p.ctrl ≠ .exited) : Goes g v s := by
  match hctrl : p.ctrl with
  | .exited => exact absurd hctrl hlive
  | .ops l => exact h.goes_ops hp hctrl
  | .running =>
    have hle := h.length_le
    have hjlt := (List.getElem?_eq_some_iff.1 hp).1
    obtain rfl | rfl : j = 0 ∨ j = 1 := by omega
    · by_cases hgoes : Goes g v s
      · exact hgoes
      · refine h.goes_writer hp hctrl fun hread => Classical.byContradiction fun hfull => hgoes ?_
        obtain hg | ⟨q, hq, hqctrl⟩ := h.holder (i := 1) rfl Nat.one_lt_two hread
        · exact hg
        · refine h.goes_reader hq hqctrl fun _ hpipe => hfull ?_
          rw [hpipe]
          exact v.capacity_pos
    · by_cases hgoes : Goes g v s
      · exact hgoes
      · refine h.goes_reader hp hctrl fun hwrite hpipe => hgoes ?_
        obtain hg | ⟨q, hq, hqctrl⟩ := h.holder (i := 0) rfl Nat.zero_lt_two hwrite
        · exact hg
        · refine h.goes_writer hq hqctrl fun _ => ?_
          rw [hpipe]
          exact v.capacity_pos

/-- **Nobody waits for ever.** -/
theorem Inv.progress (h : Inv g v s) (hfinal : ¬s.Final) : Goes g v s := by
  by_cases hlive : ∃ p ∈ s.procs, p.ctrl ≠ .exited
  · obtain ⟨p, hp, hctrl⟩ := hlive
    obtain ⟨j, hj⟩ := List.mem_iff_getElem?.1 hp
    exact h.goes_child hj hctrl
  have hexited : ∀ p ∈ s.procs, p.ctrl = .exited := fun p hp =>
    Classical.byContradiction fun hctrl => hlive ⟨p, hp, hctrl⟩
  match hctrl : s.ctrl with
  | .fork => exact goes_fork hctrl
  | .close _ => exact goes_close hctrl
  | .exited code perror => exact absurd ⟨⟨code, perror, hctrl⟩, hexited⟩ hfinal
  | .wait =>
    have hrun : s.kids.running = 0 := by
      refine List.count_eq_zero.2 fun hmem => ?_
      obtain ⟨j, hj⟩ := List.mem_iff_getElem?.1 hmem
      have hjlt := (List.getElem?_eq_some_iff.1 hj).1
      rw [h.length] at hjlt
      have hp : s.procs[j]? = some s.procs[j] := List.getElem?_eq_getElem hjlt
      obtain ⟨kid, hkid, hstage⟩ := h.stage j _ hp
      have hpctrl := hexited _ (List.mem_of_getElem? hp)
      rw [hj] at hkid
      cases hkid
      generalize s.procs[j] = p at hstage hpctrl
      cases hstage with
      | ops _ => cases hpctrl
      | running => cases hpctrl
      | exited hkid => exact hkid rfl
    by_cases hz : s.kids.zombies = 0
    · refine ⟨.wait .echild, { s with ctrl := g.last, fds := .empty }, rfl, ?_⟩
      simp only [step, hctrl, Children.waitpid, hz, hrun]
      rfl
    · obtain ⟨j, hj⟩ := List.mem_iff_getElem?.1 (List.count_pos_iff.1 (Nat.pos_of_ne_zero hz))
      refine ⟨.wait (.pid j), { s with kids := { s.kids with list := s.kids.list.set j .reaped } }, rfl, ?_⟩
      simp only [step, hctrl, Children.waitpid, hj]
      rfl

/-! ## What is left to do -/

def ChildCtrl.left : ChildCtrl → Nat
  | .ops l => l.length + 2
  | .running => 1
  | .exited => 0

/-- With `n` children. -/
def ParentCtrl.left (n : Nat) : ParentCtrl → Nat
  | .fork => 8 * (2 - n) + 3
  | .close .read => 3
  | .close .write => 2
  | .wait => 1
  | .exited _ _ => 0

/-- A byte is written and read; what a child spills for its `execlp` is only read. -/
def State.left (g : Prog) (v : Setup) (s : State) : Nat :=
  s.ctrl.left s.procs.length + (s.procs.map fun p => p.ctrl.left).sum + 2 * (v.out.length - s.sent) + s.pipe.length +
    ((g.flushed v).length - s.said.length) + s.kids.running + s.kids.zombies

theorem left_set {v : Setup} (hp : s.procs[j]? = some p) (q : Proc) :
    (s.set j q).left g v + p.ctrl.left = s.left g v + q.ctrl.left := by
  have hsum := Steps.sum_map_set_add (fun p => p.ctrl.left) hp q
  have hlen : (s.procs.set j q).length = s.procs.length := List.length_set ..
  simp only [State.left, State.set, hlen]
  omega

theorem left_exited {v : Setup} {kids : Children} (hp : s.procs[j]? = some p) (hlive : 0 < p.ctrl.left)
    (hkids : s.kids.exit j = some kids) : (s.exited j p kids).left g v + 1 ≤ s.left g v := by
  have hset := left_set (g := g) (v := v) hp { p with fds := .empty, ctrl := .exited }
  have hrun := Children.running_exit hkids
  have hz := Children.zombies_exit hkids
  have hleft : ChildCtrl.exited.left = 0 := rfl
  simp only [State.left, State.set, State.exited, hleft] at hset ⊢
  omega

/-- Every step that is not a poll does something of what is left. -/
theorem left_step (h : Inv g v s) (hs : step g v s a = some t) : t.left g v + (!a.isPoll).toNat ≤ s.left g v := by
  cases step_moves hs with
  | fork hctrl =>
    obtain ⟨-, hlt⟩ := h.at_fork hctrl
    have hops : (g.ops v (.ofIdx s.procs.length)).length ≤ 3 := by cases g <;> exact Nat.le_of_ble_eq_true rfl
    have hrun : s.kids.fork.running = s.kids.running + 1 := by
      simp [Children.fork, Children.running, List.count_append]
    have hz : s.kids.fork.zombies = s.kids.zombies := by simp [Children.fork, Children.zombies, List.count_append]
    have hnew : (Proc.forked g v s).ctrl.left = (g.ops v (.ofIdx s.procs.length)).length + 2 := rfl
    have hlen : (s.procs ++ [Proc.forked g v s]).length = s.procs.length + 1 := List.length_append
    simp only [State.left, hctrl, hlen, hrun, hz, List.map_append, List.sum_append, List.map_cons, List.map_nil,
      List.sum_cons, List.sum_nil, hnew, Act.isPoll, Bool.not_false, Bool.toNat_true]
    split
    · simp only [ParentCtrl.left]
      omega
    · simp only [ParentCtrl.left]
      omega
  | forkFailed hctrl | closeRead hctrl | closeWrite hctrl =>
    simp only [State.left, hctrl, ParentCtrl.left, Act.isPoll, Bool.not_false, Bool.toNat_true]
    omega
  | reap j hctrl hkids =>
    have hrun := Children.running_pid hkids
    have hz := Children.zombies_pid hkids
    simp only [State.left, Act.isPoll, Bool.not_false, Bool.toNat_true]
    omega
  | again _ => exact Nat.le_refl _
  | last hctrl hz hrun =>
    have hlast : g.last.left s.procs.length = 0 := by cases g <;> rfl
    have hwait : ParentCtrl.wait.left s.procs.length = 1 := rfl
    simp only [State.left, hctrl, hlast, hwait, Act.isPoll, Bool.not_false, Bool.toNat_true]
    omega
  | @op j p op l fds hp hctrl ht =>
    have hset := left_set (g := g) (v := v) hp { p with fds := fds, ctrl := .ops l }
    simp only [hctrl, ChildCtrl.left, List.length_cons] at hset
    simp only [Act.isPoll, Bool.not_false, Bool.toNat_true]
    omega
  | @exec j p hp hctrl =>
    have hset := left_set (g := g) (v := v) hp { p with ctrl := .running, execed := true }
    simp only [hctrl, ChildCtrl.left, List.length_nil] at hset
    simp only [Act.isPoll, Bool.not_false, Bool.toNat_true]
    omega
  | write hp hctrl hstd hn hle =>
    simp only [State.left, List.length_append, List.length_take, List.length_drop, Act.isPoll, Bool.not_false,
      Bool.toNat_true]
    omega
  | read hp hctrl hstd hn hle =>
    simp only [State.left, List.length_drop, Act.isPoll, Bool.not_false, Bool.toNat_true]
    omega
  | opFailed hp hctrl ht _ =>
    obtain ⟨fds', ht', -⟩ := (h.ops hp hctrl).1.next
    rw [ht] at ht'
    cases ht'
  | @execFailed j p kids hp hctrl hkids =>
    have hpos : 0 < p.ctrl.left := by
      rw [hctrl]
      exact Nat.succ_pos _
    have hexit := left_exited (g := g) (v := v) hp hpos hkids
    obtain hsame | ⟨-, hsaid, hflush⟩ := h.flush_cases hp hctrl
    · rw [hsame]
      exact hexit
    · rw [hflush]
      simp only [State.left, State.exited, State.set, hsaid, List.length_append, List.length_nil, Act.isPoll,
        Bool.not_false, Bool.toNat_true] at hexit ⊢
      omega
  | eof hp hctrl _ _ _ hkids | failWrite hp hctrl _ hkids | failRead hp hctrl _ hkids | finish hp hctrl _ hkids =>
    refine left_exited hp ?_ hkids
    rw [hctrl]
    exact Nat.succ_pos _

/-! ## What comes through -/

theorem Inv.wired_all (h : Inv g v s) (hw : Wired g v) (hfinal : s.Final) (htwo : s.procs.length = 2)
    (hexeced : ∀ p ∈ s.procs, p.execed = true) : s.got = v.out := by
  have hget : ∀ j, j < 2 → ∃ p, s.procs[j]? = some p ∧ p.ctrl = .exited ∧ p.execed = true := by
    intro j hj
    have hp : s.procs[j]? = some s.procs[j] := List.getElem?_eq_getElem (by omega)
    have hmem := List.mem_of_getElem? hp
    exact ⟨_, hp, hfinal.2 _ hmem, hexeced _ hmem⟩
  obtain ⟨q, hq, hqctrl, hqexeced⟩ := hget 1 Nat.one_lt_two
  have heof : s.eof = true := by
    obtain heof | hnone := h.ended q hq hqctrl hqexeced
    · exact heof
    · rw [hw .read] at hnone
      cases hnone
  obtain ⟨p, hp, -, hgot⟩ := h.eof heof hw
  exact hgot (hexeced p (List.mem_of_getElem? hp))

/-- Nothing but what the first command writes comes through the pipe, if `execlp` has not failed. -/
theorem Inv.got_le (h : Inv g v s) : s.got <+: v.out ∨ s.got <+: g.flushed v ∧
    ∃ p, s.procs[0]? = some p ∧ p.ctrl = .exited ∧ p.execed = false := by
  have hstream := h.stream
  by_cases hsaid : s.said = []
  · rw [hsaid, List.nil_append] at hstream
    exact .inl ((List.prefix_append s.got s.pipe).trans (hstream ▸ List.take_prefix ..))
  · obtain ⟨heq, p, hp, hctrl, hexeced⟩ := h.said hsaid
    rw [h.sent_zero hp hexeced, List.take_zero, List.append_nil, heq] at hstream
    exact .inr ⟨hstream ▸ List.prefix_append s.got s.pipe, p, hp, hctrl, hexeced⟩

/-- `plain`: where the standard output of the children is a terminal and their standard error is open; `all`: where no
call of `fork` or `execlp` has failed. -/
structure Delivered (g : Prog) (v : Setup) (as : List Act) (s : State) : Prop where
  le : s.got <+: v.out ∨ s.got <+: g.flushed v ∧ ∃ p, s.procs[0]? = some p ∧ p.ctrl = .exited ∧ p.execed = false
  plain : v.buffered 0 = [] → v.inherited 2 = true → s.got <+: v.out
  bounded : (as.countP fun a => !a.isPoll) ≤ 2 * v.out.length + (g.flushed v).length + 19
  goes : ¬s.Final → ∃ a t, a.good = true ∧ step g v s a = some t
  reaped : s.ctrl = g.last → s.procs.length = 2 ∧ s.kids.reaped = 2
  all : s.Final → s.procs.length = 2 → (∀ p ∈ s.procs, p.execed = true) → s.got = v.out

/-- **The pipeline delivers.** In every run the second command has read a beginning of what the first one writes, or,
where `execlp` has failed there, of what the first child spills in its place; but for polls of `waitpid` the run is
bounded, and it goes on until all three processes have exited: then the second command has read it all, and the parent
has waited for both. -/
theorem pipeline_delivers {as : List Act} (hstd : g = .pipe8 → v.inherited 0 = true ∧ v.inherited 1 = true)
    (hr : Steps.run (step g v) (start v) as = some s) : Delivered g v as s where
  le := (inv_run hr).got_le
  plain hbuf herr := by
    obtain hle | ⟨hle, -⟩ := (inv_run hr).got_le
    · exact hle
    · rw [flushed_nil hbuf herr, List.prefix_nil] at hle
      rw [hle]
      exact List.nil_prefix
  bounded := by
    have hle := Steps.run_countP_le (I := Inv g v) (f := State.left g v) (c := fun a => !a.isPoll)
      (fun _ _ _ h hs => inv_step h hs) (fun _ _ _ h hs => left_step h hs) (inv_start g v) hr
    have hleft : (start v).left g v = 2 * v.out.length + (g.flushed v).length + 19 := by
      simp only [State.left, start, ParentCtrl.left, List.length_nil, List.map_nil, List.sum_nil, Children.running,
        Children.zombies, Children.empty, List.count_nil]
      omega
    omega
  goes := (inv_run hr).progress
  reaped hctrl := by
    have h := inv_run hr
    have hparent := h.parent
    have hsum := Children.sum_eq s.kids
    have hlast : s.kids.list.length = 2 ∧ s.kids.zombies = 0 ∧ s.kids.running = 0 := by
      rw [hctrl] at hparent
      cases g
      · obtain ⟨-, hlast⟩ | ⟨hne, -⟩ := hparent.2
        · exact hlast
        · cases hne
      · obtain ⟨-, hlast⟩ | ⟨hne, -⟩ := hparent.2
        · exact hlast
        · exact absurd (ParentCtrl.exited.inj hne).2 (by decide)
    obtain ⟨hlen, hz, hrun⟩ := hlast
    exact ⟨h.length.symm.trans hlen, by omega⟩
  all := (inv_run hr).wired_all (wired_iff.2 hstd)

/-- `0`, `1` and `2` are in use, and are a terminal. -/
def shell : Setup where
  inherited n := n < 3
  openMax := 8
  pipefd
    | .read => 3
    | .write => 4
  capacity := 64
  out := [97, 98, 10]
  buffered _ := []
  perror what := lit (what ++ ": No such file or directory\n")
  read_free := rfl
  read_lowest := by decide
  write_free := rfl
  read_lt_write := by decide
  write_lowest := by decide
  pipefd_lt e := by cases e <;> decide
  std_lt e := by cases e <;> decide
  capacity_pos := by decide
  room _ := by decide

def shellRun : List Act :=
  [.fork true, .op 0, .fork true, .close, .close, .op 0, .op 0, .exec 0 true, .write 2, .op 1, .op 1, .op 1, .exec 1 true,
    .read 1, .write 1, .finish, .wait (.pid 0), .wait .again, .read 2, .eof, .wait (.pid 1), .wait .echild]

theorem pipeline_delivers_shell : ∃ s, Steps.run (step .pipe8 shell) (start shell) shellRun = some s ∧
    s.ctrl = .exited 1 (some "waitpid error") ∧ s.got = [97, 98, 10] ∧ Delivered .pipe8 shell shellRun s := by
  have hr : Steps.run (step .pipe8 shell) (start shell) shellRun = some _ := rfl
  exact ⟨_, hr, rfl, rfl, pipeline_delivers (fun _ => ⟨rfl, rfl⟩) hr⟩

/-! ## Where the commands do not have the pipe -/

/-- No call of `fork` or `execlp` has failed. -/
structure Clean (s : State) : Prop where
  ctrl : s.ctrl ≠ .exited 1 (some "fork error")
  procs : ∀ p ∈ s.procs, p.ctrl = .exited → p.execed = true

theorem Clean.set (h : Clean s) (hq : q.ctrl = .exited → q.execed = true) : Clean (s.set j q) where
  ctrl := h.ctrl
  procs r hr hctrl := by
    obtain hr | rfl := List.mem_or_eq_of_mem_set hr
    · exact h.procs r hr hctrl
    · exact hq hctrl

theorem Clean.exited (h : Clean s) (kids : Children) (hexeced : p.execed = true) : Clean (s.exited j p kids) where
  ctrl := h.ctrl
  procs := (h.set (q := { p with fds := .empty, ctrl := .exited }) fun _ => hexeced).procs

theorem clean_step (hi : Inv g v s) (h : Clean s) (ha : a.good = true) (hs : step g v s a = some t) : Clean t := by
  cases step_moves hs with
  | fork hctrl =>
    refine ⟨?_, fun p hp hpctrl => ?_⟩
    · simp only
      split <;> exact nofun
    · obtain hp | hp := List.mem_append.1 hp
      · exact h.procs p hp hpctrl
      · cases List.mem_singleton.1 hp
        cases hpctrl
  | forkFailed _ | execFailed _ _ _ => cases ha
  | closeRead _ | closeWrite _ => exact ⟨nofun, h.procs⟩
  | reap _ hctrl _ => exact ⟨h.ctrl, h.procs⟩
  | again _ => exact h
  | last _ _ _ =>
    have hlast : g.last ≠ .exited 1 (some "fork error") := by cases g <;> decide
    exact ⟨hlast, h.procs⟩
  | op _ _ _ | exec _ _ => exact h.set nofun
  | write _ _ _ _ _ | read _ _ _ _ _ => exact ⟨h.ctrl, h.procs⟩
  | opFailed hp hctrl ht _ =>
    obtain ⟨fds', ht', -⟩ := (hi.ops hp hctrl).1.next
    rw [ht] at ht'
    cases ht'
  | @eof p kids hp hctrl _ _ _ _ =>
    have hexeced := congrArg Proc.execed (hi.running hp hctrl).1
    exact ⟨h.ctrl, (h.exited kids hexeced).procs⟩
  | failWrite hp hctrl _ _ | failRead hp hctrl _ _ | finish hp hctrl _ _ =>
    exact h.exited _ (congrArg Proc.execed (hi.running hp hctrl).1)

/-- A run in which no call fails comes to its end. -/
theorem exists_clean_run (g : Prog) (v : Setup) :
    ∃ as s, Steps.run (step g v) (start v) as = some s ∧ s.Final ∧ Clean s := by
  let next : State → Act → Option State := fun s a => if a.good = true then step g v s a else none
  have hkeep : ∀ s a t, Inv g v s ∧ Clean s → next s a = some t → Inv g v t ∧ Clean t := by
    rintro s a t ⟨hi, hc⟩ hs
    obtain ⟨ha, hs⟩ := Option.ite_none_right_eq_some.1 hs
    exact ⟨inv_step hi hs, clean_step hi hc ha hs⟩
  have hstart : Inv g v (start v) ∧ Clean (start v) := ⟨inv_start g v, nofun, fun p hp => by cases hp⟩
  obtain ⟨as, s, hr, hfinal⟩ := Steps.exists_run_final (f := State.left g v) hkeep
    (fun s hs hfinal => by
      obtain ⟨a, t, ha, ht⟩ := hs.1.progress hfinal
      have hleft := left_step hs.1 ht
      have hpoll : a.isPoll = false := by
        cases a with
        | wait w => cases w <;> first | rfl | cases ha
        | _ => rfl
      rw [hpoll, Bool.not_false, Bool.toNat_true] at hleft
      exact ⟨a, t, (if_pos ha).trans ht, hleft⟩) hstart
  refine ⟨as, s, ?_, hfinal, (Steps.run_inv hkeep hstart hr).2⟩
  clear hfinal hstart
  generalize start v = s₀ at hr ⊢
  induction as generalizing s₀ with
  | nil => exact hr
  | cons a as ih =>
    obtain ⟨u, hu, hr⟩ := Steps.run_cons.1 hr
    exact Steps.run_cons.2 ⟨u, (Option.ite_none_right_eq_some.1 hu).2, ih u hr⟩

/-- **`pipe8.c` needs its standard input and output open, and `pipe6.c` does not**: this is exactly when the second
command gets what the first one writes in every run in which no call of `fork` or `execlp` fails. -/
theorem pipeline_delivers_iff (g : Prog) (v : Setup) (hout : v.out ≠ []) :
    (∀ as s, Steps.run (step g v) (start v) as = some s → s.Final → s.procs.length = 2 →
      (∀ p ∈ s.procs, p.execed = true) → s.got = v.out) ↔
    (g = .pipe8 → v.inherited 0 = true ∧ v.inherited 1 = true) := by
  constructor
  · intro hall
    refine wired_iff.1 fun e => ?_
    obtain hstd | hnone := final_std g v e
    · exact hstd
    obtain ⟨as, s, hr, hfinal, hclean⟩ := exists_clean_run g v
    have h := inv_run hr
    have htwo : s.procs.length = 2 := by
      have hparent := h.parent
      obtain ⟨code, perror, hctrl⟩ := hfinal.1
      rw [hctrl] at hparent
      obtain ⟨-, hlen, -⟩ | ⟨hfork, -⟩ := hparent.2
      · exact h.length.symm.trans hlen
      · exact absurd (hctrl.trans hfork) hclean.ctrl
    have hgot := hall as s hr hfinal htwo fun p hp => hclean.procs p hp (hfinal.2 p hp)
    -- Without one of the ends nothing has been read.
    have hnil : s.got = [] := by
      cases e with
      | read => exact h.unread hnone
      | write =>
        have hp : s.procs[0]? = some s.procs[0] := List.getElem?_eq_getElem (htwo ▸ Nat.zero_lt_two)
        have hsaid := h.said_nil hp (hclean.procs _ (List.mem_of_getElem? hp))
        have hstream := h.stream
        rw [h.unsent hnone, hsaid, List.take_zero] at hstream
        exact (List.append_eq_nil_iff.1 hstream).1
    exact absurd (hgot.symm.trans hnil) hout
  · intro hstd as s hr
    exact (inv_run hr).wired_all (wired_iff.2 hstd)

theorem pipeline_delivers_iff_shell : shell.out ≠ [] ∧
    ∀ as s, Steps.run (step .pipe8 shell) (start shell) as = some s → s.Final → s.procs.length = 2 →
      (∀ p ∈ s.procs, p.execed = true) → s.got = shell.out :=
  ⟨nofun, (pipeline_delivers_iff .pipe8 shell nofun).2 fun _ => ⟨rfl, rfl⟩⟩

end SystemFunc.Pipeline
