import SystemFunc.Lib.Slots
import SystemFunc.Pipeline.Ends

/-!
# The parent and the two children

The parent has both ends of the pipe open until it closes them, and each child has the end that it does not use open
until it closes it: the reader sees the end of file once the writer has exited.

- `Stage`, `ParentAt`: how far a child and the parent are;
- `Inv.has_of_moves`: an end that nobody has stays so;
- `Inv.at_eof`: at the end of file the writer has exited, and everything has been read;
- `Inv`, `inv_run`: the invariant;
- `Inv.flush_cases`, `Inv.execFailed`: what a child leaves in the pipe whose `execlp` fails.
-/

namespace SystemFunc.Pipeline

open Slots (slot_append slot_set slot_snoc)

variable {g : Prog} {v : Setup} {s t : State} {a : Act} {e : End} {p q : Proc} {j n : Nat} {fds fds' : Entries File}
  {l : List FdOp}

/-! ## How far the processes are -/

inductive Stage (g : Prog) (v : Setup) (e : End) : Proc → Child → Prop
  | ops {l : List FdOp} {fds : Entries File} (h : Wires g v e l fds) : Stage g v e ⟨fds, .ops l, false⟩ .running
  | running : Stage g v e ⟨g.final v e, .running, true⟩ .running
  | exited {execed : Bool} {kid : Child} (hkid : kid ≠ .running) : Stage g v e ⟨.empty, .exited, execed⟩ kid

/-- The descriptors of the parent, and how many children it has. -/
def ParentAt (g : Prog) (v : Setup) (fds : Entries File) (kids : Children) : ParentCtrl → Prop
  | .fork => fds = v.fds ∧ kids.list.length < 2
  | .close .read => fds = v.fds ∧ kids.list.length = 2
  | .close .write => fds = v.fds.remove (v.pipefd .read) ∧ kids.list.length = 2
  | .wait => kids.list.length = 2 ∧ ∀ e : End, ¬v.Open fds (.pipe e)
  | .exited code perror => (∀ e : End, ¬v.Open fds (.pipe e)) ∧
      (.exited code perror = g.last ∧ kids.list.length = 2 ∧ kids.zombies = 0 ∧ kids.running = 0 ∨
        ParentCtrl.exited code perror = .exited 1 (some "fork error") ∧ kids.list.length < 2)

structure Inv (g : Prog) (v : Setup) (s : State) : Prop where
  parent : ParentAt g v s.fds s.kids s.ctrl
  length : s.kids.list.length = s.procs.length
  stage : ∀ (j : Nat) (p : Proc), s.procs[j]? = some p →
    ∃ kid, s.kids.list[j]? = some kid ∧ Stage g v (.ofIdx j) p kid
  stream : s.got ++ s.pipe = s.said ++ v.out.take s.sent
  execed : s.sent ≠ 0 → ∃ p, s.procs[0]? = some p ∧ p.execed = true
  said : s.said ≠ [] → s.said = g.flushed v ∧ ∃ p, s.procs[0]? = some p ∧ p.ctrl = .exited ∧ p.execed = false
  sent_le : s.sent ≤ v.out.length
  unsent : (g.final v .write) End.write.std = none → s.sent = 0
  unread : (g.final v .read) End.read.std = none → s.got = []
  cut : ∀ p, s.procs[0]? = some p → p.ctrl = .exited → p.execed = true →
    s.sent = v.out.length ∨ (g.final v .write) End.write.std = none ∨ ¬s.Has v .read
  eof_exited : s.eof = true → ∃ p, s.procs[1]? = some p ∧ p.ctrl = .exited
  eof : s.eof = true → Wired g v →
    ∃ p, s.procs[0]? = some p ∧ p.ctrl = .exited ∧ (p.execed = true → s.got = v.out)
  ended : ∀ p, s.procs[1]? = some p → p.ctrl = .exited → p.execed = true →
    s.eof = true ∨ (g.final v .read) End.read.std = none

theorem ParentAt.of_exit {ctrl : ParentCtrl} {kids kids' : Children} (h : ParentAt g v fds kids ctrl)
    (hkids : kids.exit j = some kids') : ParentAt g v fds kids' ctrl := by
  have hlen := Children.length_exit hkids
  have hexit := Children.running_exit hkids
  match ctrl, h with
  | .fork, h => exact ⟨h.1, hlen ▸ h.2⟩
  | .close .read, h => exact ⟨h.1, hlen.trans h.2⟩
  | .close .write, h => exact ⟨h.1, hlen.trans h.2⟩
  | .wait, h => exact ⟨hlen.trans h.1, h.2⟩
  | .exited code perror, ⟨hfds, h⟩ =>
    refine ⟨hfds, h.imp (fun h => ?_) fun h => ⟨h.1, hlen ▸ h.2⟩⟩
    obtain ⟨-, -, -, hrun⟩ := h
    omega

/-- What the parent closes. -/
theorem not_open_closed (v : Setup) (e : End) :
    ¬v.Open ((v.fds.remove (v.pipefd .read)).remove (v.pipefd .write)) (.pipe e) := by
  rintro ⟨n, -, h⟩
  obtain ⟨hw, h⟩ := Entries.remove_eq_some.1 h
  obtain ⟨hr, h⟩ := Entries.remove_eq_some.1 h
  cases e
  · exact hr (fds_eq_pipe.1 h)
  · exact hw (fds_eq_pipe.1 h)

theorem getElem?_exit {kids kids' : Children} (hkids : kids.exit j = some kids') (i : Nat) :
    kids'.list[i]? = if i = j then some .zombie else kids.list[i]? := by
  obtain ⟨hj, rfl⟩ := Children.exit_eq_some.1 hkids
  obtain ⟨hlt, -⟩ := List.getElem?_eq_some_iff.1 hj
  by_cases hij : i = j
  · rw [if_pos hij, hij]
    exact List.getElem?_set_self hlt
  · rw [if_neg hij]
    exact List.getElem?_set_ne (Ne.symm hij)

/-! ### Who has an end -/

theorem has_set {e : End} (hp : s.procs[j]? = some p) (hfds : v.Open q.fds (.pipe e) → v.Open p.fds (.pipe e))
    (h : (s.set j q).Has v e) : s.Has v e := by
  obtain h | ⟨r, hr, h⟩ := h
  · exact .inl h
  · obtain hr | rfl := List.mem_or_eq_of_mem_set hr
    · exact .inr ⟨r, hr, h⟩
    · exact .inr ⟨p, List.mem_of_getElem? hp, hfds h⟩

theorem has_exited {e : End} (hp : s.procs[j]? = some p)
    (h : (s.set j { p with fds := .empty, ctrl := .exited }).Has v e) : s.Has v e :=
  has_set hp (fun h => absurd h (not_open_empty _)) h

/-- An end that nobody has stays so. -/
theorem Inv.has_of_moves {e : End} (h : Inv g v s) (hm : Moves g v s a t) (hhas : t.Has v e) : s.Has v e := by
  cases hm with
  | fork _ =>
    obtain hhas | ⟨p, hp, hhas⟩ := hhas
    · exact .inl hhas
    · obtain hp | hp := List.mem_append.1 hp
      · exact .inr ⟨p, hp, hhas⟩
      · cases List.mem_singleton.1 hp
        exact .inl hhas
  | forkFailed _ | last _ _ _ =>
    obtain hhas | hhas := hhas
    · exact absurd hhas (not_open_empty _)
    · exact .inr hhas
  | closeRead _ | closeWrite _ =>
    obtain hhas | hhas := hhas
    · exact .inl (open_of_remove hhas)
    · exact .inr hhas
  | reap _ _ _ | again _ | write _ _ _ _ _ | read _ _ _ _ _ => exact hhas
  | @op j p op l fds hp hctrl ht =>
    refine has_set hp (fun ho => ?_) hhas
    obtain ⟨kid, -, hstage⟩ := h.stage j p hp
    cases hstage with
    | ops hw =>
      cases hctrl
      exact open_table (hw.1.subset List.mem_cons_self) ht ho
    | running => cases hctrl
    | exited => cases hctrl
  | exec hp _ =>
    refine has_set hp (fun ho => ?_) hhas
    exact ho
  | opFailed hp _ _ _ | execFailed hp _ _ | eof hp _ _ _ _ _ | failWrite hp _ _ _ | failRead hp _ _ _ | finish hp _ _ _ =>
    exact has_exited hp hhas

/-! ### Every step keeps it -/

theorem inv_start (g : Prog) (v : Setup) : Inv g v (start v) where
  parent := ⟨rfl, Nat.zero_lt_two⟩
  length := rfl
  stage j p hp := by cases hp
  stream := rfl
  execed h := absurd rfl h
  said h := absurd rfl h
  sent_le := Nat.zero_le _
  unsent _ := rfl
  unread _ := rfl
  cut p hp := by cases hp
  eof_exited h := by cases h
  eof h := by cases h
  ended p hp := by cases hp

/-- A child goes on. -/
theorem Inv.child (h : Inv g v s) (hp : s.procs[j]? = some p) (hlive : p.ctrl ≠ .exited) (hq : q.ctrl ≠ .exited)
    (hexeced : p.execed = true → q.execed = true)
    (hstage : Stage g v (.ofIdx j) q .running) (hhas : ∀ e, (s.set j q).Has v e → s.Has v e) : Inv g v (s.set j q) := by
  have hkeep : ∀ (i : Nat) (r : Proc), s.procs[i]? = some r → r.ctrl = .exited →
      (s.procs.set j q)[i]? = some r := by
    intro i r hr hctrl
    rw [List.getElem?_set_ne, hr]
    rintro rfl
    rw [hp] at hr
    cases hr
    exact hlive hctrl
  exact {
    parent := h.parent
    length := h.length.trans (List.length_set ..).symm
    stage := fun i r hr => by
      obtain ⟨rfl, rfl⟩ | ⟨-, hr⟩ := slot_set hr
      · obtain ⟨kid, hkid, hold⟩ := h.stage i p hp
        cases hold with
        | ops _ | running => exact ⟨.running, hkid, hstage⟩
        | exited _ => exact absurd rfl hlive
      · exact h.stage i r hr
    stream := h.stream
    execed := fun hsent => by
      obtain ⟨r, hr, hrexeced⟩ := h.execed hsent
      by_cases hj : j = 0
      · subst hj
        rw [hp] at hr
        cases hr
        exact ⟨q, List.getElem?_set_self (List.getElem?_eq_some_iff.1 hp).1, hexeced hrexeced⟩
      · exact ⟨r, (List.getElem?_set_ne hj).trans hr, hrexeced⟩
    said := fun hsaid => by
      obtain ⟨heq, r, hr, hctrl, hrexeced⟩ := h.said hsaid
      exact ⟨heq, r, hkeep 0 r hr hctrl, hctrl, hrexeced⟩
    sent_le := h.sent_le
    unsent := h.unsent
    unread := h.unread
    cut := fun r hr hctrl hexeced => by
      obtain ⟨-, rfl⟩ | ⟨-, hr⟩ := slot_set hr
      · exact absurd hctrl hq
      · exact (h.cut r hr hctrl hexeced).imp_right (Or.imp_right fun hn hhas' => hn (hhas _ hhas'))
    eof_exited := fun heof => by
      obtain ⟨r, hr, hctrl⟩ := h.eof_exited heof
      exact ⟨r, hkeep 1 r hr hctrl, hctrl⟩
    eof := fun heof hw => by
      obtain ⟨r, hr, hctrl, hgot⟩ := h.eof heof hw
      exact ⟨r, hkeep 0 r hr hctrl, hctrl, hgot⟩
    ended := fun r hr hctrl hexeced => by
      obtain ⟨-, rfl⟩ | ⟨-, hr⟩ := slot_set hr
      · exact absurd hctrl hq
      · exact h.ended r hr hctrl hexeced }

/-- A child exits; `b`: the reader has seen the end of file. -/
theorem Inv.exit {kids : Children} {b : Bool} (h : Inv g v s) (hp : s.procs[j]? = some p) (hlive : p.ctrl ≠ .exited)
    (hkids : s.kids.exit j = some kids)
    (hcut : j = 0 → p.execed = true →
      s.sent = v.out.length ∨ (g.final v .write) End.write.std = none ∨ ¬s.Has v .read)
    (hend : j = 1 → p.execed = true → b = true ∨ (g.final v .read) End.read.std = none)
    (heof : b = true → s.eof = true ∨ j = 1 ∧ (Wired g v →
      ∃ p, s.procs[0]? = some p ∧ p.ctrl = .exited ∧ (p.execed = true → s.got = v.out)))
    (hb : s.eof = true → b = true) : Inv g v { s.exited j p kids with eof := b } := by
  have hself : (s.procs.set j { p with fds := .empty, ctrl := .exited })[j]? =
      some { p with fds := .empty, ctrl := .exited } :=
    List.getElem?_set_self (List.getElem?_eq_some_iff.1 hp).1
  have hkeep : ∀ (i : Nat) (r : Proc), s.procs[i]? = some r → r.ctrl = .exited →
      (s.procs.set j { p with fds := .empty, ctrl := .exited })[i]? = some r := by
    intro i r hr hctrl
    rw [List.getElem?_set_ne, hr]
    rintro rfl
    rw [hp] at hr
    cases hr
    exact hlive hctrl
  exact {
    parent := h.parent.of_exit hkids
    length := (Children.length_exit hkids).trans (h.length.trans (List.length_set ..).symm)
    stage := fun i r hr => by
      show ∃ kid, kids.list[i]? = some kid ∧ _
      rw [getElem?_exit hkids]
      obtain ⟨rfl, rfl⟩ | ⟨hij, hr⟩ := slot_set hr
      · exact ⟨.zombie, if_pos rfl, .exited nofun⟩
      · rw [if_neg hij]
        exact h.stage i r hr
    stream := h.stream
    execed := fun hsent => by
      obtain ⟨r, hr, hexeced⟩ := h.execed hsent
      by_cases hj : j = 0
      · subst hj
        rw [hp] at hr
        cases hr
        exact ⟨_, hself, hexeced⟩
      · exact ⟨r, (List.getElem?_set_ne hj).trans hr, hexeced⟩
    said := fun hsaid => by
      obtain ⟨heq, r, hr, hctrl, hexeced⟩ := h.said hsaid
      exact ⟨heq, r, hkeep 0 r hr hctrl, hctrl, hexeced⟩
    sent_le := h.sent_le
    unsent := h.unsent
    unread := h.unread
    cut := fun r hr hctrl hexeced => by
      have hgone : ¬s.Has v .read → ¬(s.exited j p kids).Has v .read := fun hn hhas => hn (has_exited hp hhas)
      obtain ⟨hj, rfl⟩ | ⟨-, hr⟩ := slot_set hr
      · exact (hcut hj.symm hexeced).imp_right (Or.imp_right hgone)
      · exact (h.cut r hr hctrl hexeced).imp_right (Or.imp_right hgone)
    eof_exited := fun hbt => by
      obtain heof | ⟨rfl, -⟩ := heof hbt
      · obtain ⟨r, hr, hctrl⟩ := h.eof_exited heof
        exact ⟨r, hkeep 1 r hr hctrl, hctrl⟩
      · exact ⟨_, hself, rfl⟩
    eof := fun hbt hw => by
      obtain ⟨r, hr, hctrl, hgot⟩ : ∃ r, s.procs[0]? = some r ∧ r.ctrl = .exited ∧ (r.execed = true → s.got = v.out) := by
        obtain heof | ⟨-, heof⟩ := heof hbt
        · exact h.eof heof hw
        · exact heof hw
      exact ⟨r, hkeep 0 r hr hctrl, hctrl, hgot⟩
    ended := fun r hr hctrl hexeced => by
      obtain ⟨hj, rfl⟩ | ⟨-, hr⟩ := slot_set hr
      · exact hend hj.symm hexeced
      · exact (h.ended r hr hctrl hexeced).imp_left hb }

/-- The first child has not come to its command. -/
theorem Inv.sent_zero (h : Inv g v s) (hp : s.procs[0]? = some p) (hexeced : p.execed = false) : s.sent = 0 :=
  Classical.byContradiction fun hsent => by
    obtain ⟨r, hr, hrexeced⟩ := h.execed hsent
    rw [hp] at hr
    cases hr
    exact Bool.false_ne_true (hexeced.symm.trans hrexeced)

/-- The first child has not exited for its `execlp`. -/
theorem Inv.said_nil (h : Inv g v s) (hp : s.procs[0]? = some p) (hgood : p.ctrl = .exited → p.execed = true) :
    s.said = [] :=
  Classical.byContradiction fun hsaid => by
    obtain ⟨-, r, hr, hctrl, hexeced⟩ := h.said hsaid
    rw [hp] at hr
    cases hr
    exact Bool.false_ne_true (hexeced.symm.trans (hgood hctrl))

/-- Where the first child has exited for its `execlp`, nothing else has been in the pipe. -/
theorem Inv.flush (h : Inv g v s) (hp : s.procs[0]? = some p) (hctrl : p.ctrl = .exited) (hexeced : p.execed = false)
    (hsaid : s.said = []) :
    Inv g v { s with pipe := s.pipe ++ g.flushed v, said := s.said ++ g.flushed v } where
  parent := h.parent
  length := h.length
  stage := h.stage
  stream := by
    have hsent := h.sent_zero hp hexeced
    have hstream := h.stream
    rw [hsaid, hsent] at hstream
    show s.got ++ (s.pipe ++ g.flushed v) = s.said ++ g.flushed v ++ v.out.take s.sent
    rw [← List.append_assoc, hstream, hsaid, hsent]
    exact (List.append_nil _).symm
  execed := h.execed
  said _ := by
    refine ⟨?_, p, hp, hctrl, hexeced⟩
    dsimp only
    rw [hsaid, List.nil_append]
  sent_le := h.sent_le
  unsent := h.unsent
  unread := h.unread
  cut := h.cut
  eof_exited := h.eof_exited
  eof := h.eof
  ended := h.ended

/-- The descriptors of a running command. -/
theorem Inv.running (h : Inv g v s) (hp : s.procs[j]? = some p) (hctrl : p.ctrl = .running) :
    p = ⟨g.final v (.ofIdx j), .running, true⟩ ∧ s.kids.list[j]? = some .running := by
  obtain ⟨kid, hkid, hstage⟩ := h.stage j p hp
  cases hstage with
  | ops _ => cases hctrl
  | running => exact ⟨rfl, hkid⟩
  | exited _ => cases hctrl

/-- A child in front of its command. -/
theorem Inv.ops (h : Inv g v s) (hp : s.procs[j]? = some p) (hctrl : p.ctrl = .ops l) :
    Wires g v (.ofIdx j) l p.fds ∧ p.execed = false ∧ s.kids.list[j]? = some .running := by
  obtain ⟨kid, hkid, hstage⟩ := h.stage j p hp
  cases hstage with
  | ops hw =>
    cases hctrl
    exact ⟨hw, rfl, hkid⟩
  | running => cases hctrl
  | exited _ => cases hctrl

/-- **The end of file comes behind the last byte**: a writer that has not exited has the write end open. -/
theorem Inv.at_eof (h : Inv g v s) (hw : Wired g v) (hp : s.procs[1]? = some p) (hctrl : p.ctrl = .running)
    (hpipe : s.pipe = []) (hend : ¬s.Has v .write) :
    ∃ q, s.procs[0]? = some q ∧ q.ctrl = .exited ∧ (q.execed = true → s.got = v.out) := by
  obtain ⟨hlt, -⟩ := List.getElem?_eq_some_iff.1 hp
  have hq : s.procs[0]? = some s.procs[0] := List.getElem?_eq_getElem (Nat.lt_of_succ_lt hlt)
  obtain ⟨kid, hkid, hstage⟩ := h.stage 0 _ hq
  have hfree : ¬v.Open s.procs[0].fds (.pipe .write) := fun ho => hend (.inr ⟨_, List.mem_of_getElem? hq, ho⟩)
  generalize s.procs[0] = q at hq hstage hfree
  cases hstage with
  | ops hwires => exact absurd (hwires.open (open_std (hw .write))) hfree
  | running => exact absurd (open_std (hw .write)) hfree
  | exited _ =>
    refine ⟨_, hq, rfl, fun hexeced => ?_⟩
    have hsent : s.sent = v.out.length := by
      obtain hsent | hnone | hread := h.cut _ hq rfl hexeced
      · exact hsent
      · rw [hw .write] at hnone
        cases hnone
      · have hopen : v.Open p.fds (.pipe .read) := by
          rw [(h.running hp hctrl).1]
          exact open_std (hw .read)
        exact absurd (.inr ⟨p, List.mem_of_getElem? hp, hopen⟩) hread
    have hsaid := h.said_nil hq fun _ => hexeced
    have hstream := h.stream
    rwa [hpipe, List.append_nil, hsaid, List.nil_append, hsent, List.take_length] at hstream

theorem Inv.at_fork (h : Inv g v s) (hctrl : s.ctrl = .fork) : s.fds = v.fds ∧ s.procs.length < 2 := by
  have hparent := h.parent
  rw [hctrl] at hparent
  exact ⟨hparent.1, h.length ▸ hparent.2⟩

theorem Inv.fork (h : Inv g v s) (hctrl : s.ctrl = .fork) : Inv g v { s with
    kids := s.kids.fork
    procs := s.procs ++ [.forked g v s]
    ctrl := if s.procs.length + 1 < 2 then .fork else .close .read } := by
  obtain ⟨hfds, hlt⟩ := h.at_fork hctrl
  have hlen : s.kids.fork.list.length = s.procs.length + 1 := by
    rw [← h.length]
    exact List.length_append
  have hprocs : (s.procs ++ [Proc.forked g v s]).length = s.procs.length + 1 := List.length_append
  have hlive : (Proc.forked g v s).ctrl ≠ .exited := nofun
  have hback : ∀ e, State.Has v { s with
      kids := s.kids.fork
      procs := s.procs ++ [.forked g v s]
      ctrl := if s.procs.length + 1 < 2 then .fork else .close .read } e → s.Has v e :=
    fun _ hhas => h.has_of_moves (.fork hctrl) hhas
  exact {
    parent := by
      show ParentAt g v s.fds s.kids.fork _
      split
      · exact ⟨hfds, by omega⟩
      · exact ⟨hfds, by omega⟩
    length := hlen.trans hprocs.symm
    stage := fun i r hr => by
      obtain ⟨rfl, rfl⟩ | hr := slot_snoc hr
      · refine ⟨.running, ?_, ?_⟩
        · rw [← h.length]
          exact List.getElem?_concat_length
        · refine .ops ⟨List.suffix_rfl, ?_⟩
          rw [hfds]
          exact wire_ops g v _
      · obtain ⟨kid, hkid, hstage⟩ := h.stage i r hr
        exact ⟨kid, slot_append hkid, hstage⟩
    stream := h.stream
    execed := fun hsent => by
      obtain ⟨r, hr, hexeced⟩ := h.execed hsent
      exact ⟨r, slot_append hr, hexeced⟩
    said := fun hsaid => by
      obtain ⟨heq, r, hr, hrctrl, hexeced⟩ := h.said hsaid
      exact ⟨heq, r, slot_append hr, hrctrl, hexeced⟩
    sent_le := h.sent_le
    unsent := h.unsent
    unread := h.unread
    cut := fun r hr hrctrl hexeced => by
      obtain ⟨-, rfl⟩ | hr := slot_snoc hr
      · exact absurd hrctrl hlive
      · exact (h.cut r hr hrctrl hexeced).imp_right (Or.imp_right fun hn hhas => hn (hback _ hhas))
    eof_exited := fun heof => by
      obtain ⟨r, hr, hrctrl⟩ := h.eof_exited heof
      exact ⟨r, slot_append hr, hrctrl⟩
    eof := fun heof hw => by
      obtain ⟨r, hr, hrctrl, hgot⟩ := h.eof heof hw
      exact ⟨r, slot_append hr, hrctrl, hgot⟩
    ended := fun r hr hrctrl hexeced => by
      obtain ⟨-, rfl⟩ | hr := slot_snoc hr
      · exact absurd hrctrl hlive
      · exact h.ended r hr hrctrl hexeced }

/-- Only the parent has changed. -/
theorem Inv.parent_goes (h : Inv g v s) {c : ParentCtrl} {kids : Children} (hparent : ParentAt g v fds kids c)
    (hlen : kids.list.length = s.kids.list.length)
    (hkids : ∀ (i : Nat) (kid : Child), s.kids.list[i]? = some kid →
      kids.list[i]? = some kid ∨ kid ≠ .running ∧ kids.list[i]? = some .reaped)
    (hback : ∀ e, v.Open fds (.pipe e) → v.Open s.fds (.pipe e)) :
    Inv g v { s with ctrl := c, fds := fds, kids := kids } where
  parent := hparent
  length := hlen.trans h.length
  stage i r hr := by
    obtain ⟨kid, hkid, hstage⟩ := h.stage i r hr
    obtain hkid' | ⟨hne, hreaped⟩ := hkids i kid hkid
    · exact ⟨kid, hkid', hstage⟩
    · cases hstage with
      | ops _ | running => exact absurd rfl hne
      | exited _ => exact ⟨.reaped, hreaped, .exited nofun⟩
  stream := h.stream
  execed := h.execed
  said := h.said
  sent_le := h.sent_le
  unsent := h.unsent
  unread := h.unread
  cut r hr hctrl hexeced :=
    (h.cut r hr hctrl hexeced).imp_right (Or.imp_right fun hn hhas => hn (hhas.imp_left (hback _)))
  eof_exited := h.eof_exited
  eof := h.eof
  ended := h.ended

theorem Inv.write (h : Inv g v s) (hp : s.procs[0]? = some p) (hctrl : p.ctrl = .running)
    (hstd : p.fds End.write.std = some (.pipe .write)) (hle : s.sent + n ≤ v.out.length) :
    Inv g v { s with pipe := s.pipe ++ (v.out.drop s.sent).take n, sent := s.sent + n } where
  parent := h.parent
  length := h.length
  stage := h.stage
  stream := by
    show s.got ++ (s.pipe ++ (v.out.drop s.sent).take n) = s.said ++ v.out.take (s.sent + n)
    rw [← List.append_assoc, h.stream, List.append_assoc, List.take_add]
  execed _ := ⟨p, hp, congrArg Proc.execed (h.running hp hctrl).1⟩
  said := h.said
  sent_le := hle
  unsent hnone := by
    rw [(h.running hp hctrl).1] at hstd
    exact absurd (hnone.symm.trans hstd) nofun
  unread := h.unread
  cut r hr hrctrl := by
    rw [hp] at hr
    cases hr
    rw [hctrl] at hrctrl
    cases hrctrl
  eof_exited := h.eof_exited
  eof := h.eof
  ended := h.ended

theorem Inv.read (h : Inv g v s) (hp : s.procs[1]? = some p) (hctrl : p.ctrl = .running)
    (hstd : p.fds End.read.std = some (.pipe .read)) :
    Inv g v { s with got := s.got ++ s.pipe.take n, pipe := s.pipe.drop n } where
  parent := h.parent
  length := h.length
  stage := h.stage
  stream := by
    show s.got ++ s.pipe.take n ++ s.pipe.drop n = s.said ++ v.out.take s.sent
    rw [List.append_assoc, List.take_append_drop, h.stream]
  execed := h.execed
  said := h.said
  sent_le := h.sent_le
  unsent := h.unsent
  unread hnone := by
    rw [(h.running hp hctrl).1] at hstd
    exact absurd (hnone.symm.trans hstd) nofun
  cut := h.cut
  eof_exited := h.eof_exited
  eof heof := by
    obtain ⟨r, hr, hrctrl⟩ := h.eof_exited heof
    rw [hp] at hr
    cases hr
    rw [hctrl] at hrctrl
    cases hrctrl
  ended := h.ended

/-- A child whose `execlp` has failed puts something into the pipe only if it is the first one. -/
theorem Inv.flush_cases (h : Inv g v s) (hp : s.procs[j]? = some p) (hctrl : p.ctrl = .ops []) :
    s.flush g v j p.fds "execlp error" = s ∨ j = 0 ∧ s.said = [] ∧ s.flush g v j p.fds "execlp error" =
      { s with pipe := s.pipe ++ g.flushed v, said := s.said ++ g.flushed v } := by
  have hfds : p.fds = g.final v (.ofIdx j) := Option.some.inj (h.ops hp hctrl).1.2
  have hnone : ({ s with pipe := s.pipe ++ [], said := s.said ++ [] } : State) = s := by
    simp only [List.append_nil]
  cases j with
  | zero =>
    have hsaid := h.said_nil hp fun hexited => by
      rw [hctrl] at hexited
      cases hexited
    unfold State.flush
    rw [hfds]
    split
    · exact .inr ⟨rfl, hsaid, rfl⟩
    · exact .inl hnone
  | succ j =>
    have hspill : g.spill v (j + 1) p.fds "execlp error" = [] := hfds ▸ spill_read g v (j + 1) "execlp error"
    refine .inl ?_
    unfold State.flush
    rw [hspill, ite_self]
    exact hnone

theorem Inv.execFailed {kids : Children} (h : Inv g v s) (hp : s.procs[j]? = some p) (hctrl : p.ctrl = .ops [])
    (hkids : s.kids.exit j = some kids) : Inv g v ((s.flush g v j p.fds "execlp error").exited j p kids) := by
  have hexeced := (h.ops hp hctrl).2.1
  have hnot : p.execed ≠ true := by
    rw [hexeced]
    exact nofun
  have hexit : Inv g v (s.exited j p kids) :=
    h.exit hp (by rw [hctrl]; exact nofun) hkids (fun _ he => absurd he hnot) (fun _ he => absurd he hnot) .inl id
  obtain hsame | ⟨rfl, hsaid, hflush⟩ := h.flush_cases hp hctrl
  · rw [hsame]
    exact hexit
  · rw [hflush]
    exact hexit.flush (List.getElem?_set_self (List.getElem?_eq_some_iff.1 hp).1) rfl hexeced hsaid

theorem inv_step (h : Inv g v s) (hs : step g v s a = some t) : Inv g v t := by
  have hm := step_moves hs
  have hback : ∀ e, t.Has v e → s.Has v e := fun _ => h.has_of_moves hm
  have hparent := h.parent
  have hsame : ∀ (i : Nat) (kid : Child), s.kids.list[i]? = some kid →
      s.kids.list[i]? = some kid ∨ kid ≠ .running ∧ s.kids.list[i]? = some .reaped := fun _ _ hkid => .inl hkid
  cases hm with
  | fork hctrl => exact h.fork hctrl
  | forkFailed hctrl =>
    obtain ⟨-, hlt⟩ := h.at_fork hctrl
    rw [← h.length] at hlt
    exact h.parent_goes ⟨fun _ => not_open_empty _, .inr ⟨rfl, hlt⟩⟩ rfl hsame fun e ho =>
      absurd ho (not_open_empty _)
  | closeRead hctrl =>
    rw [hctrl] at hparent
    exact h.parent_goes (c := .close .write) ⟨by rw [hparent.1], hparent.2⟩ rfl hsame fun e => open_of_remove
  | closeWrite hctrl =>
    rw [hctrl] at hparent
    refine h.parent_goes (c := .wait) ⟨hparent.2, fun e => ?_⟩ rfl hsame fun e => open_of_remove
    rw [hparent.1]
    exact not_open_closed v e
  | @reap kids j hctrl hkids =>
    rw [hctrl] at hparent
    have hlen := Children.length_pid hkids
    obtain ⟨hj, rfl⟩ := Children.waitpid_pid.1 hkids
    have hgoes := h.parent_goes (c := .wait) ⟨hlen.trans hparent.1, hparent.2⟩ hlen
      (fun i kid hkid => ?_) fun _ ho => ho
    · rwa [← hctrl] at hgoes
    · by_cases hij : i = j
      · rw [hij, hj] at hkid
        cases hkid
        rw [hij]
        exact .inr ⟨nofun, List.getElem?_set_self (List.getElem?_eq_some_iff.1 hj).1⟩
      · exact .inl ((List.getElem?_set_ne (Ne.symm hij)).trans hkid)
  | again _ => exact h
  | last hctrl hz hrun =>
    rw [hctrl] at hparent
    have hlast : ParentAt g v .empty s.kids g.last := by
      cases g <;> exact ⟨fun _ => not_open_empty _, .inl ⟨rfl, hparent.1, hz, hrun⟩⟩
    exact h.parent_goes hlast rfl hsame fun e ho => absurd ho (not_open_empty _)
  | @op j p op l fds hp hctrl ht =>
    obtain ⟨hwires, hexeced, -⟩ := h.ops hp hctrl
    obtain ⟨fds', ht', hnext⟩ := hwires.next
    rw [ht] at ht'
    cases ht'
    refine h.child hp (by rw [hctrl]; exact nofun) nofun id ?_ hback
    rw [hexeced]
    exact .ops hnext
  | opFailed hp hctrl ht _ =>
    obtain ⟨fds', ht', -⟩ := (h.ops hp hctrl).1.next
    rw [ht] at ht'
    cases ht'
  | @exec j p hp hctrl =>
    obtain ⟨hwires, -, -⟩ := h.ops hp hctrl
    have hfds : p.fds = g.final v (.ofIdx j) := Option.some.inj hwires.2
    refine h.child hp (by rw [hctrl]; exact nofun) nofun (fun _ => rfl) ?_ hback
    rw [hfds]
    exact .running
  | @execFailed j p kids hp hctrl hkids => exact h.execFailed hp hctrl hkids
  | write hp hctrl hstd _ hle => exact h.write hp hctrl hstd hle
  | read hp hctrl hstd _ _ => exact h.read hp hctrl hstd
  | eof hp hctrl hstd hpipe hend hkids =>
    exact h.exit (b := true) hp (by rw [hctrl]; exact nofun) hkids nofun (fun _ _ => .inl rfl)
      (fun _ => .inr ⟨rfl, fun hw => h.at_eof hw hp hctrl hpipe hend⟩) fun _ => rfl
  | failWrite hp hctrl hstd hkids =>
    refine h.exit hp (by rw [hctrl]; exact nofun) hkids (fun _ _ => ?_) nofun .inl id
    rw [(h.running hp hctrl).1] at hstd
    exact .inr hstd
  | failRead hp hctrl hstd hkids =>
    refine h.exit hp (by rw [hctrl]; exact nofun) hkids nofun (fun _ _ => ?_) .inl id
    rw [(h.running hp hctrl).1] at hstd
    exact .inr hstd
  | finish hp hctrl hsent hkids =>
    exact h.exit hp (by rw [hctrl]; exact nofun) hkids (fun _ _ => .inl hsent) nofun .inl id

theorem inv_run {as : List Act} (hr : Steps.run (step g v) (start v) as = some s) : Inv g v s :=
  Steps.run_inv (fun _ _ _ h hs => inv_step h hs) (inv_start g v) hr

end SystemFunc.Pipeline
