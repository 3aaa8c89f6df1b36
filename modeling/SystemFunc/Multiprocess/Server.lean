import SystemFunc.Lib.Children
import SystemFunc.Lib.Components
import SystemFunc.Lib.Entries
import SystemFunc.Lib.Progress
import SystemFunc.Lib.Slots
import SystemFunc.LineServer.Echo

/-!
# `internet/echo_server_multiprocess.c`

`main` accepts a connection, forks and closes its descriptor `cfd`. The child closes the listening socket, sends the lines
of the connection back (`LineServer.Echo`) and exits. The handler of `SIGCHLD` calls `waitpid` until no child has
exited. A call of `accept` may return any descriptor that is not in use, and a child may be killed everywhere.

- `inv_run`: what is open in `main` and in each child;
- `serves`: a connection is open in the process of its own child only, which sends back what the connection has sent;
  no child stays a zombie.
-/

namespace SystemFunc.Multiprocess

open Children (Covered)
open Components (Moved)
open LineServer (Echo EchoAct EchoSpec Fits)
open Slots (slot_set slot_snoc)

/-- What a descriptor refers to: what `main` was started with, the listening socket or a connection. -/
inductive File where
  | inherited
  | listen
  | conn (k : Nat)
  deriving DecidableEq

/-- The listening socket, the descriptors in use before it, and what the clients send. -/
structure Setup where
  fd : Nat
  inherited : Nat → Bool
  stream : Nat → List UInt8

/-- The descriptors of `main` before the loop. -/
def Setup.fds (v : Setup) : Entries File := fun n =>
  if n = v.fd then some .listen else if v.inherited n then some .inherited else none

/-- `main` in `Accept`, in `fork`, in `close(cfd)`, or at an error exit. -/
inductive MainCtrl where
  | accept
  | fork (cfd : Nat)
  | close (cfd : Nat)
  | exited (headStr : String)
  deriving DecidableEq

/-- A child; `closed`: it has closed the listening socket. -/
structure Proc where
  fds : Entries File
  cfd : Nat
  closed : Bool
  echo : Echo

/-- `conns` is the number of connections that have been accepted; `handling`: the handler runs. -/
structure State where
  ctrl : MainCtrl
  fds : Entries File
  conns : Nat
  handling : Bool
  kids : Children
  procs : List Proc

inductive Act where
  | accept (cfd : Nat)
  | acceptFailed
  | fork
  | forkFailed
  | close
  | signal
  | wait (w : Waited)
  | childClose (j : Nat)
  | child (j : Nat) (a : EchoAct)
  | exit (j : Nat)

def start (v : Setup) : State where
  ctrl := .accept
  fds := v.fds
  conns := 0
  handling := false
  kids := .empty
  procs := []

/-- `PrintError` in `main`. -/
def State.die (s : State) (headStr : String) : State := { s with ctrl := .exited headStr, fds := .empty }

/-- What is read from a descriptor. -/
def Setup.input (v : Setup) : Option File → List UInt8
  | some (.conn k) => v.stream k
  | _ => []

/-- A copy of `main`; nothing has been written to `buf`. -/
def Proc.forked (v : Setup) (fds : Entries File) (cfd : Nat) : Proc where
  fds := fds
  cfd := cfd
  closed := false
  echo := .start (fun _ => 0) (v.input (fds cfd))

/-- Child `j` runs `f`. -/
def State.proc (s : State) (j : Nat) (f : Proc → Option Proc) : Option State :=
  if s.kids.list[j]? = some .running then
    s.procs[j]?.bind fun p => (f p).map fun q => { s with procs := s.procs.set j q }
  else none

def step (v : Setup) (s : State) : Act → Option State
  | .accept cfd =>
    if s.handling = false ∧ s.ctrl = .accept ∧ s.fds cfd = none then
      some { s with ctrl := .fork cfd, fds := s.fds.add cfd (.conn s.conns), conns := s.conns + 1 }
    else none
  | .acceptFailed =>
    if s.handling = false ∧ s.ctrl = .accept then some (s.die "call accept failed") else none
  | .fork =>
    match s.handling, s.ctrl with
    | false, .fork cfd =>
      some { s with ctrl := .close cfd, kids := s.kids.fork, procs := s.procs ++ [.forked v s.fds cfd] }
    | _, _ => none
  | .forkFailed =>
    match s.handling, s.ctrl with
    | false, .fork _ => some (s.die "fork error")
    | _, _ => none
  | .close =>
    match s.handling, s.ctrl with
    | false, .close cfd => some { s with ctrl := .accept, fds := s.fds.remove cfd }
    | _, _ => none
  | .signal =>
    if s.handling = false ∧ s.kids.sigchld then some { s with kids := s.kids.deliver, handling := true } else none
  | .wait w =>
    if s.handling then
      (s.kids.waitpid w).map fun kids =>
        match w with
        | .pid _ => { s with kids := kids }
        | .again | .echild => { s with kids := kids, handling := false }
    else none
  | .childClose j =>
    s.proc j fun p => if p.closed then none else some { p with fds := p.fds.remove v.fd, closed := true }
  | .child j a =>
    s.proc j fun p => if p.closed then (p.echo.step a).map fun e => { p with echo := e } else none
  | .exit j =>
    (s.kids.exit j).bind fun kids =>
      s.procs[j]?.map fun p => { s with kids := kids, procs := s.procs.set j { p with fds := .empty } }

variable {v : Setup} {s t : State} {a : Act} {as : List Act} {j : Nat} {p : Proc}

/-! ## What each process has open -/

theorem Setup.not_has_conn (v : Setup) (k : Nat) : ¬v.fds.Has (.conn k) := by
  rintro ⟨n, hn⟩
  unfold Setup.fds at hn
  split at hn
  · cases hn
  · split at hn <;> cases hn

/-- `main`, which has a connection open between `Accept` and `close(cfd)`. -/
inductive MainInv (v : Setup) (s : State) : Prop
  | accept (hctrl : s.ctrl = .accept) (hfds : s.fds = v.fds) (hconns : s.conns = s.procs.length)
  | fork {cfd : Nat} (hctrl : s.ctrl = .fork cfd) (hfree : v.fds cfd = none)
      (hfds : s.fds = v.fds.add cfd (.conn s.procs.length)) (hconns : s.conns = s.procs.length + 1)
  | close {cfd k : Nat} (hctrl : s.ctrl = .close cfd) (hfree : v.fds cfd = none) (hk : s.procs.length = k + 1)
      (hfds : s.fds = v.fds.add cfd (.conn k)) (hconns : s.conns = s.procs.length)
  | exited {headStr : String} (hctrl : s.ctrl = .exited headStr) (hfds : s.fds = .empty)

/-- Child `j`, whose state is `c`. -/
inductive ProcInv (v : Setup) (j : Nat) (p : Proc) : Child → Prop
  | running (hfree : v.fds p.cfd = none)
      (hfds : p.fds = if p.closed then (v.fds.add p.cfd (.conn j)).remove v.fd else v.fds.add p.cfd (.conn j)) :
      ProcInv v j p .running
  | zombie (hfds : p.fds = .empty) : ProcInv v j p .zombie
  | reaped (hfds : p.fds = .empty) : ProcInv v j p .reaped

structure Inv (v : Setup) (s : State) : Prop where
  length : s.kids.list.length = s.procs.length
  main : MainInv v s
  proc : ∀ j p c, s.procs[j]? = some p → s.kids.list[j]? = some c → ProcInv v j p c
  covered : s.handling = false → s.kids.Covered 0

theorem MainInv.congr (h : MainInv v s) (hctrl : t.ctrl = s.ctrl) (hfds : t.fds = s.fds) (hconns : t.conns = s.conns)
    (hlen : t.procs.length = s.procs.length) : MainInv v t := by
  cases h with
  | accept hc hf hn => exact .accept (hctrl.trans hc) (hfds.trans hf) (by rw [hconns, hn, hlen])
  | fork hc hfree hf hn =>
    exact .fork (hctrl.trans hc) hfree (by rw [hfds, hf, hlen]) (by rw [hconns, hn, hlen])
  | close hc hfree hk hf hn =>
    exact .close (hctrl.trans hc) hfree (hlen.trans hk) (hfds.trans hf) (by rw [hconns, hn, hlen])
  | exited hc hf => exact .exited (hctrl.trans hc) (hfds.trans hf)

theorem inv_start (v : Setup) : Inv v (start v) where
  length := rfl
  main := .accept rfl rfl rfl
  proc := fun _ _ _ hp => nomatch hp
  covered := fun _ => .inr (Nat.le_refl 0)

theorem proc_eq_some {f : Proc → Option Proc} : s.proc j f = some t ↔ s.kids.list[j]? = some .running ∧
    ∃ p q, s.procs[j]? = some p ∧ f p = some q ∧ t = { s with procs := s.procs.set j q } := by
  simp only [State.proc, Option.ite_none_right_eq_some, Option.bind_eq_some_iff, Option.map_eq_some_iff]
  constructor
  · rintro ⟨hj, p, hp, q, hq, rfl⟩
    exact ⟨hj, p, q, hp, hq, rfl⟩
  · rintro ⟨hj, p, q, hp, hq, rfl⟩
    exact ⟨hj, p, hp, q, hq, rfl⟩

namespace Inv

variable (h : Inv v s)
include h

/-- `main` moves, the children do not. -/
theorem of_main (hkids : t.kids = s.kids) (hprocs : t.procs = s.procs) (hhandling : t.handling = s.handling)
    (hmain : MainInv v t) : Inv v t where
  length := by rw [hkids, hprocs, h.length]
  main := hmain
  proc := by
    rw [hkids, hprocs]
    exact h.proc
  covered := by
    rw [hkids, hhandling]
    exact h.covered

/-- Child `j` moves, and becomes `c`. -/
theorem set_proc {kids : Children} {c : Child} (hlist : ∀ i, i ≠ j → kids.list[i]? = s.kids.list[i]?)
    (hlength : kids.list.length = s.kids.list.length) (hj : kids.list[j]? = some c) (hp : ProcInv v j p c)
    (hcov : s.handling = false → kids.Covered 0) :
    Inv v { s with kids := kids, procs := s.procs.set j p } where
  length := by
    show kids.list.length = (s.procs.set j p).length
    rw [hlength, h.length, List.length_set]
  main := h.main.congr rfl rfl rfl (List.length_set ..)
  proc := by
    intro i q d hq hd
    obtain ⟨rfl, rfl⟩ | ⟨hij, hq⟩ := slot_set hq
    · rw [← Option.some.inj (hj.symm.trans hd)]
      exact hp
    · rw [show ({ s with kids := kids, procs := s.procs.set j p } : State).kids.list[i]? = _ from hlist i hij] at hd
      exact h.proc i q d hq hd
  covered := hcov

theorem run_proc {f : Proc → Option Proc} (hs : s.proc j f = some t)
    (hf : ∀ p q, f p = some q → ProcInv v j p .running → ProcInv v j q .running) : Inv v t := by
  obtain ⟨hj, p, q, hp, hq, rfl⟩ := proc_eq_some.1 hs
  exact h.set_proc (fun _ _ => rfl) rfl hj (hf p q hq (h.proc j p _ hp hj)) h.covered

theorem exit (hs : step v s (.exit j) = some t) : Inv v t := by
  obtain ⟨kids, hkids, ht⟩ := Option.bind_eq_some_iff.1 hs
  obtain ⟨p, hp, rfl⟩ := Option.map_eq_some_iff.1 ht
  obtain ⟨hj, rfl⟩ := Children.exit_eq_some.1 hkids
  refine h.set_proc (fun i hi => List.getElem?_set_ne (Ne.symm hi)) (List.length_set ..) ?_ (.zombie rfl)
    fun _ => Children.covered_exit hkids 0
  exact List.getElem?_set_self (List.getElem?_eq_some_iff.1 hj).1

theorem wait {w : Waited} (hs : step v s (.wait w) = some t) : Inv v t := by
  obtain ⟨hhandling, ht⟩ := Option.ite_none_right_eq_some.1 hs
  obtain ⟨kids, hkids, rfl⟩ := Option.map_eq_some_iff.1 ht
  cases w with
  | pid j =>
    obtain ⟨hj, rfl⟩ := Children.waitpid_pid.1 hkids
    have hlt : j < s.procs.length := h.length ▸ (List.getElem?_eq_some_iff.1 hj).1
    have hp : s.procs[j]? = some s.procs[j] := List.getElem?_eq_getElem hlt
    refine ⟨?_, h.main.congr rfl rfl rfl rfl, fun i q d hq hd => ?_, fun hno => ?_⟩
    · show (s.kids.list.set j .reaped).length = s.procs.length
      rw [List.length_set, h.length]
    · obtain ⟨rfl, rfl⟩ | ⟨-, hd⟩ := slot_set (show (s.kids.list.set j .reaped)[i]? = some d from hd)
      · cases h.proc i q _ hq hj with
        | zombie hfds => exact .reaped hfds
      · exact h.proc i q d hq hd
    · rw [hhandling] at hno
      cases hno
  | again =>
    have hcov := Children.covered_of_none hkids rfl 0
    obtain ⟨rfl, -⟩ := Children.waitpid_none hkids rfl
    exact ⟨h.length, h.main.congr rfl rfl rfl rfl, h.proc, fun _ => hcov⟩
  | echild =>
    have hcov := Children.covered_of_none hkids rfl 0
    obtain ⟨rfl, -⟩ := Children.waitpid_none hkids rfl
    exact ⟨h.length, h.main.congr rfl rfl rfl rfl, h.proc, fun _ => hcov⟩

theorem accept {cfd : Nat} (hs : step v s (.accept cfd) = some t) : Inv v t := by
  obtain ⟨⟨-, hctrl, hfree⟩, ht⟩ := Option.ite_none_right_eq_some.1 hs
  cases ht
  cases h.main with
  | accept _ hfds hconns =>
    rw [hfds] at hfree
    refine h.of_main rfl rfl rfl (.fork rfl hfree ?_ ?_)
    · show s.fds.add cfd _ = _
      rw [hfds, hconns]
    · show s.conns + 1 = _
      rw [hconns]
  | fork hc | close hc | exited hc =>
    rw [hc] at hctrl
    cases hctrl

theorem fork (hs : step v s .fork = some t) : Inv v t := by
  unfold Multiprocess.step at hs
  dsimp only at hs
  split at hs
  · rename_i cfd hhandling hctrl
    cases hs
    cases h.main with
    | fork hc hfree hfds hconns =>
      cases hc.symm.trans hctrl
      refine ⟨?_, .close rfl hfree ?_ hfds ?_, fun i q d hq hd => ?_, fun _ => (h.covered hhandling).fork⟩
      · simp only [Children.fork, List.length_append, List.length_singleton, h.length]
      · exact List.length_append
      · show s.conns = (s.procs ++ [_]).length
        rw [hconns, List.length_append, List.length_singleton]
      · have hq' : (s.procs ++ [Proc.forked v s.fds cfd])[i]? = some q := hq
        have hd' : (s.kids.list ++ [Child.running])[i]? = some d := hd
        obtain ⟨hi, rfl⟩ | hq' := slot_snoc hq'
        · rw [hi, ← h.length, List.getElem?_concat_length] at hd'
          cases hd'
          exact .running hfree (by rw [hi]; exact hfds)
        · have hlt := (List.getElem?_eq_some_iff.1 hq').1
          rw [List.getElem?_append_left (h.length ▸ hlt)] at hd'
          exact h.proc i q d hq' hd'
    | accept hc | close hc | exited hc =>
      rw [hc] at hctrl
      cases hctrl
  · cases hs

theorem close (hs : step v s .close = some t) : Inv v t := by
  unfold Multiprocess.step at hs
  dsimp only at hs
  split at hs
  · rename_i cfd _ hctrl
    cases hs
    cases h.main with
    | close hc hfree _ hfds hconns =>
      cases hc.symm.trans hctrl
      refine h.of_main rfl rfl rfl (.accept rfl ?_ hconns)
      show s.fds.remove cfd = _
      rw [hfds, Entries.remove_add hfree]
    | accept hc | fork hc | exited hc =>
      rw [hc] at hctrl
      cases hctrl
  · cases hs

theorem step (hs : step v s a = some t) : Inv v t := by
  cases a with
  | accept cfd => exact h.accept hs
  | acceptFailed =>
    obtain ⟨-, ht⟩ := Option.ite_none_right_eq_some.1 hs
    cases ht
    exact h.of_main rfl rfl rfl (.exited rfl rfl)
  | fork => exact h.fork hs
  | forkFailed =>
    unfold Multiprocess.step at hs
    dsimp only at hs
    split at hs
    · cases hs
      exact h.of_main rfl rfl rfl (.exited rfl rfl)
    · cases hs
  | close => exact h.close hs
  | signal =>
    obtain ⟨-, ht⟩ := Option.ite_none_right_eq_some.1 hs
    cases ht
    exact ⟨h.length, h.main.congr rfl rfl rfl rfl, h.proc, fun hno => nomatch hno⟩
  | wait w => exact h.wait hs
  | childClose j =>
    refine h.run_proc hs fun p q hq hp => ?_
    obtain ⟨hclosed, ht⟩ := Option.ite_none_left_eq_some.1 hq
    cases ht
    cases hp with
    | running hfree hfds =>
      rw [if_neg hclosed] at hfds
      exact .running hfree (by rw [hfds]; rfl)
  | child j a =>
    refine h.run_proc hs fun p q hq hp => ?_
    obtain ⟨-, ht⟩ := Option.ite_none_right_eq_some.1 hq
    obtain ⟨e, -, rfl⟩ := Option.map_eq_some_iff.1 ht
    cases hp with
    | running hfree hfds => exact .running hfree hfds
  | exit j => exact h.exit hs

end Inv

theorem inv_run (hr : Steps.run (step v) (start v) as = some s) : Inv v s :=
  Steps.run_inv (P := Inv v) (fun _ _ _ h hs => h.step hs) (inv_start v) hr

/-! ## What the children send back -/

/-- The actions of child `j` behind `close(fd)`. -/
def childActs (j : Nat) (as : List Act) : List EchoAct :=
  as.filterMap fun
    | .child i e => if i = j then some e else none
    | _ => none

def State.echos (s : State) : List Echo := s.procs.map Proc.echo

/-- Which child acts. -/
def Act.who : Act → Option (Nat × EchoAct)
  | .child j e => some (j, e)
  | _ => none

theorem childActs_eq (j : Nat) (as : List Act) : childActs j as = Components.actsOf Act.who j as := by
  refine List.filterMap_congr fun a _ => ?_
  cases a <;> rfl

theorem set_echo {q : Proc} (hp : s.procs[j]? = some p) (hq : q.echo = p.echo) :
    (s.procs.set j q).map Proc.echo = s.echos := by
  refine List.ext_getElem? fun i => ?_
  rw [State.echos, List.getElem?_map, List.getElem?_map]
  by_cases hij : i = j
  · subst hij
    rw [List.getElem?_set_self (List.getElem?_eq_some_iff.1 hp).1, hp, Option.map_some, Option.map_some, hq]
  · rw [List.getElem?_set_ne (Ne.symm hij)]

/-- The loops of the children are components of the server. -/
theorem echo_moved (h : Inv v s) (hs : step v s a = some t) :
    Moved Echo.step (fun j => .start (fun _ => 0) (v.stream j)) s.echos a.who t.echos := by
  cases a with
  | accept cfd | acceptFailed =>
    obtain ⟨-, ht⟩ := Option.ite_none_right_eq_some.1 hs
    cases ht
    exact .stay
  | fork =>
    unfold step at hs
    dsimp only at hs
    split at hs
    · rename_i cfd _ hctrl
      cases hs
      cases h.main with
      | fork hc hfree hfds hconns =>
        cases hc.symm.trans hctrl
        have hecho : (Proc.forked v s.fds cfd).echo = .start (fun _ => 0) (v.stream s.echos.length) := by
          rw [Proc.forked, hfds, Entries.add_self, State.echos, List.length_map]
          rfl
        have hechos : (s.procs ++ [Proc.forked v s.fds cfd]).map Proc.echo =
            s.echos ++ [.start (fun _ => 0) (v.stream s.echos.length)] := by
          rw [List.map_append, List.map_singleton, hecho]
          rfl
        show Moved _ _ s.echos none ((s.procs ++ [Proc.forked v s.fds cfd]).map Proc.echo)
        rw [hechos]
        exact .new
      | accept hc | close hc | exited hc =>
        rw [hc] at hctrl
        cases hctrl
    · cases hs
  | forkFailed | close =>
    unfold step at hs
    dsimp only at hs
    split at hs
    · cases hs
      exact .stay
    · cases hs
  | signal =>
    obtain ⟨-, ht⟩ := Option.ite_none_right_eq_some.1 hs
    cases ht
    exact .stay
  | wait w =>
    obtain ⟨-, ht⟩ := Option.ite_none_right_eq_some.1 hs
    obtain ⟨kids, -, rfl⟩ := Option.map_eq_some_iff.1 ht
    cases w <;> exact .stay
  | childClose j =>
    obtain ⟨-, p, q, hp, hq, rfl⟩ := proc_eq_some.1 hs
    obtain ⟨-, ht⟩ := Option.ite_none_left_eq_some.1 hq
    cases ht
    have hecho : ({ p with fds := p.fds.remove v.fd, closed := true } : Proc).echo = p.echo := rfl
    show Moved _ _ s.echos none ((s.procs.set j { p with fds := p.fds.remove v.fd, closed := true }).map Proc.echo)
    rw [set_echo hp hecho]
    exact .stay
  | child j e =>
    obtain ⟨-, p, q, hp, hq, rfl⟩ := proc_eq_some.1 hs
    obtain ⟨-, ht⟩ := Option.ite_none_right_eq_some.1 hq
    obtain ⟨e', he', rfl⟩ := Option.map_eq_some_iff.1 ht
    have hset : (s.procs.set j { p with echo := e' }).map Proc.echo = s.echos.set j e' := List.map_set
    show Moved _ _ s.echos (some (j, e)) ((s.procs.set j { p with echo := e' }).map Proc.echo)
    rw [hset]
    exact .act (by rw [State.echos, List.getElem?_map, hp]; rfl) he'
  | exit j =>
    obtain ⟨kids, -, ht⟩ := Option.bind_eq_some_iff.1 hs
    obtain ⟨p, hp, rfl⟩ := Option.map_eq_some_iff.1 ht
    have hecho : ({ p with fds := .empty } : Proc).echo = p.echo := rfl
    show Moved _ _ s.echos none ((s.procs.set j { p with fds := .empty }).map Proc.echo)
    rw [set_echo hp hecho]
    exact .stay

/-- Each child runs by itself, from the descriptor that `main` has given to it. -/
theorem echo_run (hr : Steps.run (step v) (start v) as = some s) {e : Echo} (he : s.echos[j]? = some e) :
    Steps.run Echo.step (.start (fun _ => 0) (v.stream j)) (childActs j as) = some e := by
  have hrun := (Components.run_component (fun _ _ _ h hs => h.step hs) (fun _ _ _ h hs => echo_moved h hs)
    (inv_start v) rfl hr).2 j e he
  rwa [childActs_eq]

/-! ## The calls of `waitpid` -/

def Act.isWait : Act → Bool
  | .wait _ => true
  | _ => false

def Act.isFork : Act → Bool
  | .fork => true
  | _ => false

/-- What the handler may still do for the children: one call for each, and one for each time that it is called. -/
def State.budget (s : State) : Nat :=
  2 * s.kids.running + s.kids.zombies + s.kids.sigchld.toNat + s.handling.toNat

theorem budget_step (hs : step v s a = some t) : t.budget + a.isWait.toNat ≤ s.budget + 2 * a.isFork.toNat := by
  cases a with
  | accept cfd | acceptFailed =>
    obtain ⟨-, ht⟩ := Option.ite_none_right_eq_some.1 hs
    cases ht
    exact Nat.le_refl _
  | fork =>
    unfold step at hs
    dsimp only at hs
    split at hs
    · cases hs
      simp [State.budget, Children.fork, Children.running, Children.zombies, List.count_append, Act.isWait, Act.isFork]
      omega
    · cases hs
  | forkFailed | close =>
    unfold step at hs
    dsimp only at hs
    split at hs
    · cases hs
      exact Nat.le_refl _
    · cases hs
  | signal =>
    obtain ⟨⟨hhandling, hsig⟩, ht⟩ := Option.ite_none_right_eq_some.1 hs
    cases ht
    simp [State.budget, Children.deliver, Children.running, Children.zombies, Act.isWait, Act.isFork, hhandling, hsig]
  | wait w =>
    obtain ⟨hhandling, ht⟩ := Option.ite_none_right_eq_some.1 hs
    obtain ⟨kids, hkids, rfl⟩ := Option.map_eq_some_iff.1 ht
    cases w with
    | pid j =>
      have hz := Children.zombies_pid hkids
      simp only [State.budget, Children.running_pid hkids, Children.sigchld_pid hkids, Act.isWait, Act.isFork,
        Bool.toNat_true, Bool.toNat_false]
      omega
    | again | echild =>
      obtain ⟨rfl, -⟩ := Children.waitpid_none hkids rfl
      simp [State.budget, Act.isWait, Act.isFork, hhandling]
  | childClose j | child j e =>
    obtain ⟨-, p, q, -, -, rfl⟩ := proc_eq_some.1 hs
    exact Nat.le_refl _
  | exit j =>
    obtain ⟨kids, hkids, ht⟩ := Option.bind_eq_some_iff.1 hs
    obtain ⟨p, hp, rfl⟩ := Option.map_eq_some_iff.1 ht
    have hr := Children.running_exit hkids
    have hz := Children.zombies_exit hkids
    simp only [State.budget, Children.sigchld_exit hkids, Act.isWait, Act.isFork, Bool.toNat_true, Bool.toNat_false]
    omega

theorem wait_le (hr : Steps.run (step v) (start v) as = some s) :
    as.countP Act.isWait ≤ 2 * as.countP Act.isFork := by
  have hle := Steps.run_countP_le_mul (I := fun _ => True) (c := Act.isWait) (d := Act.isFork)
    (fun _ _ _ _ _ => trivial) (fun _ _ _ _ hs => budget_step hs) trivial hr
  have hstart : (start v).budget = 0 := rfl
  omega

/-! ## The server -/

/-- A process has connection `k` open. -/
def State.Open (s : State) (k : Nat) : Prop := s.fds.Has (.conn k) ∨ ∃ p ∈ s.procs, p.fds.Has (.conn k)

structure Served (v : Setup) (as : List Act) (s : State) : Prop where
  main : s.ctrl = .accept → s.fds = v.fds
  child : ∀ (j : Nat) (p : Proc) (k : Nat), s.procs[j]? = some p → (p.fds.Has (.conn k) ↔ k = j ∧ s.kids.list[j]? = some .running)
  socket : ∀ (j : Nat) (p : Proc), s.procs[j]? = some p → s.kids.list[j]? = some .running → p.fds p.cfd = some (.conn j)
  listen : ∀ (j : Nat) (p : Proc), s.procs[j]? = some p → p.closed = true → ¬p.fds.Has .listen
  echo : ∀ (j : Nat) (p : Proc), s.procs[j]? = some p → Fits (v.stream j) → EchoAct.write (.cnt 0) ∉ childActs j as →
    EchoSpec (v.stream j) (childActs j as) p.echo
  zombies : s.handling = false → s.kids.sigchld = false → s.kids.zombies = 0
  handler : s.handling = true → ∃ w, (step v s (.wait w)).isSome
  waits : as.countP Act.isWait ≤ 2 * as.countP Act.isFork

theorem ProcInv.has_conn {c : Child} {k : Nat} (h : ProcInv v j p c) :
    p.fds.Has (.conn k) ↔ k = j ∧ c = .running := by
  cases h with
  | running hfree hfds =>
    have hadd : (v.fds.add p.cfd (.conn j)).Has (.conn k) ↔ k = j := by
      rw [Entries.has_add hfree, or_iff_left (v.not_has_conn k), File.conn.injEq]
    rw [hfds, and_iff_left rfl, ← hadd]
    split
    · refine ⟨Entries.Has.of_remove, fun ⟨n, hn⟩ => Entries.has_remove.2 ⟨n, ?_, hn⟩⟩
      rintro rfl
      by_cases hne : v.fd = p.cfd
      · rw [← hne] at hfree
        simp [Setup.fds] at hfree
      · rw [Entries.add_of_ne hne] at hn
        simp [Setup.fds] at hn
    · exact Iff.rfl
  | zombie hfds | reaped hfds =>
    rw [hfds]
    exact ⟨fun hhas => absurd hhas (Entries.not_has_empty _), fun hc => nomatch hc.2⟩

theorem ProcInv.socket (h : ProcInv v j p .running) : p.fds p.cfd = some (.conn j) := by
  cases h with
  | running hfree hfds =>
    rw [hfds]
    split
    · have hne : p.cfd ≠ v.fd := by
        intro he
        rw [he] at hfree
        simp [Setup.fds] at hfree
      rw [Entries.remove_of_ne hne, Entries.add_self]
    · exact Entries.add_self ..

theorem ProcInv.not_listen {c : Child} (h : ProcInv v j p c) (hclosed : p.closed = true) : ¬p.fds.Has .listen := by
  cases h with
  | running hfree hfds =>
    rw [hfds, if_pos hclosed]
    intro hhas
    obtain ⟨n, hne, hn⟩ := Entries.has_remove.1 hhas
    by_cases hcfd : n = p.cfd
    · rw [hcfd, Entries.add_self] at hn
      cases hn
    · rw [Entries.add_of_ne hcfd, Setup.fds, if_neg hne] at hn
      split at hn <;> cases hn
  | zombie hfds | reaped hfds =>
    rw [hfds]
    exact Entries.not_has_empty _

/-- **The server.** Between two connections `main` has open what it was started with; connection `j` is open in child `j`
while that runs, and in no other; the child sends back the lines of the connection, whatever the others do; and every
child that exits is waited for. -/
theorem serves (hr : Steps.run (step v) (start v) as = some s) : Served v as s := by
  have h := inv_run hr
  have hchild : ∀ j p, s.procs[j]? = some p → ∃ c, s.kids.list[j]? = some c ∧ ProcInv v j p c := by
    intro j p hp
    have hlt : j < s.kids.list.length := h.length ▸ (List.getElem?_eq_some_iff.1 hp).1
    exact ⟨_, List.getElem?_eq_getElem hlt, h.proc j p _ hp (List.getElem?_eq_getElem hlt)⟩
  constructor
  · intro hctrl
    cases h.main with
    | accept _ hfds => exact hfds
    | fork hc | close hc | exited hc =>
      rw [hc] at hctrl
      cases hctrl
  · intro j p k hp
    obtain ⟨c, hc, hinv⟩ := hchild j p hp
    rw [hinv.has_conn, hc, Option.some.injEq]
  · intro j p hp hc
    exact (h.proc j p _ hp hc).socket
  · intro j p hp
    obtain ⟨c, hc, hinv⟩ := hchild j p hp
    exact hinv.not_listen
  · intro j p hp hfits hne
    have hecho : s.echos[j]? = some p.echo := by rw [State.echos, List.getElem?_map, hp, Option.map_some]
    exact (LineServer.inv_run hfits hne (echo_run hr hecho)).spec
  · intro hhandling hsig
    obtain hpending | hle := h.covered hhandling
    · rw [hsig] at hpending
      cases hpending
    · exact Nat.le_zero.1 hle
  · intro hhandling
    obtain ⟨w, hw⟩ := s.kids.exists_waitpid
    exact ⟨w, by simp only [step, hhandling, if_true, Option.isSome_map]; exact hw⟩
  · exact wait_le hr

/-- The second client is served while the first child is a zombie, of which the signal comes late. -/
def twoClients : List Act :=
  [.accept 4, .fork, .childClose 0, .close, .accept 4, .child 0 (.read (.cnt 1)), .fork, .child 0 (.write (.cnt 1)),
    .child 0 (.read (.cnt 0)), .exit 0, .childClose 1, .close, .signal, .child 1 (.read (.cnt 1)), .wait (.pid 0),
    .wait .again]

theorem serves_twoClients : ∃ s,
    Steps.run (step ⟨3, fun n => n < 3, fun k => if k = 0 then [10] else [104, 10]⟩)
      (start ⟨3, fun n => n < 3, fun k => if k = 0 then [10] else [104, 10]⟩) twoClients = some s ∧
    s.kids.list = [.reaped, .running] ∧
    Served ⟨3, fun n => n < 3, fun k => if k = 0 then [10] else [104, 10]⟩ twoClients s :=
  ⟨_, rfl, rfl, serves rfl⟩

end SystemFunc.Multiprocess
