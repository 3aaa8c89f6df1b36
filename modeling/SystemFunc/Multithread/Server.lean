import SystemFunc.Multiprocess.Server

/-!
# `internet/echo_server_multithread.c`: data and steps

`main` accepts a connection, puts its descriptor and the address of the client into a block from `malloc`, and gives
that to a new thread, which it detaches. The thread reads the block, sends the lines of the connection back
(`LineServer.Echo`), frees the block and closes the descriptor. All have the descriptors and the heap in common, and
`clientAddr` is filled by every call of `accept`; a failing `read` or `write` of one thread ends the process.

`Moves` says what a step does.
-/

namespace SystemFunc.Multithread

open LineServer (Echo EchoAct EchoSpec Fits)
open Multiprocess (File Setup)

/-- `sin_addr.s_addr` and `sin_port`. -/
structure Peer where
  addr : Nat
  port : Nat
  deriving DecidableEq

/-- `struct threadNode`. -/
structure ThreadNode where
  cfd : Nat
  peer : Peer

/-- `main` in `Accept`, `malloc`, `pthread_create` or `pthread_detach`; or the process has exited, or has used a
`NULL` pointer, a freed block or a descriptor that is not that of its connection. -/
inductive MainCtrl where
  | accept
  | malloc (cfd : Nat)
  | create (arg : Nat)
  | detach
  | exited (headStr : String)
  | undefined
  deriving DecidableEq

/-- A thread before it has read its block, in the loop, behind `free`, or returned. -/
inductive Pc where
  | begin (arg : Nat)
  | serving (arg cfd : Nat) (peer : Peer)
  | freed (cfd : Nat)
  | ended
  deriving DecidableEq

/-- Thread `i` has the loop for connection `i`. -/
structure Thread where
  pc : Pc
  echo : Echo

structure State where
  ctrl : MainCtrl
  fds : Entries File
  heap : Entries ThreadNode
  clientAddr : Peer
  threads : List Thread

inductive Act where
  | accept (cfd : Nat)
  | acceptFailed
  | malloc (addr : Option Nat)
  | create (ok : Bool)
  | detach (ok : Bool)
  | begin (i : Nat)
  | echo (i : Nat) (a : EchoAct)
  | free (i : Nat)
  | close (i : Nat)

/-- The addresses of the clients, and what is on the stacks of the threads. -/
structure Env where
  setup : Setup
  peer : Nat → Peer
  junk : Nat → Nat → UInt8

def start (v : Env) : State where
  ctrl := .accept
  fds := v.setup.fds
  heap := .empty
  clientAddr := ⟨0, 0⟩
  threads := []

/-- The process runs. -/
def MainCtrl.running : MainCtrl → Bool
  | .exited _ | .undefined => false
  | _ => true

def State.die (s : State) (headStr : String) : State := { s with ctrl := .exited headStr }

def State.wild (s : State) : State := { s with ctrl := .undefined }

def State.set (s : State) (i : Nat) (th : Thread) : State := { s with threads := s.threads.set i th }

/-- A pass of the loop, after which the process may exit. -/
def State.echoed (s : State) (i : Nat) (th : Thread) (e : Echo) : State :=
  let s := s.set i { th with echo := e }
  match e.ctrl with
  | .exited headStr => s.die headStr
  | _ => s

/-- Thread `i` runs `f`. -/
def State.thread (s : State) (i : Nat) (f : Thread → Option State) : Option State :=
  if s.ctrl.running then s.threads[i]?.bind f else none

def step (v : Env) (s : State) : Act → Option State
  | .accept cfd =>
    if s.ctrl = .accept ∧ s.fds cfd = none then
      some { s with
        ctrl := .malloc cfd
        fds := s.fds.add cfd (.conn s.threads.length)
        clientAddr := v.peer s.threads.length }
    else none
  | .acceptFailed => if s.ctrl = .accept then some (s.die "call accept failed") else none
  | .malloc none =>
    match s.ctrl with
    | .malloc _ => some s.wild
    | _ => none
  | .malloc (some addr) =>
    match s.ctrl with
    | .malloc cfd =>
      if s.heap addr = none then
        some { s with ctrl := .create addr, heap := s.heap.add addr { cfd := cfd, peer := s.clientAddr } }
      else none
    | _ => none
  | .create ok =>
    match s.ctrl with
    | .create arg =>
      if ok then
        some { s with
          ctrl := .detach
          threads := s.threads ++ [{
            pc := .begin arg
            echo := .start (v.junk s.threads.length) (v.setup.stream s.threads.length) }] }
      else some (s.die "call pthread_create failed")
    | _ => none
  | .detach ok =>
    match s.ctrl with
    | .detach => some (if ok then { s with ctrl := .accept } else s.die "call pthread_detach failed")
    | _ => none
  | .begin i =>
    s.thread i fun th =>
      match th.pc with
      | .begin arg =>
        match s.heap arg with
        | some node => some (s.set i { th with pc := .serving arg node.cfd node.peer })
        | none => some s.wild
      | _ => none
  | .echo i a =>
    s.thread i fun th =>
      match th.pc with
      | .serving _ cfd _ =>
        if s.fds cfd = some (.conn i) then (th.echo.step a).map (s.echoed i th) else some s.wild
      | _ => none
  | .free i =>
    s.thread i fun th =>
      match th.pc, th.echo.ctrl with
      | .serving arg cfd _, .left _ =>
        match s.heap arg with
        | some _ => some { s.set i { th with pc := .freed cfd } with heap := s.heap.remove arg }
        | none => some s.wild
      | _, _ => none
  | .close i =>
    s.thread i fun th =>
      match th.pc with
      | .freed cfd => some { s.set i { th with pc := .ended } with fds := s.fds.remove cfd }
      | _ => none

variable {v : Env} {s t : State} {a : Act} {i : Nat} {th : Thread}

/-! ## What a step does -/

/-- A call of `main` fails. -/
def Act.fails : Act → Bool
  | .acceptFailed | .create false | .detach false => true
  | _ => false

inductive Moves (v : Env) (s : State) : Act → State → Prop
  | accept {cfd : Nat} (hctrl : s.ctrl = .accept) (hfree : s.fds cfd = none) :
      Moves v s (.accept cfd)
        { s with
          ctrl := .malloc cfd
          fds := s.fds.add cfd (.conn s.threads.length)
          clientAddr := v.peer s.threads.length }
  | die {a : Act} {headStr : String} (hrun : s.ctrl.running = true) (ha : a.fails = true) : Moves v s a (s.die headStr)
  | null (hrun : s.ctrl.running = true) : Moves v s (.malloc none) s.wild
  | malloc {cfd addr : Nat} (hctrl : s.ctrl = .malloc cfd) (hfree : s.heap addr = none) :
      Moves v s (.malloc (some addr))
        { s with ctrl := .create addr, heap := s.heap.add addr { cfd := cfd, peer := s.clientAddr } }
  | create {arg : Nat} (hctrl : s.ctrl = .create arg) :
      Moves v s (.create true)
        { s with
          ctrl := .detach
          threads := s.threads ++ [{
            pc := .begin arg
            echo := .start (v.junk s.threads.length) (v.setup.stream s.threads.length) }] }
  | detach (hctrl : s.ctrl = .detach) : Moves v s (.detach true) { s with ctrl := .accept }
  | begin {i arg : Nat} {th : Thread} {node : ThreadNode} (hrun : s.ctrl.running = true) (hth : s.threads[i]? = some th)
      (hpc : th.pc = .begin arg) (hnode : s.heap arg = some node) :
      Moves v s (.begin i) (s.set i { th with pc := .serving arg node.cfd node.peer })
  | echo {i arg cfd : Nat} {peer : Peer} {th : Thread} {a : EchoAct} {e : Echo} (hrun : s.ctrl.running = true)
      (hth : s.threads[i]? = some th) (hpc : th.pc = .serving arg cfd peer) (hfd : s.fds cfd = some (.conn i))
      (hs : th.echo.step a = some e) : Moves v s (.echo i a) (s.echoed i th e)
  | free {i arg cfd : Nat} {cnt : Int} {peer : Peer} {th : Thread} {node : ThreadNode} (hrun : s.ctrl.running = true)
      (hth : s.threads[i]? = some th) (hpc : th.pc = .serving arg cfd peer) (hleft : th.echo.ctrl = .left cnt)
      (hnode : s.heap arg = some node) :
      Moves v s (.free i) { s.set i { th with pc := .freed cfd } with heap := s.heap.remove arg }
  | close {i cfd : Nat} {th : Thread} (hrun : s.ctrl.running = true) (hth : s.threads[i]? = some th)
      (hpc : th.pc = .freed cfd) :
      Moves v s (.close i) { s.set i { th with pc := .ended } with fds := s.fds.remove cfd }
  | wildBegin {i arg : Nat} {th : Thread} (hrun : s.ctrl.running = true) (hth : s.threads[i]? = some th)
      (hpc : th.pc = .begin arg) (hnode : s.heap arg = none) : Moves v s (.begin i) s.wild
  | wildEcho {i arg cfd : Nat} {peer : Peer} {th : Thread} {a : EchoAct} (hrun : s.ctrl.running = true)
      (hth : s.threads[i]? = some th) (hpc : th.pc = .serving arg cfd peer) (hfd : s.fds cfd ≠ some (.conn i)) :
      Moves v s (.echo i a) s.wild
  | wildFree {i arg cfd : Nat} {peer : Peer} {th : Thread} (hrun : s.ctrl.running = true)
      (hth : s.threads[i]? = some th) (hpc : th.pc = .serving arg cfd peer) (hnode : s.heap arg = none) :
      Moves v s (.free i) s.wild

theorem thread_eq_some {f : Thread → Option State} : s.thread i f = some t ↔ s.ctrl.running = true ∧
    ∃ th, s.threads[i]? = some th ∧ f th = some t := by
  simp only [State.thread, Option.ite_none_right_eq_some, Option.bind_eq_some_iff]

theorem step_moves (hs : step v s a = some t) : Moves v s a t := by
  cases a with
  | accept cfd =>
    obtain ⟨⟨hctrl, hfree⟩, ht⟩ := Option.ite_none_right_eq_some.1 hs
    cases ht
    exact .accept hctrl hfree
  | acceptFailed =>
    obtain ⟨hctrl, ht⟩ := Option.ite_none_right_eq_some.1 hs
    cases ht
    exact .die (by rw [hctrl]; rfl) rfl
  | malloc addr =>
    cases addr with
    | none =>
      unfold step at hs
      dsimp only at hs
      split at hs
      next cfd hctrl =>
        cases hs
        exact .null (by rw [hctrl]; rfl)
      next => cases hs
    | some addr =>
      unfold step at hs
      dsimp only at hs
      split at hs
      next cfd hctrl =>
        obtain ⟨hfree, ht⟩ := Option.ite_none_right_eq_some.1 hs
        cases ht
        exact .malloc hctrl hfree
      next => cases hs
  | create ok =>
    unfold step at hs
    dsimp only at hs
    split at hs
    next arg hctrl =>
      cases ok with
      | true =>
        cases hs
        exact .create hctrl
      | false =>
        cases hs
        exact .die (by rw [hctrl]; rfl) rfl
    next => cases hs
  | detach ok =>
    unfold step at hs
    dsimp only at hs
    split at hs
    next hctrl =>
      cases ok with
      | true =>
        cases hs
        exact .detach hctrl
      | false =>
        cases hs
        exact .die (by rw [hctrl]; rfl) rfl
    next => cases hs
  | begin i =>
    obtain ⟨hrun, th, hth, ht⟩ := thread_eq_some.1 hs
    split at ht
    next arg hpc =>
      split at ht
      next node hnode =>
        cases ht
        exact .begin hrun hth hpc hnode
      next hnode =>
        cases ht
        exact .wildBegin hrun hth hpc hnode
    next => cases ht
  | echo i a =>
    obtain ⟨hrun, th, hth, ht⟩ := thread_eq_some.1 hs
    split at ht
    next arg cfd peer hpc =>
      split at ht
      next hfd =>
        obtain ⟨e, he, rfl⟩ := Option.map_eq_some_iff.1 ht
        exact .echo hrun hth hpc hfd he
      next hfd =>
        cases ht
        exact .wildEcho hrun hth hpc hfd
    next => cases ht
  | free i =>
    obtain ⟨hrun, th, hth, ht⟩ := thread_eq_some.1 hs
    split at ht
    next arg cfd peer cnt hpc hleft =>
      split at ht
      next node hnode =>
        cases ht
        exact .free hrun hth hpc hleft hnode
      next hnode =>
        cases ht
        exact .wildFree hrun hth hpc hnode
    next => cases ht
  | close i =>
    obtain ⟨hrun, th, hth, ht⟩ := thread_eq_some.1 hs
    split at ht
    next cfd hpc =>
      cases ht
      exact .close hrun hth hpc
    next => cases ht

end SystemFunc.Multithread
