import SystemFunc.Lib.Buffer
import SystemFunc.Lib.Entries
import SystemFunc.Lib.Steps

/-!
# The level-triggered echo of `internet/epoll_normal.c`: data and steps

Each descriptor is registered with the address of a `Node` from `malloc`. A node waits for bytes, which `DoRead` puts into
its buffer, and then for room, until `DoWrite` has written them all; at the end of the stream `DoRead` frees it.
`epoll_wait` fills a batch of events with the addresses, which are dereferenced one after the other.

A handler makes one call of `read`, `write` or `accept`; what a client does between that and the end of the handler is
not seen by it. `stream` are the bytes of a client that have arrived, of which `got` have been read.

- `step`: the calls of the server, and what arrives;
- `Moves`, `step_moves`: what a step does.
-/

namespace SystemFunc.Epoll

open Buffer

def EVENTS_MAX : Nat := 20

def MAX_WRITE_BYTE : Nat := 40

/-- `sizeof(node->buf)`. -/
def BUF_SIZE : Nat := 100

structure Node where
  fd : Nat
  bufLen : Nat
  buf : Nat → UInt8
  wIndex : Nat

/-- What an open descriptor is. -/
inductive Desc where
  | listen
  | conn (k : Nat)
  | other

/-- A registration: `EPOLLOUT` or `EPOLLIN`, and `data.ptr`. -/
structure Registration where
  epollout : Bool
  ptr : Nat

structure Conn where
  stream : List UInt8
  got : Nat
  out : List UInt8
  eof : Bool
  closed : Bool

/-- An entry of `events`, which may have none of the two bits. -/
structure Event where
  ptr : Nat
  epollin : Bool
  epollout : Bool

/-- What `epoll_wait` reports of a descriptor. -/
structure Ready where
  fd : Nat
  epollin : Bool
  epollout : Bool

/-- Where `EventLoop` is: before `epoll_wait`, before the next event, in `DoAccept`, or at the tests of the bits of an
event, of which those are left that have not been looked at. -/
inductive Ctrl where
  | wait
  | batch (evs : List Event)
  | accepting (evs : List Event)
  | conn (e : Event) (evs : List Event)
  | exited (headStr : String)
  | undefined

structure State where
  heap : Entries Node
  fds : Entries Desc
  reg : Entries Registration
  conns : List Conn
  ctrl : Ctrl

/-- `PrintError` with an exit code. -/
def State.exit (s : State) (headStr : String) : State := { s with ctrl := .exited headStr }

/-! ## Nodes and registrations -/

def createNode (fd : Nat) : Node where
  fd := fd
  bufLen := 0
  buf _ := 0
  wIndex := 0

def State.setNode (s : State) (ptr : Nat) (node : Node) : State := { s with heap := s.heap.add ptr node }

/-- `EventAdd` of a node that waits for bytes. -/
def State.eventAdd (s : State) (ptr : Nat) (node : Node) : State :=
  match s.reg node.fd with
  | some _ => s.exit "EventAdd failed"
  | none => { s with reg := s.reg.add node.fd { epollout := false, ptr := ptr } }

/-- `EventDel`, with `free(node)`. -/
def State.eventDel (s : State) (ptr : Nat) (node : Node) : State :=
  match s.reg node.fd with
  | none => s.exit "EventDel failed"
  | some _ => { s with heap := s.heap.remove ptr, reg := s.reg.remove node.fd }

def State.eventMod (s : State) (ptr : Nat) (node : Node) (epollout : Bool) : State :=
  match s.reg node.fd with
  | none => s.exit "EventMod failed"
  | some _ => { s with reg := s.reg.add node.fd { epollout := epollout, ptr := ptr } }

/-! ## The handlers -/

/-- `DoAccept`: `accept` answers `cfd`, and `malloc` answers `addr`. -/
def State.doAccept (s : State) (cfd addr : Nat) : State :=
  let s : State := { s.setNode addr (createNode cfd) with
    fds := s.fds.add cfd (.conn s.conns.length)
    conns := s.conns ++ [{ stream := [], got := 0, out := [], eof := false, closed := false }] }
  s.eventAdd addr (createNode cfd)

/-- `DoRead` of connection `k`, where `read` answers `0`. -/
def State.doReadZero (s : State) (ptr : Nat) (node : Node) (k : Nat) (c : Conn) : State :=
  let s := s.eventDel ptr node
  { s with fds := s.fds.remove node.fd, conns := s.conns.set k { c with closed := true } }

/-- `DoRead`, where it answers `cnt` bytes. -/
def State.doRead (s : State) (ptr : Nat) (node : Node) (k : Nat) (c : Conn) (cnt : Nat) : State :=
  let next : Node := { node with
    buf := store node.buf 0 ((c.stream.drop c.got).take cnt)
    bufLen := cnt
    wIndex := 0 }
  let s : State := { s.setNode ptr next with conns := s.conns.set k { c with got := c.got + cnt } }
  s.eventMod ptr next true

/-- `DoWrite`, where `Write` takes `cnt` bytes. -/
def State.doWrite (s : State) (ptr : Nat) (node : Node) (k : Nat) (c : Conn) (cnt : Nat) : State :=
  let c : Conn := { c with out := c.out ++ slice node.buf node.wIndex cnt }
  let next : Node := { node with bufLen := node.bufLen - cnt, wIndex := node.wIndex + cnt }
  let s : State := { s.setNode ptr next with conns := s.conns.set k c }
  if next.bufLen ≤ 0 then s.eventMod ptr next false else s

/-! ## The steps -/

inductive Act where
  /-- Bytes of a client arrive. -/
  | arrive (k : Nat) (bytes : List UInt8)
  /-- The end of the stream of a client arrives. -/
  | peerClose (k : Nat)
  | epollWait (ready : List Ready)
  /-- `epoll_wait` fails with `EINTR`. -/
  | eintr
  /-- The next event of the batch, or the end of it. -/
  | next
  | accept (cfd addr : Nat)
  | read (cnt : Nat)
  | readZero
  | write (cnt : Nat)
  /-- No bit is left. -/
  | pass
  /-- A call fails, and its error exit is taken. -/
  | fail (headStr : String)

/-- A connection that is open changes. -/
def State.onConn (s : State) (k : Nat) (f : Conn → Option Conn) : Option State :=
  s.conns[k]?.bind fun c => if c.closed then none else (f c).map fun c => { s with conns := s.conns.set k c }

/-- Bytes or the end of the stream are there. -/
def Conn.readable (c : Conn) : Bool := c.got < c.stream.length || c.eof

/-- `epoll_wait` may report this of a descriptor: a bit only where it is registered, and `EPOLLIN` only where something
is there. -/
def State.mayReport (s : State) (x : Ready) : Bool :=
  match s.reg x.fd with
  | none => false
  | some r =>
    (!x.epollin || !r.epollout && match s.fds x.fd with
      | some (.conn k) => s.conns[k]?.any Conn.readable
      | _ => true) &&
    (!x.epollout || r.epollout)

def State.event (s : State) (x : Ready) : Option Event :=
  (s.reg x.fd).map fun r => { ptr := r.ptr, epollin := x.epollin, epollout := x.epollout }

/-- The node of an event, and its connection. -/
def State.lookup (s : State) (e : Event) (f : Node → (k : Nat) → Conn → Option State) : Option State :=
  match s.heap e.ptr with
  | none => some { s with ctrl := .undefined }
  | some node =>
    match s.fds node.fd with
    | some (.conn k) => s.conns[k]?.bind (f node k)
    | _ => none

/-- What is printed when the call that comes next fails. -/
def Ctrl.failures : Ctrl → List String
  | .wait => ["call epoll_wait error"]
  | .accepting _ =>
    ["call accept failed", "fcntl(fd, F_GETFL)", "fcntl(fd, F_SETFL, flag)", "malloc error", "EventAdd failed"]
  | .conn e _ =>
    if e.epollin then ["call Read failed", "EventDel failed", "EventMod failed"]
    else if e.epollout then ["call Write failed", "EventMod failed"]
    else []
  | _ => []

def step (lfd : Nat) (s : State) : Act → Option State
  | .arrive k bytes =>
    s.onConn k fun c => if c.eof then none else some { c with stream := c.stream ++ bytes }
  | .peerClose k => s.onConn k fun c => some { c with eof := true }
  | .epollWait ready =>
    match s.ctrl with
    | .wait =>
      if (ready.map Ready.fd).Nodup ∧ ready.length ≤ EVENTS_MAX ∧ ready.all s.mayReport then
        some { s with ctrl := .batch (ready.filterMap s.event) }
      else none
    | _ => none
  | .eintr =>
    match s.ctrl with
    | .wait => some s
    | _ => none
  | .next =>
    match s.ctrl with
    | .batch [] => some { s with ctrl := .wait }
    | .batch (e :: evs) =>
      match s.heap e.ptr with
      | none => some { s with ctrl := .undefined }
      | some node => some { s with ctrl := if node.fd = lfd then .accepting evs else .conn e evs }
    | _ => none
  | .accept cfd addr =>
    match s.ctrl with
    | .accepting evs =>
      if (s.fds cfd).isNone ∧ (s.heap addr).isNone then some ({ s with ctrl := .batch evs }.doAccept cfd addr) else none
    | _ => none
  | .read cnt =>
    match s.ctrl with
    | .conn e evs =>
      if e.epollin then
        s.lookup e fun node k c =>
          if 1 ≤ cnt ∧ cnt ≤ BUF_SIZE ∧ c.got + cnt ≤ c.stream.length then
            some ({ s with ctrl := .conn { e with epollin := false } evs }.doRead e.ptr node k c cnt)
          else none
      else none
    | _ => none
  | .readZero =>
    match s.ctrl with
    | .conn e evs =>
      if e.epollin then
        s.lookup e fun node k c =>
          if c.got = c.stream.length ∧ c.eof then
            some ({ s with ctrl := .conn { e with epollin := false } evs }.doReadZero e.ptr node k c)
          else none
      else none
    | _ => none
  | .write cnt =>
    match s.ctrl with
    | .conn e evs =>
      if !e.epollin && e.epollout then
        s.lookup e fun node k c =>
          if cnt ≤ min node.bufLen MAX_WRITE_BYTE then
            some ({ s with ctrl := .conn { e with epollout := false } evs }.doWrite e.ptr node k c cnt)
          else none
      else none
    | _ => none
  | .pass =>
    match s.ctrl with
    | .conn e evs => if e.epollin || e.epollout then none else some { s with ctrl := .batch evs }
    | _ => none
  | .fail headStr => if headStr ∈ s.ctrl.failures then some (s.exit headStr) else none

/-- Before `EventLoop`: the listening socket is registered with its node. -/
structure Init (lfd : Nat) (s : State) : Prop where
  ctrl : s.ctrl = .wait
  listen : s.fds lfd = some .listen
  node : ∃ ptr, s.reg lfd = some { epollout := false, ptr := ptr } ∧ s.heap ptr = some (createNode lfd) ∧
    ∀ p, p ≠ ptr → s.heap p = none
  reg : ∀ fd, fd ≠ lfd → s.reg fd = none
  fds : ∀ fd k, s.fds fd ≠ some (.conn k)
  conns : s.conns = []

/-! ## What a step does -/

variable {lfd : Nat} {s t : State} {e : Event}

/-- The node of an event has not been freed, and its descriptor is a connection. -/
structure Points (s : State) (e : Event) (n : Node) (k : Nat) (c : Conn) : Prop where
  heap : s.heap e.ptr = some n
  fds : s.fds n.fd = some (.conn k)
  conns : s.conns[k]? = some c

inductive Moves (lfd : Nat) (s : State) : State → Prop
  | arrive {k : Nat} {f : Conn → Option Conn} {t : State} (hs : s.onConn k f = some t)
      (hf : ∀ c d, f c = some d → ∃ bytes eof, d = { c with stream := c.stream ++ bytes, eof := eof }) : Moves lfd s t
  | report {ready : List Ready} (hnodup : (ready.map Ready.fd).Nodup) (hall : ready.all s.mayReport = true) :
      Moves lfd s { s with ctrl := .batch (ready.filterMap s.event) }
  | again : Moves lfd s s
  | wait : Moves lfd s { s with ctrl := .wait }
  | next {e : Event} {evs : List Event} {n : Node} (hctrl : s.ctrl = .batch (e :: evs)) (hn : s.heap e.ptr = some n) :
      Moves lfd s { s with ctrl := if n.fd = lfd then .accepting evs else .conn e evs }
  | accept {evs : List Event} {cfd addr : Nat} (hctrl : s.ctrl = .accepting evs) (hcfd : s.fds cfd = none)
      (haddr : s.heap addr = none) : Moves lfd s ({ s with ctrl := .batch evs }.doAccept cfd addr)
  | read {e : Event} {evs : List Event} {n : Node} {k cnt : Nat} {c : Conn} (hctrl : s.ctrl = .conn e evs)
      (hin : e.epollin = true) (hp : Points s e n k c)
      (hcnt : 1 ≤ cnt ∧ cnt ≤ BUF_SIZE ∧ c.got + cnt ≤ c.stream.length) :
      Moves lfd s ({ s with ctrl := .conn { e with epollin := false } evs }.doRead e.ptr n k c cnt)
  | readZero {e : Event} {evs : List Event} {n : Node} {k : Nat} {c : Conn} (hctrl : s.ctrl = .conn e evs)
      (hin : e.epollin = true) (hp : Points s e n k c) (hend : c.got = c.stream.length ∧ c.eof = true) :
      Moves lfd s ({ s with ctrl := .conn { e with epollin := false } evs }.doReadZero e.ptr n k c)
  | write {e : Event} {evs : List Event} {n : Node} {k cnt : Nat} {c : Conn} (hctrl : s.ctrl = .conn e evs)
      (hin : e.epollin = false) (hout : e.epollout = true) (hp : Points s e n k c)
      (hcnt : cnt ≤ min n.bufLen MAX_WRITE_BYTE) :
      Moves lfd s ({ s with ctrl := .conn { e with epollout := false } evs }.doWrite e.ptr n k c cnt)
  | pass {e : Event} {evs : List Event} (hctrl : s.ctrl = .conn e evs) : Moves lfd s { s with ctrl := .batch evs }
  | freed {e : Event} {evs : List Event} (hn : s.heap e.ptr = none)
      (hctrl : s.ctrl = .batch (e :: evs) ∨ s.ctrl = .conn e evs ∧ (e.epollin = true ∨ e.epollout = true)) :
      Moves lfd s { s with ctrl := .undefined }
  | fail (headStr : String) : Moves lfd s (s.exit headStr)

theorem lookup_eq_some {f : Node → Nat → Conn → Option State} (hl : s.lookup e f = some t) :
    s.heap e.ptr = none ∧ t = { s with ctrl := .undefined } ∨ ∃ n k c, Points s e n k c ∧ f n k c = some t := by
  unfold State.lookup at hl
  split at hl
  next hn => exact .inl ⟨hn, (Option.some.inj hl).symm⟩
  next n hn =>
    split at hl
    next k hk =>
      obtain ⟨c, hc, ht⟩ := Option.bind_eq_some_iff.1 hl
      exact .inr ⟨n, k, c, ⟨hn, hk, hc⟩, ht⟩
    next => cases hl

theorem step_moves {a : Act} (hs : step lfd s a = some t) : Moves lfd s t := by
  cases a with
  | arrive k bytes =>
    refine .arrive hs fun c d hd => ?_
    obtain ⟨-, hd'⟩ := Option.ite_none_left_eq_some.1 hd
    cases hd'
    exact ⟨bytes, c.eof, rfl⟩
  | peerClose k =>
    refine .arrive hs fun c d hd => ?_
    cases hd
    exact ⟨[], true, by rw [List.append_nil]⟩
  | epollWait ready =>
    simp only [step] at hs
    split at hs
    · obtain ⟨⟨hnodup, -, hall⟩, ht⟩ := Option.ite_none_right_eq_some.1 hs
      cases ht
      exact .report hnodup hall
    · cases hs
  | eintr =>
    simp only [step] at hs
    split at hs <;> cases hs
    exact .again
  | next =>
    simp only [step] at hs
    split at hs
    · cases hs
      exact .wait
    next hctrl =>
      split at hs <;> cases hs
      · exact .freed ‹_› (.inl hctrl)
      · exact .next hctrl ‹_›
    · cases hs
  | accept cfd addr =>
    simp only [step] at hs
    split at hs
    next hctrl =>
      obtain ⟨⟨hcfd, haddr⟩, ht⟩ := Option.ite_none_right_eq_some.1 hs
      cases ht
      exact .accept hctrl (Option.isNone_iff_eq_none.1 hcfd) (Option.isNone_iff_eq_none.1 haddr)
    next => cases hs
  | read cnt =>
    simp only [step] at hs
    split at hs
    next hctrl =>
      obtain ⟨hin, hl⟩ := Option.ite_none_right_eq_some.1 hs
      obtain ⟨hn, rfl⟩ | ⟨n, k, c, hp, ht⟩ := lookup_eq_some hl
      · exact .freed hn (.inr ⟨hctrl, .inl hin⟩)
      · obtain ⟨hcnt, ht⟩ := Option.ite_none_right_eq_some.1 ht
        cases ht
        exact .read hctrl hin hp hcnt
    next => cases hs
  | readZero =>
    simp only [step] at hs
    split at hs
    next hctrl =>
      obtain ⟨hin, hl⟩ := Option.ite_none_right_eq_some.1 hs
      obtain ⟨hn, rfl⟩ | ⟨n, k, c, hp, ht⟩ := lookup_eq_some hl
      · exact .freed hn (.inr ⟨hctrl, .inl hin⟩)
      · obtain ⟨hend, ht⟩ := Option.ite_none_right_eq_some.1 ht
        cases ht
        exact .readZero hctrl hin hp hend
    next => cases hs
  | write cnt =>
    simp only [step] at hs
    split at hs
    next hctrl =>
      obtain ⟨hbits, hl⟩ := Option.ite_none_right_eq_some.1 hs
      rw [Bool.and_eq_true, Bool.not_eq_true'] at hbits
      obtain ⟨hn, rfl⟩ | ⟨n, k, c, hp, ht⟩ := lookup_eq_some hl
      · exact .freed hn (.inr ⟨hctrl, .inr hbits.2⟩)
      · obtain ⟨hcnt, ht⟩ := Option.ite_none_right_eq_some.1 ht
        cases ht
        exact .write hctrl hbits.1 hbits.2 hp hcnt
    next => cases hs
  | pass =>
    simp only [step] at hs
    split at hs
    next hctrl =>
      obtain ⟨-, ht⟩ := Option.ite_none_left_eq_some.1 hs
      cases ht
      exact .pass hctrl
    next => cases hs
  | fail headStr =>
    obtain ⟨-, ht⟩ := Option.ite_none_right_eq_some.1 hs
    cases ht
    exact .fail headStr

end SystemFunc.Epoll
