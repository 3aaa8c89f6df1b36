import Mathlib.Logic.Function.Basic
import SystemFunc.Lib.Buffer
import SystemFunc.Lib.Steps

/-!
# The reactor of `internet/epoll_reactor.c`

The process and the kernel it runs on. `EventLoop` takes the steps of one slot of its timeout loop, of `epoll_wait` and
of the handlers `DoAccept`, `DoReadLoop` and `DoWrite`; a handler stops at each `read`, `Write` and `epoll_ctl`, so that
bytes and ends of stream arrive in between. An action carries what the kernel answers and what `time` returns.

The kernel has descriptors, registrations in the epoll instance and connections. A registration is marked ready when
bytes or the end of the stream arrive while it has `EPOLLIN`, and when it is made or modified with `EPOLLIN` while some
are pending. `epoll_wait` answers with registered descriptors, none of them twice, each with its `data.ptr`, and clears
the mark of an edge-triggered one.

The heap are the blocks of `DoAccept`, each with the connection it was allocated for. A connection remembers its block
and slot, all bytes read from it and written to it, the bytes of the burst read last, how often its block was freed and
why it was closed. No step looks at these.
-/

namespace SystemFunc.Reactor

open Buffer

def EVENTS_MAX : Nat := 20
def EVENT_NODE_MAX : Nat := 1024
def MAX_WRITE_BYTE : Nat := 40
def EVNET_NODE_LIVE_TIMESTAMP : Int := 60
def MAX_SEGMENT_LENGTH : Nat := 32767

/-- The callback functions. -/
inductive Handler where
  | doAccept
  | doReadLoop
  | doWrite
  deriving DecidableEq

/-- The flags of an event mask. -/
structure Events where
  epollin : Bool
  epollout : Bool
  epollet : Bool
  deriving DecidableEq

/-- `EPOLLIN`. -/
def Events.listening : Events := { epollin := true, epollout := false, epollet := false }

/-- `EPOLLIN | EPOLLET`. -/
def Events.reading : Events := { epollin := true, epollout := false, epollet := true }

/-- `EPOLLOUT`. -/
def Events.writing : Events := { epollin := false, epollout := true, epollet := false }

/-- `regArgs` is the address of a block, `none` for `NULL`; `status` is `true` for `1`. -/
structure EventNode where
  fd : Nat
  buf : Nat → UInt8
  bufLen : Nat
  wIndex : Nat
  event : Events
  pfunc : Option Handler
  regArgs : Option Nat
  status : Bool
  lastAccess : Int

/-- A node of the static array before it is used. -/
def EventNode.zero : EventNode where
  fd := 0
  buf _ := 0
  bufLen := 0
  wIndex := 0
  event := { epollin := false, epollout := false, epollet := false }
  pfunc := none
  regArgs := none
  status := false
  lastAccess := 0

/-- What an open descriptor is. -/
inductive Desc where
  | listen
  | conn (c : Nat)
  | other

/-- A registration: its mask, the index of the node in `data.ptr`, and whether it is marked ready. -/
structure Registration where
  events : Events
  ptr : Nat
  mark : Bool

inductive Reason where
  | endOfStream
  | timeout
  deriving DecidableEq

/-- A connection: the bytes that have arrived and not been read, whether the client has closed its side; and what is
remembered of it. -/
structure Conn where
  pending : List UInt8
  eof : Bool
  fd : Nat
  addr : Nat
  slot : Nat
  got : List UInt8
  out : List UInt8
  burst : List UInt8
  frees : Nat
  closed : Option Reason

/-- An entry of `events`: `data.ptr`, and the connection it was reported for. -/
structure Pending where
  ptr : Nat
  conn : Option Nat
  deriving DecidableEq

/-- Where a handler is: `DoAccept` before `accept`; `DoReadLoop` before `read` and after `EAGAIN`; `DoWrite` before
`Write` and after it. -/
inductive Doing where
  | accepting
  | reading (totalCnt : Nat)
  | readDone (totalCnt : Nat)
  | writing
  | wrote

/-- Where `EventLoop` is: before `time`, in its timeout loop, before `epoll_wait`, before the next event of the batch,
or in a handler with its `node` and `fd`; or the process has exited, or done what C leaves undefined. -/
inductive Ctrl where
  | top
  | scan (now : Int) (i : Nat)
  | wait
  | batch (evs : List Pending)
  | handler (node fd : Nat) (doing : Doing) (evs : List Pending)
  | exited (headStr : String)
  | undefined

structure State where
  nodes : Nat → EventNode
  fds : Nat → Option Desc
  reg : Nat → Option Registration
  heap : Nat → Option Nat
  conns : Nat → Conn
  accepted : Nat
  ctrl : Ctrl

/-! ## The kernel -/

/-- Bytes or the end of the stream are pending at a descriptor. -/
def State.readable (s : State) (fd : Nat) : Bool :=
  match s.fds fd with
  | some (.conn c) => !(s.conns c).pending.isEmpty || (s.conns c).eof
  | _ => false

/-- The connection of a descriptor changes. -/
def State.onConn (s : State) (fd : Nat) (f : Conn → Conn) : State :=
  match s.fds fd with
  | some (.conn c) => { s with conns := Function.update s.conns c (f (s.conns c)) }
  | _ => s

/-- Something has arrived at connection `c`, which is then `k`. -/
def State.arrived (s : State) (c : Nat) (k : Conn) : State :=
  { s with
    conns := Function.update s.conns c k
    reg := Function.update s.reg k.fd ((s.reg k.fd).map fun r => { r with mark := r.mark || r.events.epollin }) }

/-- The connection of a descriptor, as `epoll_wait` reports it. -/
def State.connOf (s : State) (fd : Nat) : Option Nat :=
  match s.fds fd with
  | some (.conn c) => some c
  | _ => none

/-- The entry of `events` for a registered descriptor. -/
def State.report (s : State) (fd : Nat) : Option Pending :=
  (s.reg fd).map fun r => { ptr := r.ptr, conn := s.connOf fd }

/-- `close`. -/
def State.close (s : State) (fd : Nat) (reason : Reason) : State :=
  { s.onConn fd fun k => { k with closed := some reason } with fds := Function.update s.fds fd none }

/-! ## EventNode struct Handle -/

/-- The loop of `FindUnuseNode` from `i` on, over `n` nodes. -/
def findUnuseNode (nodes : Nat → EventNode) (i : Nat) : Nat → Nat
  | 0 => i
  | n + 1 => if (nodes i).status = false then i else findUnuseNode nodes (i + 1) n

def setEventNode (node : EventNode) (fd : Nat) (event : Events) (pfunc : Handler) (regArgs : Option Nat) (t : Int) :
    EventNode :=
  { node with fd := fd, event := event, pfunc := some pfunc, regArgs := regArgs, lastAccess := t }

def State.setNode (s : State) (i : Nat) (node : EventNode) : State :=
  { s with nodes := Function.update s.nodes i node }

/-- `PrintError` with an exit code. -/
def State.exit (s : State) (headStr : String) : State := { s with ctrl := .exited headStr }

def State.eventAdd (s : State) (i : Nat) : State :=
  let node := { s.nodes i with status := true, bufLen := 0, wIndex := 0 }
  match s.reg node.fd with
  | some _ => s.exit "EventAdd failed"
  | none =>
    { s.setNode i node with
      reg := Function.update s.reg node.fd
        (some { events := node.event, ptr := i, mark := node.event.epollin && s.readable node.fd }) }

def State.eventDel (s : State) (i : Nat) : State :=
  let node := { s.nodes i with status := false, bufLen := 0, wIndex := 0 }
  match s.reg node.fd with
  | none => s.exit "EventDel failed"
  | some _ => { s.setNode i node with reg := Function.update s.reg node.fd none }

def State.eventMod (s : State) (i : Nat) : State :=
  let node := { s.nodes i with status := true }
  match s.reg node.fd with
  | none => s.exit "EventMod failed"
  | some r =>
    { s.setNode i node with
      reg := Function.update s.reg node.fd
        (some { events := node.event, ptr := i, mark := r.mark || (node.event.epollin && s.readable node.fd) }) }

/-! ## Closing -/

/-- `free(regArgs)` and `regArgs = NULL`, where it is not `NULL`. -/
def State.freeRegArgs (s : State) (i : Nat) : State :=
  match (s.nodes i).regArgs with
  | none => s
  | some addr =>
    match s.heap addr with
    | none => { s with ctrl := .undefined }
    | some c =>
      { s.setNode i { s.nodes i with regArgs := none } with
        heap := Function.update s.heap addr none
        conns := Function.update s.conns c { s.conns c with frees := (s.conns c).frees + 1 } }

/-- The end of a connection, in the timeout loop and in `DoReadLoop`. -/
def State.closeNode (s : State) (i fd : Nat) (reason : Reason) : State :=
  ((s.freeRegArgs i).eventDel i).close fd reason

/-! ## callback func -/

/-- `PrintAddr` of `regArgs`, and on. -/
def State.printAddr (s : State) (i : Nat) (next : State) : State :=
  match (s.nodes i).regArgs.bind s.heap with
  | none => { s with ctrl := .undefined }
  | some _ => next

/-- The entry of a handler: `ResetLastAccess` and `fd`. -/
def State.dispatch (s : State) (i : Nat) (t : Int) (evs : List Pending) : State :=
  let fd := (s.nodes i).fd
  let s' := s.setNode i { s.nodes i with lastAccess := t }
  match (s.nodes i).pfunc with
  | none => { s with ctrl := .undefined }
  | some .doAccept => { s' with ctrl := .handler i fd .accepting evs }
  | some .doReadLoop => { s'.onConn fd fun k => { k with burst := [] } with ctrl := .handler i fd (.reading 0) evs }
  | some .doWrite => { s' with ctrl := .handler i fd .writing evs }

/-- The rest of `DoAccept`, with a free slot `i`: `malloc` answers `addr` and `accept` answers `cfd`; `pending` and
`eof` is what arrives until `EventAdd`. -/
def State.doAccept (s : State) (i cfd addr : Nat) (pending : List UInt8) (eof : Bool) (t : Int) : State :=
  let conn := { pending := pending, eof := eof, fd := cfd, addr := addr, slot := i, got := [], out := [], burst := [],
                frees := 0, closed := none }
  { s with
    heap := Function.update s.heap addr (some s.accepted)
    fds := Function.update s.fds cfd (some (.conn s.accepted))
    conns := Function.update s.conns s.accepted conn
    accepted := s.accepted + 1
    nodes := Function.update s.nodes i (setEventNode (s.nodes i) cfd .reading .doReadLoop (some addr) t) }.eventAdd i

/-- `read` has answered with `bytes`. -/
def State.doRead (s : State) (i fd totalCnt : Nat) (bytes : List UInt8) (evs : List Pending) : State :=
  { (s.setNode i { s.nodes i with buf := store (s.nodes i).buf totalCnt bytes }).onConn fd fun k =>
      { k with
        pending := k.pending.drop bytes.length
        got := k.got ++ bytes
        burst := k.burst ++ bytes } with
    ctrl := .handler i fd (.reading (totalCnt + bytes.length)) evs }

/-- The end of `DoReadLoop` after `EAGAIN`. -/
def State.toWrite (s : State) (i fd totalCnt : Nat) (t : Int) (evs : List Pending) : State :=
  s.printAddr i <|
    { s.setNode i (setEventNode { s.nodes i with bufLen := totalCnt, wIndex := 0 } fd .writing .doWrite
        (s.nodes i).regArgs t) with ctrl := .batch evs }.eventMod i

/-- `Write` has taken `cnt` bytes. -/
def State.doWrite (s : State) (i fd cnt : Nat) (evs : List Pending) : State :=
  let node := s.nodes i
  { (s.setNode i { node with bufLen := node.bufLen - cnt, wIndex := node.wIndex + cnt }).onConn fd fun k =>
      { k with out := k.out ++ slice node.buf node.wIndex cnt } with
    ctrl := .handler i fd .wrote evs }

/-- The end of `DoWrite`. -/
def State.afterWrite (s : State) (i fd : Nat) (t : Int) (evs : List Pending) : State :=
  s.printAddr i <|
    if (s.nodes i).bufLen ≤ 0 then
      { s.setNode i (setEventNode (s.nodes i) fd .reading .doReadLoop (s.nodes i).regArgs t) with
        ctrl := .batch evs }.eventMod i
    else { s with ctrl := .batch evs }

/-! ## The steps -/

inductive Act where
  /-- Bytes of a client arrive. -/
  | arrive (c : Nat) (bytes : List UInt8)
  /-- The end of the stream of a client arrives. -/
  | peerClose (c : Nat)
  | time (now : Int)
  | scan
  | epollWait (fds : List Nat)
  /-- `epoll_wait` fails with `EINTR`. -/
  | epollEintr
  /-- The next event of the batch, or the end of it. -/
  | dispatch (t : Int)
  | accept (cfd addr : Nat) (pending : List UInt8) (eof : Bool) (t : Int)
  | read (n : Nat)
  | readEagain
  | readEintr
  /-- `read` answers `0`. -/
  | readZero
  | toWrite (t : Int)
  | write (cnt : Nat)
  | afterWrite (t : Int)
  /-- A call fails, and its error exit is taken. -/
  | fail

/-- What is printed when the call that comes next fails. -/
def Ctrl.failure : Ctrl → Option String
  | .wait => some "call epoll_wait error"
  | .handler _ _ .accepting _ => some "call accept failed"
  | .handler _ _ (.reading _) _ => some "DoReadLoop, call read failed"
  | .handler _ _ .writing _ => some "call Write failed"
  | _ => none

def step (s : State) : Act → Option State
  | .arrive c bytes =>
    let k := s.conns c
    if c < s.accepted ∧ k.closed = none ∧ k.eof = false ∧ bytes ≠ [] then
      some (s.arrived c { k with pending := k.pending ++ bytes })
    else none
  | .peerClose c =>
    let k := s.conns c
    if c < s.accepted ∧ k.closed = none ∧ k.eof = false then some (s.arrived c { k with eof := true }) else none
  | .time now =>
    match s.ctrl with
    | .top => some { s with ctrl := .scan now 0 }
    | _ => none
  | .scan =>
    match s.ctrl with
    | .scan now i =>
      if i < EVENT_NODE_MAX then
        if (s.nodes i).status = true ∧ now - EVNET_NODE_LIVE_TIMESTAMP > (s.nodes i).lastAccess then
          some ({ s with ctrl := .scan now (i + 1) }.closeNode i (s.nodes i).fd .timeout)
        else some { s with ctrl := .scan now (i + 1) }
      else some { s with ctrl := .wait }
    | _ => none
  | .epollWait fds =>
    match s.ctrl with
    | .wait =>
      if fds.Nodup ∧ fds.length ≤ EVENTS_MAX ∧ ∀ fd ∈ fds, (s.reg fd).isSome then
        some { s with
          ctrl := .batch (fds.filterMap s.report)
          reg := fun fd =>
            if fd ∈ fds then (s.reg fd).map fun r => { r with mark := r.mark && !r.events.epollet } else s.reg fd }
      else none
    | _ => none
  | .epollEintr =>
    match s.ctrl with
    | .wait => some { s with ctrl := .top }
    | _ => none
  | .dispatch t =>
    match s.ctrl with
    | .batch [] => some { s with ctrl := .top }
    | .batch (e :: evs) => some (s.dispatch e.ptr t evs)
    | _ => none
  | .accept cfd addr pending eof t =>
    match s.ctrl with
    | .handler _ fd .accepting evs =>
      let index := findUnuseNode s.nodes 0 EVENT_NODE_MAX
      if EVENT_NODE_MAX ≤ index then some { s with ctrl := .batch evs }
      else
        match s.fds fd with
        | some .listen =>
          if s.heap addr = none ∧ (s.fds cfd).isNone then
            some ({ s with ctrl := .batch evs }.doAccept index cfd addr pending eof t)
          else none
        | _ => none
    | _ => none
  | .read n =>
    match s.ctrl with
    | .handler i fd (.reading totalCnt) evs =>
      match s.fds fd with
      | some (.conn c) =>
        if 1 ≤ n ∧ n ≤ 100 ∧ n ≤ (s.conns c).pending.length then
          if totalCnt + n ≤ MAX_SEGMENT_LENGTH then
            some (s.doRead i fd totalCnt ((s.conns c).pending.take n) evs)
          -- behind `buf`, into the other fields of the node
          else some { s with ctrl := .undefined }
        else none
      | _ => none
    | _ => none
  | .readEagain =>
    match s.ctrl with
    | .handler i fd (.reading totalCnt) evs =>
      match s.fds fd with
      | some (.conn c) =>
        if (s.conns c).pending = [] ∧ (s.conns c).eof = false then
          some { s with ctrl := .handler i fd (.readDone totalCnt) evs }
        else none
      | _ => none
    | _ => none
  | .readEintr =>
    match s.ctrl with
    | .handler _ _ (.reading _) _ => some s
    | _ => none
  | .readZero =>
    match s.ctrl with
    | .handler i fd (.reading _) evs =>
      match s.fds fd with
      | some (.conn c) =>
        if (s.conns c).pending = [] ∧ (s.conns c).eof = true then
          some ({ s with ctrl := .batch evs }.closeNode i fd .endOfStream)
        else none
      | _ => none
    | _ => none
  | .toWrite t =>
    match s.ctrl with
    | .handler i fd (.readDone totalCnt) evs => some (s.toWrite i fd totalCnt t evs)
    | _ => none
  | .write cnt =>
    match s.ctrl with
    | .handler i fd .writing evs =>
      match s.fds fd with
      | some (.conn _) => if cnt ≤ min (s.nodes i).bufLen MAX_WRITE_BYTE then some (s.doWrite i fd cnt evs) else none
      | _ => none
    | _ => none
  | .afterWrite t =>
    match s.ctrl with
    | .handler i fd .wrote evs => some (s.afterWrite i fd t evs)
    | _ => none
  | .fail => s.ctrl.failure.map s.exit

/-- Before `EventLoop`: the node of the listening socket `lfd` is added, the others are unused. -/
structure Init (s : State) : Prop where
  ctrl : s.ctrl = .top
  nodes : ∀ i, i ≠ EVENT_NODE_MAX → s.nodes i = .zero
  listener : ∃ lfd t mark,
    s.nodes EVENT_NODE_MAX =
        { setEventNode .zero lfd .listening .doAccept none t with status := true } ∧
      s.fds lfd = some .listen ∧ s.reg lfd = some { events := .listening, ptr := EVENT_NODE_MAX, mark := mark } ∧
      ∀ fd, fd ≠ lfd → s.reg fd = none
  fds : ∀ fd c, s.fds fd ≠ some (.conn c)
  heap : ∀ addr, s.heap addr = none
  accepted : s.accepted = 0

end SystemFunc.Reactor
