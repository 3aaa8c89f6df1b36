import Mathlib.Data.Finset.Basic
import SystemFunc.CLang
import SystemFunc.Lib.Steps

/-!
# The server of `internet/poll.c`

The loop of `main` takes three kinds of steps: `poll`, the test of the listening socket, and a pass of the loop over the
other entries of `fds`. An action carries what the kernel answers. `fds` is not initialised but for the descriptors, so
that a run starts with any `events` and `revents`. A write behind the last entry is undefined.

The state remembers which descriptors the last `poll` has reported readable.
-/

namespace SystemFunc.Poll

def OPEN_MAX : Nat := 1024

def EINTR : Nat := 4

def POLLIN : UInt16 := 1
def POLLERR : UInt16 := 8
def POLLHUP : UInt16 := 16
def POLLNVAL : UInt16 := 32

structure PollFd where
  fd : Int
  events : UInt16
  revents : UInt16
  deriving DecidableEq

/-- `revents & POLLIN`. -/
def PollFd.Readable (p : PollFd) : Prop := p.revents &&& POLLIN ≠ 0

instance : DecidablePred PollFd.Readable := fun p => inferInstanceAs (Decidable (p.revents &&& POLLIN ≠ 0))

/-- What `poll` may store for an entry: what was asked for, or an error; nothing for a negative descriptor. -/
def PollFd.Answer (p : PollFd) (revents : UInt16) : Prop :=
  if p.fd < 0 then revents = 0 else revents &&& ~~~(p.events ||| POLLERR ||| POLLHUP ||| POLLNVAL) = 0

instance (p : PollFd) : DecidablePred p.Answer := fun revents =>
  inferInstanceAs (Decidable (if p.fd < 0 then revents = 0 else
    revents &&& ~~~(p.events ||| POLLERR ||| POLLHUP ||| POLLNVAL) = 0))

/-- Where the loop of `main` is: before `poll`, before the test of the listening socket, or before that of `fds[i]`. -/
inductive Ctrl where
  | poll
  | listen (nready : Int)
  | scan (i : Nat)
  deriving DecidableEq

structure State where
  fds : List PollFd
  nfds : Nat
  ctrl : Ctrl
  opened : Finset Int
  reported : List Int

/-- What `Read` answers, and then `Write`. -/
inductive ReadAnswer where
  | failed (errno : Nat)
  | eof
  | data (written : Except Nat Nat)

inductive Act where
  | poll (res : Except Nat (List UInt16))
  | listen (accepted : Except Nat Int)
  | scan (answer : ReadAnswer)

/-! ## `poll` -/

/-- The entries that were polled have the `revents` of the answer, and the others keep what they have. -/
def store : List PollFd → List UInt16 → List PollFd
  | p :: fds, r :: res => { p with revents := r } :: store fds res
  | fds, _ => fds

/-- The descriptors of the entries with `POLLIN`. -/
def readable (fds : List PollFd) : List Int := (fds.filter (·.Readable)).map PollFd.fd

/-- `poll` answers for the first `nfds` entries, and returns how many of the answers are not `0`. -/
def pollSection (s : State) : Except Nat (List UInt16) → Except Stop State
  | .error errno => if errno = EINTR then .ok s else .error (.exit errno "call poll error")
  | .ok res =>
    if res.length = s.nfds ∧ ∀ q ∈ s.fds.zip res, q.1.Answer q.2 then
      let fds := store s.fds res
      .ok { s with
        fds := fds
        ctrl := .listen (res.countP (· ≠ 0))
        reported := readable (fds.take s.nfds) }
    else .error .disabled

/-! ## The listening socket -/

/-- The first entry after the listening socket whose descriptor is negative, or `OPEN_MAX`. -/
def freeSlot (fds : List PollFd) : Nat := 1 + (fds.drop 1).findIdx fun p => p.fd < 0

/-- `fds[i].fd = cfd; fds[i].events = POLLIN;`. -/
def fill (fds : List PollFd) (i : Nat) (cfd : Int) : Except Stop (List PollFd) :=
  match fds[i]? with
  | none => .error .undefined
  | some p => .ok (fds.set i { p with fd := cfd, events := POLLIN })

/-- `if (nready <= 0) continue;`. -/
def afterListen (nready : Int) : Ctrl := if nready ≤ 0 then .poll else .scan 1

/-- A descriptor that is closed again is stored all the same. -/
def newConnect (s : State) (nready : Int) : Except Nat Int → Except Stop State
  | .error errno => .error (.exit errno "call accept failed")
  | .ok cfd =>
    if 0 ≤ cfd ∧ cfd ∉ s.opened then do
      let i := freeSlot s.fds
      let opened := if i ≥ OPEN_MAX then s.opened else insert cfd s.opened
      let fds ← fill s.fds i cfd
      return { s with
        fds := fds
        nfds := if i + 1 > s.nfds then i + 1 else s.nfds
        ctrl := afterListen nready
        opened := opened }
    else .error .disabled

def listenSection (s : State) (nready : Int) (accepted : Except Nat Int) : Except Stop State :=
  match s.fds[0]? with
  | none => .error .undefined
  | some p =>
    if p.Readable then newConnect s (nready - 1) accepted
    else .ok { s with ctrl := afterListen nready }

/-! ## The other entries -/

/-- A pass of the loop over `fds`, or what comes after the loop. -/
def scanSection (s : State) (i : Nat) (answer : ReadAnswer) : Except Stop State :=
  if i < s.nfds then
    match s.fds[i]? with
    | none => .error .undefined
    | some p =>
      if p.Readable then
        match answer with
        | .failed errno => .error (.exit errno "call Read failed")
        | .eof => .ok { s with
            fds := s.fds.set i { p with fd := -1 }
            ctrl := .scan (i + 1)
            opened := s.opened.erase p.fd }
        | .data (.ok _) => .ok { s with ctrl := .scan (i + 1) }
        | .data (.error errno) => .error (.exit errno "call Write failed")
      else .ok { s with ctrl := .scan (i + 1) }
  else .ok { s with ctrl := .poll }

def act (s : State) (a : Act) : Except Stop State :=
  match s.ctrl, a with
  | .poll, .poll res => pollSection s res
  | .listen nready, .listen accepted => listenSection s nready accepted
  | .scan i, .scan answer => scanSection s i answer
  | _, _ => .error .disabled

/-- After something undefined, there is no state. -/
def step : Option State → Act → Option (Option State)
  | none, _ => none
  | some s, a =>
    match act s a with
    | .ok t => some (some t)
    | .error .undefined => some none
    | .error _ => none

/-- `main` up to the loop: `garbage` is what `fds` holds before. -/
def start (fd : Int) (opened : Finset Int) (garbage : List PollFd) : State where
  fds := (garbage.map fun p => { p with fd := -1 }).modify 0 fun p => { p with fd := fd, events := POLLIN }
  nfds := 1
  ctrl := .poll
  opened := opened
  reported := []

/-- Before the first `poll`: the listening socket is open. -/
def Started (garbage : List PollFd) (s : State) : Prop :=
  garbage.length = OPEN_MAX ∧ ∃ fd ∈ s.opened, 0 ≤ fd ∧ s = start fd s.opened garbage

/-! ## What is asked of the loop -/

/-- The listening socket is ready, so that `accept` is called. -/
def Ready (s : State) : Prop := ∃ p ∈ s.fds[0]?, p.Readable

instance (s : State) : Decidable (Ready s) := inferInstanceAs (Decidable (∃ p ∈ s.fds[0]?, p.Readable))

/-- An entry for a new client is free. -/
def Free (s : State) : Prop := ∃ p ∈ s.fds.drop 1, p.fd < 0

instance (s : State) : Decidable (Free s) := inferInstanceAs (Decidable (∃ p ∈ s.fds.drop 1, p.fd < 0))

/-- Where `accept` is called, an entry is free. -/
def HasRoom : Option State → Act → Prop
  | some s, .listen (.ok _) => Ready s → Free s
  | _, _ => True

instance : ∀ o, DecidablePred (HasRoom o)
  | some s, .listen (.ok _) => inferInstanceAs (Decidable (Ready s → Free s))
  | some _, .listen (.error _) | some _, .poll _ | some _, .scan _ | none, _ => isTrue trivial

/-- A client that is refused leaves the table as it was, and its descriptor is closed. -/
def Refused (s : State) (cfd : Int) (t : State) : Prop := t.fds = s.fds ∧ t.nfds = s.nfds ∧ cfd ∉ t.opened

/-- The step writes to `fds` where there are entries, `nfds` stays in range, and a client without a free entry is
refused. -/
def Keeps (o : Option State) (a : Act) : Prop :=
  ∀ o', step o a = some o' → ∃ t, o' = some t ∧ t.nfds ≤ OPEN_MAX ∧
    ∀ s cfd, o = some s → a = .listen (.ok cfd) → Ready s → ¬Free s → Refused s cfd t

/-- The descriptor on which `Read` is called next. -/
def State.nextRead (s : State) : Option Int :=
  match s.ctrl with
  | .scan i => if i < s.nfds then (s.fds[i]?.filter (·.Readable)).map PollFd.fd else none
  | _ => none

/-- `Read` is only called on what the last `poll` has reported. -/
def OnlyReady (o : Option State) : Prop := ∀ s, o = some s → ∀ fd ∈ s.nextRead, fd ∈ s.reported

end SystemFunc.Poll
