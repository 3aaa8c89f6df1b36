import SystemFunc.Lib.Entries

/-!
# `internet/unix_domain_socket_send_fd_server.c` and `internet/unix_domain_socket_send_fd_cli.c`

The server connects to a TCP server for each client, sends the client the descriptor with `sendmsg`, and closes its own
at once. Any number of clients come, and each may exit everywhere; so may the server. A message that has not been
received keeps its connection open, and is gone with the client. A write to a client that has exited kills the server.

- `step`: the system calls of all the processes;
- `Moves`, `step_moves`: what a step does.
-/

namespace SystemFunc.SendFd

/-- What a descriptor refers to; `server u` and `client u` are the two ends of the connection of client `u`. -/
inductive File where
  | inherited
  | listen
  | server (u : Nat)
  | client (u : Nat)
  | tcp (k : Nat)
  deriving DecidableEq

/-- The listening socket, and the descriptors in use in the server and in each client. -/
structure Setup where
  openMax : Nat
  lfd : Nat
  inherited : Nat → Bool
  client : Nat → Nat → Bool

def Setup.fds (v : Setup) : Entries File := fun n =>
  if n = v.lfd then some .listen else if v.inherited n then some .inherited else none

def Setup.clientFds (v : Setup) (u : Nat) : Entries File := fun n => if v.client u n then some .inherited else none

/-- A new descriptor. -/
def Setup.Free (v : Setup) (fds : Entries File) (n : Nat) : Prop := n < v.openMax ∧ fds n = none

instance (v : Setup) (fds : Entries File) (n : Nat) : Decidable (v.Free fds n) :=
  inferInstanceAs (Decidable (_ ∧ _))

def Setup.Open (v : Setup) (fds : Entries File) (f : File) : Prop := ∃ n < v.openMax, fds n = some f

instance (v : Setup) (fds : Entries File) (f : File) : Decidable (v.Open fds f) :=
  decidable_of_iff (((List.range v.openMax).any fun n => decide (fds n = some f)) = true) (by simp [Setup.Open])

/-- In front of a call. -/
inductive ServerCtrl where
  | accept
  | connect (cfd : Nat)
  | sendmsg (cfd sendFd : Nat)
  | closeSend (cfd sendFd : Nat)
  | closeConn (cfd : Nat)
  | exited
  deriving DecidableEq

/-- In `recvmsg`, in front of `close(ufd)`, in the loop behind it, or exited. -/
inductive ClientCtrl where
  | recvmsg (ufd : Nat)
  | close (ufd sendFd : Nat)
  | loop (sendFd : Nat)
  | exited
  deriving DecidableEq

/-- `inbox` is the file in a message that has not been received. -/
structure Client where
  fds : Entries File
  ctrl : ClientCtrl
  inbox : Option File

/-- `conns` connections have been made to the TCP server; `sent` are the clients that `sendmsg` has been called for. -/
structure State where
  ctrl : ServerCtrl
  fds : Entries File
  backlog : List Nat
  conns : Nat
  sent : List Nat
  clients : List Client

inductive Act where
  | start (ufd : Nat)
  | accept (cfd : Nat)
  | connect (sendFd : Nat)
  | sendmsg
  | close
  | kill
  | recvmsg (u sendFd : Nat)
  | recvEof (u : Nat)
  | closeUfd (u : Nat)
  | exit (u : Nat)

def start (v : Setup) : State where
  ctrl := .accept
  fds := v.fds
  backlog := []
  conns := 0
  sent := []
  clients := []

/-- The server exits, also by `PrintError`. -/
def State.stop (s : State) : State := { s with ctrl := .exited, fds := .empty, backlog := [] }

def State.set (s : State) (u : Nat) (c : Client) : State := { s with clients := s.clients.set u c }

/-- Nothing is left of a client. -/
def Client.exit : Client := ⟨.empty, .exited, none⟩

/-- Client `u` goes on by `f`. -/
def State.client (s : State) (u : Nat) (f : Client → Option Client) : Option State :=
  s.clients[u]?.bind fun c => (f c).map fun d => s.set u d

def step (v : Setup) (s : State) : Act → Option State
  | .start ufd =>
    if s.ctrl ≠ .exited ∧ v.Free (v.clientFds s.clients.length) ufd then
      some { s with
        backlog := s.backlog ++ [s.clients.length]
        clients := s.clients ++
          [⟨(v.clientFds s.clients.length).add ufd (.client s.clients.length), .recvmsg ufd, none⟩] }
    else none
  | .accept cfd =>
    match s.ctrl, s.backlog with
    | .accept, u :: rest =>
      if v.Free s.fds cfd then
        some { s with fds := s.fds.add cfd (.server u), ctrl := .connect cfd, backlog := rest }
      else none
    | _, _ => none
  | .connect sendFd =>
    match s.ctrl with
    | .connect cfd =>
      if v.Free s.fds sendFd then
        some { s with fds := s.fds.add sendFd (.tcp s.conns), ctrl := .sendmsg cfd sendFd, conns := s.conns + 1 }
      else none
    | _ => none
  | .sendmsg =>
    match s.ctrl with
    | .sendmsg cfd sendFd =>
      match s.fds cfd, s.fds sendFd with
      | some (.server u), some f =>
        s.clients[u]?.map fun c =>
          -- `SIGPIPE`.
          if c.ctrl = .exited then s.stop
          else { s.set u { c with inbox := some f } with sent := s.sent ++ [u], ctrl := .closeSend cfd sendFd }
      | _, _ => none
    | _ => none
  | .close =>
    match s.ctrl with
    | .closeSend cfd sendFd => some { s with fds := s.fds.remove sendFd, ctrl := .closeConn cfd }
    | .closeConn cfd => some { s with fds := s.fds.remove cfd, ctrl := .accept }
    | _ => none
  | .kill => if s.ctrl ≠ .exited then some s.stop else none
  | .recvmsg u sendFd =>
    s.client u fun c =>
      match c.ctrl, c.inbox with
      | .recvmsg ufd, some f =>
        if v.Free c.fds sendFd then some ⟨c.fds.add sendFd f, .close ufd sendFd, none⟩ else none
      | _, _ => none
  -- Nothing will come: `send_fd` stays `-1`.
  | .recvEof u =>
    if u ∉ s.backlog ∧ ¬v.Open s.fds (.server u) then
      s.client u fun c =>
        match c.ctrl, c.inbox with
        | .recvmsg _, none => some .exit
        | _, _ => none
    else none
  | .closeUfd u =>
    s.client u fun c =>
      match c.ctrl with
      | .close ufd sendFd => some { c with fds := c.fds.remove ufd, ctrl := .loop sendFd }
      | _ => none
  | .exit u => s.client u fun c => if c.ctrl ≠ .exited then some .exit else none

variable {v : Setup} {s t : State} {a : Act}

/-! ## What a step does -/

/-- A client goes on by itself. -/
inductive Turns (c : Client) : Client → Prop
  | receive {ufd sendFd : Nat} {f : File} (hctrl : c.ctrl = .recvmsg ufd) (hinbox : c.inbox = some f)
      (hfree : c.fds sendFd = none) : Turns c ⟨c.fds.add sendFd f, .close ufd sendFd, none⟩
  | close {ufd sendFd : Nat} (hctrl : c.ctrl = .close ufd sendFd) :
      Turns c { c with fds := c.fds.remove ufd, ctrl := .loop sendFd }
  | exit : Turns c .exit

inductive Moves (v : Setup) (s : State) : State → Prop
  | start {ufd : Nat} (hrun : s.ctrl ≠ .exited) (hfree : (v.clientFds s.clients.length) ufd = none) :
      Moves v s { s with
        backlog := s.backlog ++ [s.clients.length]
        clients := s.clients ++
          [⟨(v.clientFds s.clients.length).add ufd (.client s.clients.length), .recvmsg ufd, none⟩] }
  | accept {cfd u : Nat} {rest : List Nat} (hctrl : s.ctrl = .accept) (hbacklog : s.backlog = u :: rest)
      (hfree : v.Free s.fds cfd) :
      Moves v s { s with fds := s.fds.add cfd (.server u), ctrl := .connect cfd, backlog := rest }
  | connect {cfd sendFd : Nat} (hctrl : s.ctrl = .connect cfd) (hfree : s.fds sendFd = none) :
      Moves v s
        { s with fds := s.fds.add sendFd (.tcp s.conns), ctrl := .sendmsg cfd sendFd, conns := s.conns + 1 }
  | sendmsg {cfd sendFd u : Nat} {f : File} {c : Client} (hctrl : s.ctrl = .sendmsg cfd sendFd)
      (hcfd : s.fds cfd = some (.server u)) (hf : s.fds sendFd = some f) (hc : s.clients[u]? = some c)
      (hlive : c.ctrl ≠ .exited) :
      Moves v s { s.set u { c with inbox := some f } with sent := s.sent ++ [u], ctrl := .closeSend cfd sendFd }
  | closeSend {cfd sendFd : Nat} (hctrl : s.ctrl = .closeSend cfd sendFd) :
      Moves v s { s with fds := s.fds.remove sendFd, ctrl := .closeConn cfd }
  | closeConn {cfd : Nat} (hctrl : s.ctrl = .closeConn cfd) :
      Moves v s { s with fds := s.fds.remove cfd, ctrl := .accept }
  | stop : Moves v s s.stop
  | client {u : Nat} {c d : Client} (hc : s.clients[u]? = some c) (hd : Turns c d) : Moves v s (s.set u d)

theorem moves_client {f : Client → Option Client} (hf : ∀ c d, f c = some d → Turns c d) (h : s.client u f = some t) :
    Moves v s t := by
  obtain ⟨c, hc, h⟩ := Option.bind_eq_some_iff.1 h
  obtain ⟨d, hd, rfl⟩ := Option.map_eq_some_iff.1 h
  exact .client hc (hf c d hd)

theorem step_moves (hs : step v s a = some t) : Moves v s t := by
  cases a with
  | start ufd =>
    obtain ⟨⟨hrun, -, hfree⟩, h⟩ := Option.ite_none_right_eq_some.1 hs
    cases h
    exact .start hrun hfree
  | accept cfd =>
    simp only [step] at hs
    split at hs
    next hctrl hbacklog =>
      obtain ⟨hfree, h⟩ := Option.ite_none_right_eq_some.1 hs
      cases h
      exact .accept hctrl hbacklog hfree
    next => cases hs
  | connect sendFd =>
    simp only [step] at hs
    split at hs
    next hctrl =>
      obtain ⟨⟨-, hfree⟩, h⟩ := Option.ite_none_right_eq_some.1 hs
      cases h
      exact .connect hctrl hfree
    next => cases hs
  | sendmsg =>
    simp only [step] at hs
    split at hs
    next hctrl =>
      split at hs
      next hcfd hf =>
        obtain ⟨c, hc, rfl⟩ := Option.map_eq_some_iff.1 hs
        split
        next => exact .stop
        next hlive => exact .sendmsg hctrl hcfd hf hc hlive
      next => cases hs
    next => cases hs
  | close =>
    simp only [step] at hs
    split at hs <;> cases hs
    · exact .closeSend ‹_›
    · exact .closeConn ‹_›
  | kill =>
    obtain ⟨-, h⟩ := Option.ite_none_right_eq_some.1 hs
    cases h
    exact .stop
  | recvmsg u sendFd =>
    refine moves_client (fun c d h => ?_) hs
    split at h
    next hctrl hinbox =>
      obtain ⟨⟨-, hfree⟩, h⟩ := Option.ite_none_right_eq_some.1 h
      cases h
      exact .receive hctrl hinbox hfree
    next => cases h
  | recvEof u =>
    obtain ⟨-, h⟩ := Option.ite_none_right_eq_some.1 hs
    refine moves_client (fun c d h => ?_) h
    split at h <;> cases h
    exact .exit
  | closeUfd u =>
    refine moves_client (fun c d h => ?_) hs
    split at h <;> cases h
    exact .close ‹_›
  | exit u =>
    refine moves_client (fun c d h => ?_) hs
    obtain ⟨-, h⟩ := Option.ite_none_right_eq_some.1 h
    cases h
    exact .exit

end SystemFunc.SendFd
