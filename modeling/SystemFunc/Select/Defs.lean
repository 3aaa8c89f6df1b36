import Mathlib.Data.Finset.Card
import SystemFunc.CLang
import SystemFunc.Lib.Steps

/-!
# The server of `internet/echo_server_tcp_udp_select.c`

`Server` are the sockets and the global variables of the program, with the descriptors that are open in its process. The
loop of `main` takes four kinds of steps: `select`, the test of the listening socket, the test of one slot of
`client_list`, and the test of the UDP socket. An action carries what the kernel answers. `handler_tcp_new_connect` is
for any rule by which `accept` chooses among the descriptors; in the loop it answers with one below `FD_SETSIZE` that is
not open. `tcp_socket` and `udp_socket` are `0` when they are not used; the
standard descriptors are open, so that no socket is `0`.

The state remembers on which descriptors `accept`, `read` or `recvfrom` has been called since `select` last answered.
-/

namespace SystemFunc.Select

def MAX_TCP_CLIENT : Nat := 1024
def FD_SETSIZE : Int := 1024

def EINTR : Nat := 4
def ECONNRESET : Nat := 104

structure Server where
  tcpSocket : Int
  udpSocket : Int
  allRSet : Finset Int
  maxFd : Int
  clientList : List Int
  maxIdx : Int
  opened : Finset Int

/-- A descriptor that a set of type `fd_set` can hold. -/
def InRange (fd : Int) : Prop := 0 ≤ fd ∧ fd < FD_SETSIZE

instance (fd : Int) : Decidable (InRange fd) := inferInstanceAs (Decidable (0 ≤ fd ∧ fd < FD_SETSIZE))

/-- The macros of `fd_set` are undefined elsewhere. -/
def inRange (fd : Int) : Except Stop Unit := if InRange fd then .ok () else .error .undefined

def fdIsset (fd : Int) (set : Finset Int) : Except Stop Bool := do
  inRange fd
  return decide (fd ∈ set)

/-! ## The handlers -/

def addToFdSet (s : Server) (fd : Int) : Except Stop Server := do
  inRange fd
  return { s with allRSet := insert fd s.allRSet, maxFd := if fd > s.maxFd then fd else s.maxFd }

def removeFromFdSet (s : Server) (fd : Int) : Except Stop Server := do
  inRange fd
  return { s with allRSet := s.allRSet.erase fd }

/-- `Grants`: with which descriptors `accept` may answer, while some are open. -/
def handlerTcpNewConnect (Grants : Finset Int → Int → Prop) [DecidableRel Grants] (s : Server) :
    Except Nat Int → Except Stop Server
  | .error errno => .error (.exit errno "call accept failed")
  | .ok cfd =>
    if Grants s.opened cfd then
      let idx := s.clientList.findIdx fun c => c < 0
      -- `cfd` is closed again
      if idx ≥ MAX_TCP_CLIENT then .ok s
      else
        addToFdSet { s with
          clientList := s.clientList.set idx cfd
          maxIdx := if idx > s.maxIdx then idx else s.maxIdx
          opened := insert cfd s.opened } cfd
    else .error .disabled

/-- One that fits into a set. -/
def Small (opened : Finset Int) (fd : Int) : Prop := InRange fd ∧ fd ∉ opened

instance : DecidableRel Small := fun opened fd => inferInstanceAs (Decidable (InRange fd ∧ fd ∉ opened))

def closeTcpConnect (s : Server) (cfd : Int) : Except Stop Server := do
  let s ← removeFromFdSet s cfd
  return { s with
    clientList := s.clientList.set (s.clientList.findIdx fun c => cfd = c) (-1)
    opened := s.opened.erase cfd }

/-- What `read` answers, and then `write`. -/
inductive ReadAnswer where
  | failed (errno : Nat)
  | eof
  | data (written : Except Nat Nat)

def handlerTcpRead (s : Server) (cfd : Int) : ReadAnswer → Except Stop Server
  | .failed errno =>
    if errno = EINTR then .ok s
    else if errno = ECONNRESET then closeTcpConnect s cfd
    else .error (.exit errno "read failed")
  | .eof => closeTcpConnect s cfd
  | .data (.ok _) => .ok s
  | .data (.error errno) => .error (.exit errno "call Write failed")

/-- With what `recvfrom` and `sendto` answer. -/
def handlerUdpRead (s : Server) : (received sent : Except Nat Nat) → Except Stop Server
  | .error errno, _ => .error (.exit errno "call recvfrom failed")
  | .ok _, .error errno => .error (.exit errno "call sendto failed")
  | .ok _, .ok _ => .ok s

/-! ## `main` -/

/-- Where the loop of `main` is: before `select`, before the test of the listening socket, before the test of slot `idx`
of `client_list`, or before that of the UDP socket. -/
inductive Ctrl where
  | select
  | listen (nreadys : Int)
  | scan (nreadys : Int) (idx : Nat)
  | udp (nreadys : Int)
  deriving DecidableEq

structure State where
  server : Server
  ctrl : Ctrl
  runRSet : Finset Int
  serviced : List Int

inductive Act where
  | select (res : Except Nat (Finset Int))
  | listen (accepted : Except Nat Int)
  | scan (answer : ReadAnswer)
  | udp (received sent : Except Nat Nat)

/-- `sock && FD_ISSET(sock, &runRSet)`. -/
def sockReady (sock : Int) (runRSet : Finset Int) : Except Stop Bool :=
  if sock ≠ 0 then fdIsset sock runRSet else .ok false

def listenSection (Grants : Finset Int → Int → Prop) [DecidableRel Grants] (s : State) (nreadys : Int)
    (accepted : Except Nat Int) : Except Stop State := do
  let ready ← sockReady s.server.tcpSocket s.runRSet
  if ready then
    let nreadys := nreadys - 1
    let server ← handlerTcpNewConnect Grants s.server accepted
    return { s with
      server := server
      ctrl := if nreadys ≤ 0 then .select else .scan nreadys 0
      serviced := s.serviced ++ [s.server.tcpSocket] }
  else return { s with ctrl := if nreadys ≤ 0 then .select else .scan nreadys 0 }

/-- A pass of the loop over `client_list`, or what comes after the loop. -/
def scanSection (s : State) (nreadys : Int) (idx : Nat) (answer : ReadAnswer) : Except Stop State :=
  if s.server.tcpSocket ≠ 0 ∧ idx ≤ s.server.maxIdx then
    match s.server.clientList[idx]? with
    | none => .error .undefined
    | some cfd =>
      if cfd < 0 then .ok { s with ctrl := .scan nreadys (idx + 1) }
      else do
        let ready ← fdIsset cfd s.runRSet
        if ready then
          let server ← handlerTcpRead s.server cfd answer
          return { s with server := server, ctrl := .scan (nreadys - 1) (idx + 1), serviced := s.serviced ++ [cfd] }
        else return { s with ctrl := .scan nreadys (idx + 1) }
  else .ok { s with ctrl := if nreadys ≤ 0 then .select else .udp nreadys }

def udpSection (s : State) (received sent : Except Nat Nat) : Except Stop State := do
  let ready ← sockReady s.server.udpSocket s.runRSet
  if ready then
    let server ← handlerUdpRead s.server received sent
    return { s with server := server, ctrl := .select, serviced := s.serviced ++ [s.server.udpSocket] }
  else return { s with ctrl := .select }

/-- `select` answers with some of the descriptors it was asked about, and their number. -/
def act (s : State) (a : Act) : Except Stop State :=
  match s.ctrl, a with
  | .select, .select (.error errno) =>
    if errno = EINTR then .ok s else .error (.exit errno "call select failed")
  | .select, .select (.ok runRSet) =>
    if runRSet ⊆ s.server.allRSet then
      .ok { s with ctrl := .listen runRSet.card, runRSet := runRSet, serviced := [] }
    else .error .disabled
  | .listen nreadys, .listen accepted => listenSection Small s nreadys accepted
  | .scan nreadys idx, .scan answer => scanSection s nreadys idx answer
  | .udp _, .udp received sent => udpSection s received sent
  | _, _ => .error .disabled

def step (s : State) (a : Act) : Option State := (act s a).toOption

/-- The variables before the sockets are added. -/
def Server.blank (tcpSocket udpSocket : Int) (opened : Finset Int) : Server where
  tcpSocket := tcpSocket
  udpSocket := udpSocket
  allRSet := ∅
  maxFd := -1
  clientList := List.replicate MAX_TCP_CLIENT (-1)
  maxIdx := -1
  opened := opened

/-- `if (sock) add_to_fd_set(sock)`. -/
def addSocket (s : Server) (sock : Int) : Except Stop Server := if sock ≠ 0 then addToFdSet s sock else .ok s

/-- `main` up to the loop, with the sockets that have been opened. -/
def start (tcpSocket udpSocket : Int) (opened : Finset Int) : Except Stop Server := do
  let s ← addSocket (Server.blank tcpSocket udpSocket opened) tcpSocket
  addSocket s udpSocket

/-- A socket of the program is open. -/
def Socket (opened : Finset Int) (sock : Int) : Prop := sock ≠ 0 → InRange sock ∧ sock ∈ opened

/-- Before the first `select`: the sockets that are used are open, and they are two. -/
structure Init (s : State) : Prop where
  server : ∃ tcpSocket udpSocket opened, Socket opened tcpSocket ∧ Socket opened udpSocket ∧
    (tcpSocket ≠ 0 → tcpSocket ≠ udpSocket) ∧ start tcpSocket udpSocket opened = .ok s.server
  ctrl : s.ctrl = .select
  runRSet : s.runRSet = ∅
  serviced : s.serviced = []

/-! ## Table and dispatch -/

/-- The sockets that are used. -/
def Server.IsListening (s : Server) (fd : Int) : Prop := fd ≠ 0 ∧ (fd = s.tcpSocket ∨ fd = s.udpSocket)

/-- The slots of `client_list` hold different descriptors, or `-1`; `allRSet` are the sockets and these descriptors; and
`max_fd` and `max_idx` are bounds. -/
structure Table (s : Server) : Prop where
  entry : ∀ (idx : Nat) fd, s.clientList[idx]? = some fd → fd = -1 ∨ 0 ≤ fd
  distinct : ∀ (i j : Nat) fd, s.clientList[i]? = some fd → s.clientList[j]? = some fd → 0 ≤ fd → i = j
  allRSet : ∀ fd, fd ∈ s.allRSet ↔ s.IsListening fd ∨ 0 ≤ fd ∧ fd ∈ s.clientList
  maxFd : ∀ fd ∈ s.allRSet, fd ≤ s.maxFd
  maxIdx : ∀ (idx : Nat) fd, s.clientList[idx]? = some fd → 0 ≤ fd → idx ≤ s.maxIdx

/-- What has been serviced since `select`: nothing twice, nothing that was not reported, and everything that was when
the loop comes back to `select`. -/
structure Dispatched (s : State) : Prop where
  once : s.serviced.Nodup
  reported : ∀ fd ∈ s.serviced, fd ∈ s.runRSet
  all : s.ctrl = .select → ∀ fd ∈ s.runRSet, fd ∈ s.serviced

end SystemFunc.Select
