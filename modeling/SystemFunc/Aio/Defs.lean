import SystemFunc.CLang
import SystemFunc.Lib.Steps

/-!
# The server of `internet/aio_echo_server.c`

The nodes of `gNodeList` with the requests that the kernel has for them. A pass of the main loop, the handler of
`SIGINT` and each callback are one step; so is the completion of a request. An action carries what the kernel answers.

A request that has been submitted completes once, or is cancelled by `aio_cancel`; then its notification is still to
come (`Req.finished`), and `aio_error` tells what has become of it. `ECANCELED` is only for requests that were
cancelled.

A descriptor stands for the connection it was accepted for, so that a number that is used again is a new descriptor. The
state remembers of each connection how often the status of a node left `1` for it, and how often it was closed.
-/

namespace SystemFunc.Aio

def BUF_SIZE : Nat := 1024
def AIOCB_CNT : Nat := 5

def EINPROGRESS : Nat := 115
def ECANCELED : Nat := 125

/-- `sigev_notify_function`. -/
inductive Callback where
  | readCb
  | writeCb
  deriving DecidableEq

/-- What has become of a request. -/
inductive Result where
  | done (n : Nat)
  | failed (errno : Nat)
  | canceled
  deriving DecidableEq

/-- The request of an `aiocb`: none whose notification is still to come, one that is submitted, or one that is finished
and whose notification is still to come. -/
inductive Req where
  | none
  | submitted (cb : Callback)
  | finished (cb : Callback) (res : Result)
  deriving DecidableEq

/-- `fildes` and `nbytes` are those of `cb`; `status` is `true` for `1`. -/
structure Node where
  status : Bool
  fildes : Nat
  nbytes : Nat
  req : Req
  deriving DecidableEq

/-- A connection: whether a node was found for it, and what is remembered of it. -/
structure Conn where
  served : Bool
  left : Nat
  closed : Nat
  deriving DecidableEq

/-- How the process has ended. -/
inductive End where
  | finished
  | exited
  | undefined
  deriving DecidableEq

structure State where
  gQuitFlag : Bool
  actCnt : Int
  nodes : List Node
  conns : List Conn
  ended : Option End
  deriving DecidableEq

/-- What `AcceptAlarm` answers: nothing within the time, an error, or a connection, with the answer to the `aio_read`
for it. -/
inductive AcceptAnswer where
  | interrupted
  | failed (errno : Nat)
  | connection (submitted : Except Nat Unit)

inductive CancelAnswer where
  | failed (errno : Nat)
  | canceled
  | notCanceled
  | allDone

inductive Act where
  | pass (accepted : AcceptAnswer)
  | sigInt (answers : Nat → CancelAnswer)
  | complete (idx : Nat) (res : Result)
  | callback (idx : Nat) (submitted : Except Nat Unit)

/-- `aio_error`; there is nothing to ask for where there is no request. -/
def aioError : Req → Except Stop Nat
  | .none => .error .undefined
  | .submitted _ => .ok EINPROGRESS
  | .finished _ (.done _) => .ok 0
  | .finished _ (.failed errno) => .ok errno
  | .finished _ .canceled => .ok ECANCELED

def aioReturn : Result → Int
  | .done n => n
  | _ => -1

/-- `status = 0; --actCnt; close(aio_fildes)`. -/
def retire (s : State) (idx : Nat) (n : Node) : State :=
  { s with
    nodes := s.nodes.set idx { n with status := false }
    actCnt := s.actCnt - 1
    conns := s.conns.modify n.fildes fun c =>
      { c with left := c.left + n.status.toNat, closed := c.closed + 1 } }

/-- A request for the node, if the call succeeds. -/
def submit (s : State) (idx : Nat) (n : Node) (headStr : String) : Except Nat Unit → Except Stop State
  | .ok _ => .ok { s with nodes := s.nodes.set idx n }
  | .error errno => .error (.exit errno headStr)

/-! ## The callbacks -/

/-- `bufp[ret]` is in the buffer for `ret` from `0` to `BUF_SIZE - 1`. -/
def readCb (s : State) (idx : Nat) (n : Node) (ret : Int) (submitted : Except Nat Unit) : Except Stop State :=
  if ret = 0 then .ok (retire s idx n)
  else if 0 ≤ ret ∧ ret < BUF_SIZE then
    submit s idx { n with nbytes := ret.toNat, req := .submitted .writeCb } "call aio_write failed" submitted
  else .error .undefined

def writeCb (s : State) (idx : Nat) (n : Node) (submitted : Except Nat Unit) : Except Stop State :=
  if s.gQuitFlag then .ok (retire s idx n)
  else submit s idx { n with nbytes := BUF_SIZE, req := .submitted .readCb } "call aio_read failed" submitted

/-- The notification of a request is delivered. -/
def callback (s : State) (idx : Nat) (submitted : Except Nat Unit) : Except Stop State :=
  match s.nodes[idx]? with
  | none => .error .disabled
  | some n =>
    match n.req with
    | .finished .readCb res => readCb s idx { n with req := .none } (aioReturn res) submitted
    | .finished .writeCb _ => writeCb s idx { n with req := .none } submitted
    | _ => .error .disabled

/-! ## `sig_int` -/

def cancelNode (answers : Nat → CancelAnswer) (s : State) (idx : Nat) : Except Stop State :=
  match s.nodes[idx]? with
  | none => .error .undefined
  | some n =>
    if !n.status then .ok s
    else match answers idx, n.req with
      | .failed errno, _ => .error (.exit errno "call aio_cancel failed")
      | .canceled, .submitted cb => .ok { s with nodes := s.nodes.set idx { n with req := .finished cb .canceled } }
      | .canceled, _ => .error .disabled
      | _, _ => .ok s

def sigInt (s : State) (answers : Nat → CancelAnswer) : Except Stop State :=
  (List.range AIOCB_CNT).foldlM (cancelNode answers) { s with gQuitFlag := true }

/-! ## `main` -/

def acceptSection (s : State) : AcceptAnswer → Except Stop State
  | .interrupted => .ok s
  | .failed errno => .error (.exit errno "call accept failed")
  | .connection submitted =>
    -- `GetUnusedNode`
    let idx := s.nodes.findIdx fun n => !n.status
    if idx ≥ AIOCB_CNT then .ok { s with conns := s.conns ++ [{ served := false, left := 0, closed := 1 }] }
    else
      submit { s with
        actCnt := s.actCnt + 1
        conns := s.conns ++ [{ served := true, left := 0, closed := 0 }] }
        idx { status := true, fildes := s.conns.length, nbytes := BUF_SIZE, req := .submitted .readCb }
        "call aio_read failed" submitted

def scanNode (s : State) (idx : Nat) : Except Stop State :=
  match s.nodes[idx]? with
  | none => .error .undefined
  | some n =>
    if !n.status then .ok s
    else do
      let ret ← aioError n.req
      if ret = 0 ∨ ret = EINPROGRESS then .ok s
      else if ret = ECANCELED then .ok (retire s idx n)
      else .error (.exit ret "call aio_error failed")

def pass (s : State) (accepted : AcceptAnswer) : Except Stop State :=
  if s.gQuitFlag && s.actCnt = 0 then .ok { s with ended := some .finished }
  else if s.gQuitFlag then (List.range AIOCB_CNT).foldlM scanNode s
  else do
    let s ← acceptSection s accepted
    (List.range AIOCB_CNT).foldlM scanNode s

/-! ## Steps -/

/-- A request transfers at most `nbytes`, or fails with an error of its own. -/
def Result.Answers (res : Result) (nbytes : Nat) : Prop :=
  match res with
  | .done n => n ≤ nbytes
  | .failed errno => errno ≠ 0 ∧ errno ≠ EINPROGRESS ∧ errno ≠ ECANCELED
  | .canceled => False

instance : ∀ (res : Result) (nbytes : Nat), Decidable (res.Answers nbytes)
  | .done n, nbytes => inferInstanceAs (Decidable (n ≤ nbytes))
  | .failed errno, _ => inferInstanceAs (Decidable (errno ≠ 0 ∧ errno ≠ EINPROGRESS ∧ errno ≠ ECANCELED))
  | .canceled, _ => inferInstanceAs (Decidable False)

def complete (s : State) (idx : Nat) (res : Result) : Except Stop State :=
  match s.nodes[idx]? with
  | none => .error .disabled
  | some n =>
    match n.req with
    | .submitted cb =>
      if res.Answers n.nbytes then .ok { s with nodes := s.nodes.set idx { n with req := .finished cb res } }
      else .error .disabled
    | _ => .error .disabled

def act (s : State) : Act → Except Stop State
  | .pass accepted => pass s accepted
  | .sigInt answers => sigInt s answers
  | .complete idx res => complete s idx res
  | .callback idx submitted => callback s idx submitted

/-- What is left when the code stops. -/
def State.stop (s : State) : Stop → Option State
  | .disabled => none
  | .exit _ _ => some { s with ended := some .exited }
  | .undefined => some { s with ended := some .undefined }

def step (s : State) (a : Act) : Option State :=
  if s.ended = none then
    match act s a with
    | .ok t => some t
    | .error e => s.stop e
  else none

/-- After `InitNodeList`. -/
def start : State where
  gQuitFlag := false
  actCnt := 0
  nodes := List.replicate AIOCB_CNT { status := false, fildes := 0, nbytes := 0, req := .none }
  conns := []
  ended := none

/-! ## The account -/

/-- `actCnt` counts the nodes with status `1`. A connection that such a node has is open; for every other one, the
status of its node has left `1` once, if it had one, and it was closed once. Nothing undefined has happened. -/
structure Accounted (s : State) : Prop where
  actCnt : s.actCnt = s.nodes.countP Node.status
  served : ∀ n ∈ s.nodes, n.status = true → s.conns[n.fildes]? = some { served := true, left := 0, closed := 0 }
  rest : ∀ (c : Nat) conn, s.conns[c]? = some conn → (∀ n ∈ s.nodes, n.status = true → n.fildes ≠ c) →
    conn.left = conn.served.toNat ∧ conn.closed = 1
  defined : s.ended ≠ some .undefined

/-- A notification can be delivered: `read_cb` finds some bytes, fewer than the buffer has, or the end of the stream;
and after `SIGINT`, the node of `write_cb` has not been retired. -/
def Node.Orderly (quit : Bool) (n : Node) : Prop :=
  match n.req with
  | .finished .readCb res => aioReturn res ≠ -1 ∧ aioReturn res ≠ BUF_SIZE
  | .finished .writeCb _ => quit = true → n.status = true
  | _ => True

def Orderly (s : State) : Act → Prop
  | .callback idx _ => ∀ n, s.nodes[idx]? = some n → n.Orderly s.gQuitFlag
  | _ => True

end SystemFunc.Aio
