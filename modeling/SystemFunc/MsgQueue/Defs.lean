import SystemFunc.Http.Request
import SystemFunc.Lib.KeyedFifo
import SystemFunc.Lib.Lines
import SystemFunc.Lib.Steps

/-!
# `IPC/XSI_IPC/msgqueue.c`: data and steps

Any number of processes have one message queue in common. `communicate` reads a number and a line from the standard
input and sends the line as a message of that type; `read_from_msgq`, in a second thread, receives the messages that
`cliId` selects and prints them. A message is sent with `IPC_NOWAIT`: what the queue has no room for is dropped. The
queue holds at most `msg_qbytes` bytes, and as many messages. Between the call of `msgrcv` and the prints, `communicate`
may end the process.

The state remembers who has sent and who has received which messages, in the order of the calls; no step looks at that.
-/

namespace SystemFunc.MsgQueue

open Http (isspace)
open KeyedFifo (takeFirst)

/-- The size of `mtext`. -/
def MTEXT_SIZE : Nat := 1024

def LONG_MIN : Int := -2 ^ 63
def LONG_MAX : Int := 2 ^ 63 - 1

/-- `struct msgbuf`. -/
structure Msgbuf where
  mtype : Int
  mtext : Block UInt8 MTEXT_SIZE

/-- A message in the queue. -/
structure Msg where
  mtype : Int
  text : List UInt8
  deriving DecidableEq

/-- What a round of `read_from_msgq` prints, besides its two rules. -/
structure Printed where
  cnt : Int
  mtype : Int
  mtext : List UInt8
  deriving DecidableEq

/-! ## The standard input -/

def isdigit (b : UInt8) : Bool := 48 ≤ b.toNat && b.toNat ≤ 57

/-- The value of a row of digits. -/
def digitsVal (ds : List UInt8) : Nat := ds.foldl (fun n d => 10 * n + (d.toNat - 48)) 0

/-- `scanf("%ld", &n)`. A value that is no `long` becomes the nearest one; without a digit, `n` stays as it is. -/
def scanLd (n : Int) (input : List UInt8) : Int × List UInt8 :=
  let s := input.dropWhile isspace
  let neg := s.head? = some 45
  let s := if neg ∨ s.head? = some 43 then s.tail else s
  let digits := s.takeWhile isdigit
  let val : Int := digitsVal digits
  (if digits = [] then n else if neg then max LONG_MIN (-val) else min LONG_MAX val, s.dropWhile isdigit)

/-- `n` cells of a buffer are overwritten. -/
def overwrite {n : Nat} (buf : Block UInt8 n) (s : List UInt8) (h : s.length ≤ n) : Block UInt8 n where
  cells := s ++ buf.cells.drop s.length
  len := by rw [List.length_append, List.length_drop, buf.len]; omega

/-- The line that `fgets(buf, MTEXT_SIZE, stdin)` reads, if it is not at the end. -/
def fgetsLine (input : List UInt8) : List UInt8 := (Lines.first 10 input).take (MTEXT_SIZE - 1)

theorem fgetsLine_lt (input : List UInt8) : (fgetsLine input ++ [0]).length ≤ MTEXT_SIZE := by
  rw [List.length_append, fgetsLine, List.length_take, List.length_singleton]
  have hsize : MTEXT_SIZE = 1024 := rfl
  omega

/-- `fgets`: the buffer and the rest of the input. -/
def fgets (buf : Block UInt8 MTEXT_SIZE) (input : List UInt8) : Block UInt8 MTEXT_SIZE × List UInt8 :=
  (if input = [] then buf else overwrite buf (fgetsLine input ++ [0]) (fgetsLine_lt input),
    input.drop (fgetsLine input).length)

/-- `scanf`, `getchar` and `fgets` in `communicate`. -/
def Msgbuf.input (buf : Msgbuf) (stdin : List UInt8) : Msgbuf × List UInt8 :=
  let (mtype, stdin) := scanLd buf.mtype stdin
  let (mtext, stdin) := fgets buf.mtext (stdin.drop 1)
  (⟨mtype, mtext⟩, stdin)

/-! ## The queue -/

/-- The number of bytes in the queue. -/
def cbytes (queue : List Msg) : Nat := (queue.map (·.text.length)).sum

/-- There is room for `m`. -/
def HasRoom (qbytes : Nat) (queue : List Msg) (m : Msg) : Prop :=
  cbytes queue + m.text.length ≤ qbytes ∧ queue.length + 1 ≤ qbytes

instance (qbytes : Nat) (queue : List Msg) (m : Msg) : Decidable (HasRoom qbytes queue m) :=
  inferInstanceAs (Decidable (_ ∧ _))

/-- The lowest type up to `n` in the queue. -/
def lowest (n : Int) (queue : List Msg) : Option Int := ((queue.map (·.mtype)).filter (· ≤ n)).min?

/-- The message that `msgrcv(..., msgtyp, 0)` takes, and the queue without it. -/
def msgrcv (msgtyp : Int) (queue : List Msg) : Option (Msg × List Msg) :=
  if msgtyp = 0 then takeFirst Msg.mtype (fun _ => True) queue
  else if 0 < msgtyp then takeFirst Msg.mtype (· = msgtyp) queue
  else (lowest (-msgtyp) queue).bind fun k => takeFirst Msg.mtype (· = k) queue

/-! ## The processes -/

/-- `communicate` before `scanf`, or before `msgsnd`. -/
inductive Ctrl where
  | input
  | msgsnd
  deriving DecidableEq

/-- A process in `communicate`. `reader`: the other thread has been created, and `cnt` is what its last `msgrcv` has
returned, until that is printed; `tried` are the arguments of the calls of `msgsnd`. -/
structure Proc where
  cliId : Int
  live : Bool
  ctrl : Ctrl
  stdin : List UInt8
  sendBuf : Msgbuf
  reader : Bool
  recvBuf : Msgbuf
  cnt : Option Int
  tried : List Msg
  printed : List Printed

/-- The number of bytes that the queue may hold, and for each process its `cliId`, its standard input, and what is in
its buffers at first. -/
structure Env where
  qbytes : Nat
  cliId : Nat → Int
  stdin : Nat → List UInt8
  junk : Nat → Msgbuf × Msgbuf

/-- `wild`: a process has done what C leaves undefined, and nothing more is said. -/
structure State where
  procs : List Proc
  queue : List Msg
  wild : Bool
  posted : List (Nat × Msg)
  received : List (Nat × Msg)

def start : State where
  procs := []
  queue := []
  wild := false
  posted := []
  received := []

/-- Errors that do not come from the queue: a signal, and all the others. -/
inductive Failure where
  | eintr
  | other
  deriving DecidableEq

inductive Act where
  | fork (reader : Bool)
  | input (i : Nat)
  | msgsnd (i : Nat)
  | msgsndFailed (i : Nat) (e : Failure)
  | msgrcv (i : Nat)
  | msgrcvFailed (i : Nat) (e : Failure)
  | print (i : Nat)
  deriving DecidableEq

/-- Process `i` in `communicate`. -/
def Env.proc (v : Env) (i : Nat) (reader : Bool) : Proc where
  cliId := v.cliId i
  live := true
  ctrl := .input
  stdin := v.stdin i
  sendBuf := (v.junk i).1
  reader := reader
  recvBuf := (v.junk i).2
  cnt := none
  tried := []
  printed := []

def Proc.exit (p : Proc) : Proc := { p with live := false }

/-- `scanf`, `getchar` and `fgets`. -/
def Proc.input (p : Proc) : Proc :=
  { p with ctrl := .msgsnd, sendBuf := (p.sendBuf.input p.stdin).1, stdin := (p.sendBuf.input p.stdin).2 }

/-- The call of `msgsnd` is over. -/
def Proc.tries (p : Proc) (m : Msg) : Proc := { p with ctrl := .input, tried := p.tried ++ [m] }

/-- A message arrives, and behind it a `NUL` is stored. -/
def Proc.receive (p : Proc) (m : Msg) (h : (m.text ++ [0]).length ≤ MTEXT_SIZE) : Proc :=
  { p with recvBuf := ⟨m.mtype, overwrite p.recvBuf.mtext (m.text ++ [0]) h⟩, cnt := some m.text.length }

/-- What is about to be printed. -/
def Proc.pending (p : Proc) : Option Printed :=
  p.cnt.map fun cnt => ⟨cnt, p.recvBuf.mtype, strOf p.recvBuf.mtext.cells⟩

/-- The calls of `printf` in `read_from_msgq`, as one step. -/
def Proc.print (p : Proc) : Proc := { p with cnt := none, printed := p.printed ++ p.pending.toList }

def State.set (s : State) (i : Nat) (p : Proc) : State := { s with procs := s.procs.set i p }

/-- `msgsnd` of `m`: an error for a type below 1, and otherwise as there is room. -/
def State.msgsnd (s : State) (qbytes i : Nat) (p : Proc) (m : Msg) : State :=
  if m.mtype < 1 then s.set i (p.tries m).exit
  else if HasRoom qbytes s.queue m then
    { s.set i (p.tries m) with queue := s.queue ++ [m], posted := s.posted ++ [(i, m)] }
  else s.set i (p.tries m)

/-- `msgrcv` takes `m`, or fails with `E2BIG`. -/
def State.msgrcv (s : State) (i : Nat) (p : Proc) (m : Msg) (queue : List Msg) : State :=
  if h : (m.text ++ [0]).length ≤ MTEXT_SIZE then
    { s.set i (p.receive m h) with queue := queue, received := s.received ++ [(i, m)] }
  else s.set i p.exit

/-- A live process, in `f`. -/
def State.proc (s : State) (i : Nat) (f : Proc → Option State) : Option State :=
  if s.wild then none else s.procs[i]?.bind fun p => if p.live then f p else none

/-- `strlen(mtext)` cells of the buffer of `communicate`; reading a string that does not end is undefined. -/
def State.send (s : State) (i : Nat) (f : Proc → Msg → State) : Option State :=
  s.proc i fun p =>
    if p.ctrl = .msgsnd then
      match readStr p.sendBuf.mtext.cells with
      | .ok text => some (f p ⟨p.sendBuf.mtype, text⟩)
      | .error _ => some { s with wild := true }
    else none

def step (v : Env) (s : State) : Act → Option State
  | .fork reader =>
    if s.wild then none else some { s with procs := s.procs ++ [v.proc s.procs.length reader] }
  | .input i => s.proc i fun p => if p.ctrl = .input then some (s.set i p.input) else none
  | .msgsnd i => s.send i (s.msgsnd v.qbytes i)
  | .msgsndFailed i e => s.send i fun p m => s.set i { p.tries m with live := e = .eintr }
  | .msgrcv i =>
    s.proc i fun p =>
      if p.reader ∧ p.cnt = none then (msgrcv p.cliId s.queue).map fun r => s.msgrcv i p r.1 r.2 else none
  | .msgrcvFailed i e =>
    s.proc i fun p =>
      if p.reader ∧ p.cnt = none then
        -- With `EINTR`, the code goes on and assigns to `mtext[-1]`.
        some (if e = .eintr then { s with wild := true } else s.set i p.exit)
      else none
  | .print i => s.proc i fun p => if p.cnt = none then none else some (s.set i p.print)

end SystemFunc.MsgQueue
