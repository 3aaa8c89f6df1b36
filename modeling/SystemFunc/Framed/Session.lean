import SystemFunc.Framed.Decode

/-!
# A session

The client loop of `internet/test_struct_client.c` and the server, joined by two streams: the client writes into the
server's `input` and reads from its `output`. A `write` of at least one byte to a stream socket does not answer `0`, so
the session has no such step. What has been requested and printed is remembered.
-/

namespace SystemFunc.Framed

open Buffer Wrap

/-- What `fgets` leaves in `inbuf`: a string that fits. -/
structure Line where
  bytes : List UInt8
  nulFree : 0 ∉ bytes
  short : bytes.length ≤ 1023

/-- The line without its newline. -/
def Line.text (line : Line) : List UInt8 :=
  if line.bytes.getLast? = some 10 then line.bytes.dropLast else line.bytes

theorem Line.text_subset (line : Line) : line.text ⊆ line.bytes := by
  unfold Line.text
  split
  · exact List.dropLast_subset _
  · exact List.Subset.refl _

theorem Line.text_length (line : Line) : line.text.length ≤ 1023 := by
  have hshort := line.short
  unfold Line.text
  split
  · rw [List.length_dropLast]
    omega
  · exact hshort

/-- The request of a line. -/
def Line.msg (line : Line) (kind : Kind) : Msg where
  kind := kind
  payload := line.text
  nulFree h := line.nulFree (line.text_subset h)
  short := by
    have := line.text_length
    omega

/-- `DoInput`, with the number from `scanf`; another type is asked for again. -/
def doInput (type : Int) (line : Line) : Option Msg :=
  if type = 2 then some (line.msg .call) else if type = 1 then some (line.msg .echo) else none

/-- Where the client is: in `DoInput`, in the two calls of `WriteCount`, before `read`. -/
inductive ClientCtrl where
  | input
  | header (f : Frame) (l : Count)
  | body (f : Frame) (l : Count)
  | reply
  | exited (msg : String)

structure Session where
  server : Server
  client : ClientCtrl
  requests : List Frame
  printed : List (List UInt8)

inductive SessionAct where
  | server (a : ServerAct)
  | input (type : Int) (line : Line) (pad : Padding)
  /-- `fgets` returns `NULL`. -/
  | noInput
  | write (a : Answer)
  | read (a : Answer)

/-- `sizeof(outbuf) - 1`. -/
def OUTBUF_SIZE : Nat := 10239

/-- The server has closed its side. -/
def Ctrl.stopped : Ctrl → Bool
  | .returned => true
  | .exited _ => true
  | .undefined => true
  | _ => false

/-- The second call of `WriteCount`; it returns at once when there is nothing to write. -/
def ClientCtrl.afterHeader (f : Frame) : ClientCtrl :=
  if 0 < f.msg.payload.length then .body f (.start f.msg.payload.length) else .reply

/-- Some bytes arrive at the server. -/
def Server.arrive (s : Server) (bs : List UInt8) : Server := { s with input := s.input ++ bs }

/-- The client exits. -/
def Session.exit (s : Session) (msg : String) : Session :=
  { s with client := .exited msg, server := { s.server with closed := true } }

/-- A pass of `WriteCount` over `buf`, which goes on in `more` or returns to `done`. -/
def Session.writeCount (s : Session) (buf : List UInt8) (l : Count) (a : Answer) (more : Count → ClientCtrl)
    (done : ClientCtrl) : Session :=
  let s' := { s with server := s.server.arrive ((buf.drop l.index).take a.size) }
  match l.pass WriteCount.headStr a with
  | .again l' => { s' with client := if 0 < l'.left then more l' else done }
  | .leave => { s' with client := done }
  | .exit msg => s'.exit msg

def Session.step (s : Session) : SessionAct → Option Session
  | .server a =>
    match a with
    | .write (.cnt 0) => none
    | _ => (s.server.step a).map fun server => { s with server := server }
  | .input type line pad =>
    match s.client with
    | .input =>
      match doInput type line with
      | none => some s
      | some msg =>
        let f := { msg := msg, pad := pad }
        some { s with client := .header f (.start PROTO_SIZE), requests := s.requests ++ [f] }
    | _ => none
  | .noInput =>
    match s.client with
    | .input => some (s.exit "")
    | _ => none
  | .write a =>
    match s.client with
    | .header f l =>
      if a ≠ .cnt 0 ∧ a.size ≤ l.left then
        some (s.writeCount f.proto l a (.header f) (.afterHeader f))
      else none
    | .body f l =>
      if a ≠ .cnt 0 ∧ a.size ≤ l.left then some (s.writeCount f.msg.payload l a (.body f) .reply) else none
    | _ => none
  | .read a =>
    match s.client with
    | .reply =>
      match a with
      | .cnt n =>
        if n ≤ OUTBUF_SIZE ∧ n ≤ s.server.output.length ∧
            (n = 0 → s.server.output = [] ∧ s.server.ctrl.stopped = true) then
          some { s with
            client := .input
            server := { s.server with output := s.server.output.drop n }
            printed := s.printed ++ [cString (s.server.output.take n)] }
        else none
      | .failed _ => some (s.exit "read error")
    | _ => none

/-- The client has connected, and the server has accepted. -/
structure Session.Init (s : Session) : Prop where
  client : s.client = .input
  server : ∃ pto tmp, s.server = .start pto tmp [] false
  requests : s.requests = []
  printed : s.printed = []

end SystemFunc.Framed
