import Mathlib.Data.List.TakeWhile
import SystemFunc.CLang
import SystemFunc.Lib.LittleEndian
import SystemFunc.Wrap.Defs

/-!
# The framed protocol of `internet/test_struct_server.c` and `internet/test_struct_client.c`

A request is a `Proto`, its type, three bytes of padding and its size, and then its payload. The server's `DoReadWrite`
stops at each `read` and `write` of `ReadCount` and `WriteCount`, at `malloc`, `dup2` and `system`; the client at
`DoInput`, at each `write` of its two calls of `WriteCount`, and at its `read`. An action carries what the call answers.
-/

namespace SystemFunc.Framed

open Buffer Wrap

/-- `TYPE_ECHO` and `TYPE_CALL`. -/
inductive Kind where
  | echo
  | call
  deriving DecidableEq

def Kind.type : Kind → UInt8
  | .echo => 1
  | .call => 2

/-- `sizeof(Proto)`. -/
def PROTO_SIZE : Nat := 8

/-- A request. -/
structure Msg where
  kind : Kind
  payload : List UInt8
  nulFree : 0 ∉ payload
  short : payload.length < 2 ^ 31 - 1

/-- The padding of a `Proto`. -/
structure Padding where
  bytes : List UInt8
  len : bytes.length = 3

/-- A request as it is sent. -/
structure Frame where
  msg : Msg
  pad : Padding

/-- The bytes of the `Proto`. -/
def Frame.proto (f : Frame) : List UInt8 :=
  f.msg.kind.type :: (f.pad.bytes ++ LittleEndian.encode 4 f.msg.payload.length)

def Frame.bytes (f : Frame) : List UInt8 := f.proto ++ f.msg.payload

/-- The stream of some requests. -/
def encode (fs : List Frame) : List UInt8 := fs.flatMap Frame.bytes

/-! ## The server -/

/-- Where `DoReadWrite` is: in `ReadCount` of the header; before `malloc`; in `ReadCount` of the payload; in
`WriteCount`; before the first `dup2`, `system` and the second `dup2`. -/
inductive Ctrl where
  | header (l : Count)
  | malloc
  | body (l : Count)
  | echo (l : Count)
  | redirect
  | system
  | restore
  | returned
  | exited (msg : String)
  | undefined
  deriving DecidableEq

/-- What is done for a request: a call of `WriteCount` on the connection, or of `system`. -/
inductive Call where
  | writeCount (buf : List UInt8)
  | system (command : List UInt8)
  deriving DecidableEq

/-- The server with its connection: what has been sent to it and not read, whether the client has closed its side, and
what it has sent that the client has not read. `calls` is remembered; no step looks at it. -/
structure Server where
  ctrl : Ctrl
  pto : Nat → UInt8
  tmp : Nat → UInt8
  input : List UInt8
  closed : Bool
  output : List UInt8
  calls : List Call

inductive ServerAct where
  | read (a : Answer)
  | malloc (block : Option (Nat → UInt8))
  | write (a : Answer)
  | dup2 (ok : Bool)
  /-- `system` returns; the command has printed `output`. -/
  | system (output : List UInt8)

/-- `read` can give this answer when `left` bytes are asked for. -/
def Server.answers (s : Server) (left : Nat) : Answer → Bool
  | .cnt n => n ≤ left && n ≤ s.input.length && (n ≠ 0 || (s.input.isEmpty && s.closed))
  | .failed _ => true

/-- `pto.type`. -/
def Server.type (s : Server) : UInt8 := s.pto 0

/-- `int size = pto.size`. -/
def Server.size (s : Server) : Int := s32 (LittleEndian.decode (slice s.pto 4 4))

/-- A C string. -/
def cString (bs : List UInt8) : List UInt8 := bs.takeWhile (· ≠ 0)

/-- The next call of `ReadCount` for a header. -/
def Ctrl.start : Ctrl := .header (.start PROTO_SIZE)

/-- After `ReadCount` of the header has returned `cnt`. -/
def Server.afterHeader (s : Server) (cnt : Nat) : Server :=
  if ¬0 < cnt then { s with ctrl := .returned }
  else if cnt ≠ PROTO_SIZE then { s with ctrl := .exited "cnt != sizeof(Proto)" }
  else if s.type ≠ Kind.echo.type ∧ s.type ≠ Kind.call.type then
    { s with ctrl := .exited ("type(" ++ toString s.type.toNat ++ ") error") }
  else if s.size < 0 then { s with ctrl := .exited "pto size error" }
  else if s.size = 0 then { s with ctrl := .start }
  -- `size + 1` overflows
  else if 2 ^ 31 ≤ s.size + 1 then { s with ctrl := .undefined }
  else { s with ctrl := .malloc }

/-- After `ReadCount` of the payload has returned `cnt`. -/
def Server.afterBody (s : Server) (cnt : Nat) : Server :=
  -- "miss content"
  if (cnt : Int) ≠ s.size then { s with ctrl := .start }
  else if s.type = Kind.echo.type then
    { s with ctrl := .echo (.start cnt), calls := s.calls ++ [.writeCount (slice s.tmp 0 cnt)] }
  else if s.type = Kind.call.type then { s with ctrl := .redirect }
  else { s with ctrl := .start }

/-- `n` bytes are read into `pto`, or into `tmp`, at `i`. -/
def Server.intoPto (s : Server) (i n : Nat) : Server :=
  { s with pto := store s.pto i (s.input.take n), input := s.input.drop n }

def Server.intoTmp (s : Server) (i n : Nat) : Server :=
  { s with tmp := store s.tmp i (s.input.take n), input := s.input.drop n }

/-- The rest of a pass of `ReadCount`, which goes on in `more` or returns to `done`. -/
def Server.readCount (s : Server) (l : Count) (a : Answer) (more : Count → Ctrl) (done : Nat → Server) : Server :=
  match l.pass ReadCount.headStr a with
  | .again l' => if 0 < l'.left then { s with ctrl := more l' } else done l'.index
  | .leave => done l.index
  | .exit msg => { s with ctrl := .exited msg }

def Server.step (s : Server) : ServerAct → Option Server
  | .read a =>
    match s.ctrl with
    | .header l =>
      if s.answers l.left a then
        let s' := s.intoPto l.index a.size
        some (s'.readCount l a .header s'.afterHeader)
      else none
    | .body l =>
      if s.answers l.left a then
        let s' := s.intoTmp l.index a.size
        some (s'.readCount l a .body s'.afterBody)
      else none
    | _ => none
  | .malloc block =>
    match s.ctrl with
    | .malloc =>
      match block with
      | none => some { s with ctrl := .exited "malloc error" }
      | some tmp => some { s with tmp := tmp, ctrl := .body (.start s.size.toNat) }
    | _ => none
  | .write a =>
    match s.ctrl with
    | .echo l =>
      if a.size ≤ l.left then
        let s' := { s with output := s.output ++ slice s.tmp l.index a.size }
        match l.pass WriteCount.headStr a with
        | .again l' => some { s' with ctrl := if 0 < l'.left then .echo l' else .start }
        | .leave => some { s' with ctrl := .start }
        | .exit msg => some { s' with ctrl := .exited msg }
      else none
    | _ => none
  | .dup2 ok =>
    match s.ctrl with
    | .redirect => some { s with ctrl := if ok then .system else .exited "dup2 error" }
    | .restore => some { s with ctrl := if ok then .start else .exited "dup2 error, 2222222" }
    | _ => none
  | .system output =>
    match s.ctrl with
    | .system =>
      some { s with
        ctrl := .restore
        output := s.output ++ output
        calls := s.calls ++ [.system (cString (slice s.tmp 0 s.size.toNat))] }
    | _ => none

/-- `DoReadWrite` is called; `pto` and `tmp` are uninitialised. -/
def Server.start (pto tmp : Nat → UInt8) (input : List UInt8) (closed : Bool) : Server :=
  { ctrl := .start, pto := pto, tmp := tmp, input := input, closed := closed, output := [], calls := [] }

/-! ## The client -/

/-- The two calls of `WriteCount` for each request; the answers of `write` are for one after the other. The result is
what they write. -/
def sendAll : List Frame → List Answer → Option (List UInt8)
  | [], _ => some []
  | f :: fs, as => do
    let (proto, _, as) ← writeCount (store (fun _ => 0) 0 f.proto) (.start PROTO_SIZE) as
    let (inbuf, _, as) ← writeCount (store (fun _ => 0) 0 f.msg.payload) (.start f.msg.payload.length) as
    let rest ← sendAll fs as
    return proto ++ inbuf ++ rest

end SystemFunc.Framed
