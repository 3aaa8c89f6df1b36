import SystemFunc.Lib.Buffer
import SystemFunc.Lib.Readiness

/-!
# The edge-triggered echo `internet/epoll_lt_et_2.c`: data and steps

One connection of it, registered with or without `EPOLLET`, and read with one `read` for an event (`DoRead`) or until
`EAGAIN` (`DoReadLoop`), as the macros say. What was read is written in pieces of `MAX_WRITE_BYTE`; for that the
connection waits for `EPOLLOUT`, and then again for `EPOLLIN`. A client sends bytes and the end of its stream, and takes
what was written, at any time. `Moves` says what a step does.
-/

namespace SystemFunc.Trigger

open Buffer Readiness

def MAX_WRITE_BYTE : Nat := 40

/-- `sizeof(node->buf)`, and the size of one `read` of `DoReadLoop`. -/
def BUF_SIZE : Nat := 100

/-- The size of `node->bufLoop`. -/
def MAX_SEGMENT_LENGTH : Nat := 32767

/-- `USE_ET_TRIGGER_MODE` and `USE_LOOP_READ`. -/
structure Config where
  edge : Bool
  loop : Bool
  deriving DecidableEq

/-- In `epoll_wait`, in `DoRead`, in `DoReadLoop` with `totalCnt`, in `DoWrite`, or at an end. -/
inductive Ctrl where
  | wait
  | read
  | reading (totalCnt : Nat)
  | write
  | closed
  | exited (headStr : String)
  | undefined
  deriving DecidableEq

/-- `stream` is what has come, of which `got` bytes have been read, and `room` is what `write` can take. The buffer is
`node->buf`, or `node->bufLoop` when the read is a loop. -/
structure State where
  ctrl : Ctrl
  watch : Watch
  epollout : Bool
  bufLen : Nat
  buf : Nat → UInt8
  wIndex : Nat
  stream : List UInt8
  got : Nat
  eof : Bool
  room : Nat
  out : List UInt8

inductive Act where
  | arrive (b : UInt8)
  | fin
  | take (cnt : Nat)
  | wait
  | read (cnt : Nat)
  | again
  | write (cnt : Nat)
  deriving DecidableEq

/-- A `read` would not fail with `EAGAIN`. -/
def State.readable (s : State) : Bool := s.got < s.stream.length || s.eof

/-- What the connection is registered for is there. -/
def State.pending (s : State) : Bool := if s.epollout then 0 < s.room else s.readable

/-- `EventMod`. -/
def State.eventMod (s : State) (epollout edge : Bool) : State :=
  let s := { s with epollout := epollout }
  { s with watch := s.watch.modify edge s.pending }

/-- The next bytes of the stream. -/
def State.next (s : State) (cnt : Nat) : List UInt8 := (s.stream.drop s.got).take cnt

/-- `DoRead`, where `Read` gives `cnt` bytes. -/
def State.doRead (s : State) (cnt : Nat) : State :=
  State.eventMod { s with
    ctrl := .wait
    buf := store s.buf 0 (s.next cnt)
    bufLen := cnt
    wIndex := 0
    got := s.got + cnt } true false

/-- A pass of `DoReadLoop`, where `read` gives `cnt` bytes. -/
def State.readPass (s : State) (totalCnt cnt : Nat) : State :=
  { s with
    ctrl := if totalCnt + cnt ≤ MAX_SEGMENT_LENGTH then .reading (totalCnt + cnt) else .undefined
    buf := store s.buf totalCnt (s.next cnt)
    got := s.got + cnt }

/-- `DoReadLoop`, behind its loop. -/
def State.readEnd (s : State) (totalCnt : Nat) : State :=
  State.eventMod { s with ctrl := .wait, bufLen := totalCnt, wIndex := 0 } true false

/-- `DoWrite`, where `Write` takes `cnt` bytes. -/
def State.doWrite (cfg : Config) (s : State) (cnt : Nat) : State :=
  let s := { s with
    ctrl := .wait
    out := s.out ++ slice s.buf s.wIndex cnt
    room := s.room - cnt
    bufLen := s.bufLen - cnt
    wIndex := s.wIndex + cnt }
  if s.bufLen ≤ 0 then s.eventMod false cfg.edge else s

/-- Which handler `EventLoop` calls. -/
def Config.handler (cfg : Config) (epollout : Bool) : Ctrl :=
  if epollout then .write else if cfg.loop then .reading 0 else .read

/-- The client tells the connection of bytes, or of room. -/
def State.tell (s : State) (epollout : Bool) : Watch := if s.epollout = epollout then s.watch.notify else s.watch

def State.step (cfg : Config) (s : State) : Act → Option State
  | .arrive b => if s.eof then none else some { s with stream := s.stream ++ [b], watch := s.tell false }
  | .fin => if s.eof then none else some { s with eof := true, watch := s.tell false }
  | .take cnt => some { s with room := s.room + cnt, watch := s.tell true }
  | .wait =>
    match s.ctrl with
    | .wait =>
      if s.watch.queued then
        some { s with ctrl := if s.pending then cfg.handler s.epollout else .wait, watch := s.watch.wait s.pending }
      else none
    | _ => none
  | .read 0 =>
    match s.ctrl with
    | .read | .reading _ => if s.eof ∧ s.got = s.stream.length then some { s with ctrl := .closed } else none
    | _ => none
  | .read (cnt + 1) =>
    if cnt + 1 ≤ BUF_SIZE ∧ s.got + (cnt + 1) ≤ s.stream.length then
      match s.ctrl with
      | .read => some (s.doRead (cnt + 1))
      | .reading totalCnt => some (s.readPass totalCnt (cnt + 1))
      | _ => none
    else none
  | .again =>
    match s.ctrl with
    | .read => if s.readable then none else some { s with ctrl := .exited "call Read failed" }
    | .reading totalCnt => if s.readable then none else some (s.readEnd totalCnt)
    | .write => if s.room = 0 ∧ 0 < s.bufLen then some { s with ctrl := .exited "call Write failed" } else none
    | _ => none
  | .write cnt =>
    match s.ctrl with
    | .write =>
      if cnt ≤ min s.bufLen MAX_WRITE_BYTE ∧ cnt ≤ s.room ∧ (0 < s.bufLen → 0 < cnt) then some (s.doWrite cfg cnt)
      else none
    | _ => none

/-- `EventAdd` of a new connection, on which `stream` has come before. -/
def State.start (cfg : Config) (buf : Nat → UInt8) (stream : List UInt8) (eof : Bool) (room : Nat) : State where
  ctrl := .wait
  watch := { edge := cfg.edge, queued := 0 < stream.length || eof }
  epollout := false
  bufLen := 0
  buf := buf
  wIndex := 0
  stream := stream
  got := 0
  eof := eof
  room := room
  out := []

variable {cfg : Config} {s t : State} {a : Act}

/-! ## What a step does -/

/-- The client does something, or the server. -/
inductive Moves (cfg : Config) (s : State) : Act → State → Prop
  | arrive {b : UInt8} (heof : s.eof = false) :
      Moves cfg s (.arrive b) { s with stream := s.stream ++ [b], watch := s.tell false }
  | fin (heof : s.eof = false) : Moves cfg s .fin { s with eof := true, watch := s.tell false }
  | take {cnt : Nat} : Moves cfg s (.take cnt) { s with room := s.room + cnt, watch := s.tell true }
  | report (hctrl : s.ctrl = .wait) (hqueued : s.watch.queued = true) (hp : s.pending = true) :
      Moves cfg s .wait { s with ctrl := cfg.handler s.epollout, watch := s.watch.wait true }
  | spurious (hctrl : s.ctrl = .wait) (hqueued : s.watch.queued = true) (hp : s.pending = false) :
      Moves cfg s .wait { s with ctrl := .wait, watch := s.watch.wait false }
  | close (hctrl : s.ctrl = .read ∨ ∃ totalCnt, s.ctrl = .reading totalCnt) (heof : s.eof = true)
      (hall : s.got = s.stream.length) : Moves cfg s (.read 0) { s with ctrl := .closed }
  | read {cnt : Nat} (hctrl : s.ctrl = .read) (hpos : 0 < cnt) (hle : s.got + cnt ≤ s.stream.length) :
      Moves cfg s (.read cnt) (s.doRead cnt)
  | pass {cnt totalCnt : Nat} (hctrl : s.ctrl = .reading totalCnt) (hpos : 0 < cnt)
      (hle : s.got + cnt ≤ s.stream.length) : Moves cfg s (.read cnt) (s.readPass totalCnt cnt)
  | readFails (hctrl : s.ctrl = .read) (hread : s.readable = false) :
      Moves cfg s .again { s with ctrl := .exited "call Read failed" }
  | readEnd {totalCnt : Nat} (hctrl : s.ctrl = .reading totalCnt) (hread : s.readable = false) :
      Moves cfg s .again (s.readEnd totalCnt)
  | writeFails (hctrl : s.ctrl = .write) (hroom : s.room = 0) (hpos : 0 < s.bufLen) :
      Moves cfg s .again { s with ctrl := .exited "call Write failed" }
  | write {cnt : Nat} (hctrl : s.ctrl = .write) (hle : cnt ≤ s.bufLen) (hroom : cnt ≤ s.room)
      (hpos : 0 < s.bufLen → 0 < cnt) : Moves cfg s (.write cnt) (s.doWrite cfg cnt)

theorem step_moves (hs : s.step cfg a = some t) : Moves cfg s a t := by
  cases a with
  | arrive b =>
    simp only [State.step, Option.ite_none_left_eq_some, Option.some.injEq, Bool.not_eq_true] at hs
    obtain ⟨heof, rfl⟩ := hs
    exact .arrive heof
  | fin =>
    simp only [State.step, Option.ite_none_left_eq_some, Option.some.injEq, Bool.not_eq_true] at hs
    obtain ⟨heof, rfl⟩ := hs
    exact .fin heof
  | take cnt =>
    cases hs
    exact .take
  | wait =>
    unfold State.step at hs
    dsimp only at hs
    split at hs
    next hctrl =>
      rw [Option.ite_none_right_eq_some] at hs
      obtain ⟨hqueued, hs⟩ := hs
      cases hp : s.pending with
      | true =>
        rw [hp, if_pos rfl] at hs
        cases hs
        exact .report hctrl hqueued hp
      | false =>
        rw [hp, if_neg Bool.false_ne_true] at hs
        cases hs
        exact .spurious hctrl hqueued hp
    next => cases hs
  | read cnt =>
    cases cnt with
    | zero =>
      unfold State.step at hs
      dsimp only at hs
      split at hs
      next hctrl =>
        rw [Option.ite_none_right_eq_some] at hs
        obtain ⟨⟨heof, hall⟩, hs⟩ := hs
        cases hs
        exact .close (.inl hctrl) heof hall
      next totalCnt hctrl =>
        rw [Option.ite_none_right_eq_some] at hs
        obtain ⟨⟨heof, hall⟩, hs⟩ := hs
        cases hs
        exact .close (.inr ⟨totalCnt, hctrl⟩) heof hall
      next => cases hs
    | succ cnt =>
      unfold State.step at hs
      dsimp only at hs
      rw [Option.ite_none_right_eq_some] at hs
      obtain ⟨⟨_, hle⟩, hs⟩ := hs
      split at hs
      next hctrl =>
        cases hs
        exact .read hctrl (Nat.succ_pos cnt) hle
      next totalCnt hctrl =>
        cases hs
        exact .pass hctrl (Nat.succ_pos cnt) hle
      next => cases hs
  | again =>
    unfold State.step at hs
    dsimp only at hs
    split at hs
    next hctrl =>
      rw [Option.ite_none_left_eq_some, Bool.not_eq_true] at hs
      obtain ⟨hread, hs⟩ := hs
      cases hs
      exact .readFails hctrl hread
    next totalCnt hctrl =>
      rw [Option.ite_none_left_eq_some, Bool.not_eq_true] at hs
      obtain ⟨hread, hs⟩ := hs
      cases hs
      exact .readEnd hctrl hread
    next hctrl =>
      rw [Option.ite_none_right_eq_some] at hs
      obtain ⟨⟨hroom, hpos⟩, hs⟩ := hs
      cases hs
      exact .writeFails hctrl hroom hpos
    next => cases hs
  | write cnt =>
    unfold State.step at hs
    dsimp only at hs
    split at hs
    next hctrl =>
      rw [Option.ite_none_right_eq_some] at hs
      obtain ⟨⟨hle, hroom, hpos⟩, hs⟩ := hs
      cases hs
      exact .write hctrl (Nat.le_trans hle (Nat.min_le_left _ _)) hroom hpos
    next => cases hs

end SystemFunc.Trigger
