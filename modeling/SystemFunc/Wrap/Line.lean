import SystemFunc.Lib.Lines
import SystemFunc.Wrap.Calls

/-!
# `ReadLine` of `internet/wrap/wrap.c`

It reads one byte at a time, and looks at the limit before each `read`: a line that fills the buffer is returned, and
`-1` only when the buffer is full and the line goes on. A call is a system of the answers of `read`, as those of
`Wrap.Calls`.

- `LineMove`: what an answer does to a call;
- `readLine_spec`: what a call returns and consumes.
-/

namespace SystemFunc.Wrap

open Buffer

def ReadLine.headStr : String := "call ReadLine failed"

/-- `'\n'`. -/
def newline : UInt8 := 10

/-- Before a `read`, returned, or at the error exit. -/
inductive LineCtrl where
  | reading (index : Nat)
  | returned (ret : Int)
  | exited (headStr : String)
  deriving DecidableEq

/-- The top of the loop. -/
def LineCtrl.top (size index : Nat) : LineCtrl := if index ≥ size then .returned (-1) else .reading index

structure LineCall where
  ctrl : LineCtrl
  buf : Nat → UInt8
  input : List UInt8
  slept : Nat

def LineCall.start (size : Nat) (buf : Nat → UInt8) (stream : List UInt8) : LineCall where
  ctrl := .top size 0
  buf := buf
  input := stream
  slept := 0

/-- A pass of the loop; `read` is asked for one byte, and answers `0` at the end of the stream. -/
def readLine (size : Nat) (s : LineCall) (a : Answer) : Option LineCall :=
  match s.ctrl with
  | .reading index =>
    match a, s.input with
    | .cnt 0, [] => some { s with ctrl := .returned index }
    | .cnt 1, ch :: input =>
      some { s with
        ctrl := if ch = newline then .returned (index + 1) else .top size (index + 1)
        buf := store s.buf index [ch]
        input := input }
    | .cnt _, _ => none
    | .failed .other, _ => some { s with ctrl := .exited ReadLine.headStr }
    | .failed e, _ => some { s with ctrl := .top size index, slept := s.slept + usleep (.failed e) }
  | _ => none

variable {size : Nat} {buf : Nat → UInt8} {stream : List UInt8} {as : List Answer} {a : Answer} {s t : LineCall}

/-! ## One pass -/

/-- What an answer does to a call that has read `index` bytes. -/
inductive LineMove (size index : Nat) (s : LineCall) : Answer → LineCall → Prop
  | eof (hin : s.input = []) : LineMove size index s (.cnt 0) { s with ctrl := .returned index }
  | newline {input : List UInt8} (hin : s.input = newline :: input) :
      LineMove size index s (.cnt 1)
        { s with ctrl := .returned (index + 1), buf := store s.buf index [newline], input := input }
  | byte {ch : UInt8} {input : List UInt8} (hin : s.input = ch :: input) (hne : ch ≠ Wrap.newline) :
      LineMove size index s (.cnt 1)
        { s with ctrl := .top size (index + 1), buf := store s.buf index [ch], input := input }
  | retry {a : Answer} {slept : Nat} (ha : a.interrupted = true) :
      LineMove size index s a { s with ctrl := .top size index, slept := slept }
  | failed : LineMove size index s (.failed .other) { s with ctrl := .exited ReadLine.headStr }

theorem readLine_move (hs : readLine size s a = some t) :
    ∃ index, s.ctrl = .reading index ∧ LineMove size index s a t := by
  unfold readLine at hs
  split at hs
  next index hctrl =>
    refine ⟨index, hctrl, ?_⟩
    split at hs
    next hin =>
      cases hs
      exact .eof hin
    next ch input hin =>
      by_cases hch : ch = newline
      · subst hch
        rw [if_pos rfl] at hs
        cases hs
        exact .newline hin
      · rw [if_neg hch] at hs
        cases hs
        exact .byte hin hch
    next => cases hs
    next =>
      cases hs
      exact .failed
    next _ _ e he =>
      cases hs
      refine .retry ?_
      cases e with
      | other => exact absurd rfl he
      | eagain => rfl
      | ewouldblock => rfl
      | eintr => rfl
  next => cases hs

/-! ## A call -/

/-- The call has moved `line` from the stream to the start of `buf`. -/
structure LineCall.SoFar (size : Nat) (buf : Nat → UInt8) (stream : List UInt8) (as : List Answer)
    (line : List UInt8) (s : LineCall) : Prop where
  split : stream = line ++ s.input
  buf : s.buf = store buf 0 line
  reading : ∀ index, s.ctrl = .reading index →
    index = line.length ∧ index < size ∧ newline ∉ line ∧ progress as ≤ index
  returned : ∀ ret, s.ctrl = .returned ret →
    ret = -1 ∧ line.length = size ∧ newline ∉ line ∨
      ret = line.length ∧ line = Lines.first newline stream ∧ line.length ≤ size ∧
        (newline ∈ line ∨ line = stream ∧ line.length < size)
  exited : ∀ headStr, s.ctrl = .exited headStr → .failed .other ∈ as

/-- Back at the top of the loop, with a line that goes on. -/
theorem LineCall.SoFar.top {line : List UInt8} (hstream : stream = line ++ s.input) (hbuf : s.buf = store buf 0 line)
    (hle : line.length ≤ size) (hline : newline ∉ line) (hprogress : progress as ≤ line.length)
    (hctrl : s.ctrl = .top size line.length) : s.SoFar size buf stream as line := by
  unfold LineCtrl.top at hctrl
  split at hctrl
  next hge =>
    refine ⟨hstream, hbuf, fun index hi => ?_, fun ret hret => ?_, fun headStr he => ?_⟩
    · rw [hctrl] at hi
      cases hi
    · rw [hctrl] at hret
      cases hret
      exact .inl ⟨rfl, Nat.le_antisymm hle hge, hline⟩
    · rw [hctrl] at he
      cases he
  next hlt =>
    refine ⟨hstream, hbuf, fun index hi => ?_, fun ret hret => ?_, fun headStr he => ?_⟩
    · rw [hctrl] at hi
      cases hi
      exact ⟨rfl, Nat.lt_of_not_le hlt, hline, hprogress⟩
    · rw [hctrl] at hret
      cases hret
    · rw [hctrl] at he
      cases he

/-- **A pass keeps it**, with one byte more or none. -/
theorem LineCall.SoFar.step {line : List UInt8} (h : s.SoFar size buf stream as line)
    (hs : readLine size s a = some t) : ∃ line', t.SoFar size buf stream (as ++ [a]) line' := by
  obtain ⟨index, hctrl, hmove⟩ := readLine_move hs
  obtain ⟨rfl, hlt, hline, hprogress⟩ := h.reading index hctrl
  have hbuf : ∀ ch : UInt8, store s.buf line.length [ch] = store buf 0 (line ++ [ch]) := by
    intro ch
    have hstore := @store_append _ buf 0 line [ch]
    rwa [Nat.zero_add, ← h.buf] at hstore
  cases hmove with
  | eof hin =>
    have hstream : stream = line := by rw [h.split, hin, List.append_nil]
    refine ⟨line, h.split, h.buf, nofun, fun ret hret => ?_, nofun⟩
    cases hret
    exact .inr ⟨rfl, by rw [hstream, Lines.first_of_notMem hline], Nat.le_of_lt hlt, .inr ⟨hstream.symm, hlt⟩⟩
  | @newline input hin =>
    have hstream : stream = line ++ [newline] ++ input := by rw [h.split, hin, List.append_assoc]; rfl
    have hfirst : Lines.first newline stream = line ++ [newline] := by
      rw [h.split, hin, Lines.first_of_line hline]
    refine ⟨line ++ [newline], hstream, hbuf _, nofun, fun ret hret => ?_, nofun⟩
    cases hret
    refine .inr ⟨by simp, hfirst.symm, ?_, .inl (by simp)⟩
    rw [List.length_append]
    exact hlt
  | @byte ch input hin hne =>
    have hstream : stream = line ++ [ch] ++ input := by rw [h.split, hin, List.append_assoc]; rfl
    have hlen : (line ++ [ch]).length = line.length + 1 := by simp
    refine ⟨line ++ [ch], .top hstream (hbuf ch) (by omega) ?_ ?_ (by rw [hlen])⟩
    · simpa [hline] using hne.symm
    · rw [progress_append, hlen]
      exact Nat.add_le_add hprogress (Nat.le_refl 1)
  | retry ha =>
    refine ⟨line, .top h.split h.buf (Nat.le_of_lt hlt) hline ?_ rfl⟩
    rw [progress_append, ha]
    exact hprogress
  | failed => exact ⟨line, h.split, h.buf, nofun, nofun, fun _ _ => List.mem_append_right as List.mem_cons_self⟩

theorem readLine_soFar (h : Steps.run (readLine size) (.start size buf stream) as = some t) :
    ∃ line, t.SoFar size buf stream as line := by
  induction as using List.reverseRecOn generalizing t with
  | nil =>
    cases h
    exact ⟨[], .top rfl store_nil.symm (Nat.zero_le _) nofun (Nat.le_refl _) rfl⟩
  | append_singleton as a ih =>
    obtain ⟨u, hu, hlast⟩ := Steps.run_append.1 h
    obtain ⟨v, hv, hvt⟩ := Steps.run_cons.1 hlast
    cases hvt
    obtain ⟨line, hline⟩ := ih hu
    exact hline.step hv

/-- What a call of `ReadLine` comes to. -/
structure LineSpec (size : Nat) (buf : Nat → UInt8) (stream : List UInt8) (as : List Answer) (t : LineCall) :
    Prop where
  returned : ∀ ret, t.ctrl = .returned ret →
    (ret = -1 ↔ size ≤ stream.length ∧ newline ∉ stream.take size) ∧
    (ret = -1 → t.buf = store buf 0 (stream.take size) ∧ t.input = stream.drop size) ∧
    (ret ≠ -1 → ret = (Lines.first newline stream).length ∧ t.buf = store buf 0 (Lines.first newline stream) ∧
      t.input = stream.drop (Lines.first newline stream).length)
  reading : ∀ index, t.ctrl = .reading index → progress as < size
  exited : ∀ headStr, t.ctrl = .exited headStr → .failed .other ∈ as

theorem readLine_spec (h : Steps.run (readLine size) (.start size buf stream) as = some t) :
    LineSpec size buf stream as t := by
  obtain ⟨line, hline⟩ := readLine_soFar h
  have hstream := hline.split
  have hdrop : t.input = stream.drop line.length := by rw [hstream, List.drop_left]
  refine ⟨fun ret hret => ?_, fun index hi => ?_, hline.exited⟩
  · rcases hline.returned ret hret with ⟨rfl, rfl, hno⟩ | ⟨rfl, hfirst, hle, hend⟩
    · have htake : stream.take line.length = line := by rw [hstream, List.take_left]
      rw [htake]
      refine ⟨iff_of_true rfl ⟨?_, hno⟩, fun _ => ⟨hline.buf, hdrop⟩, fun hne => absurd rfl hne⟩
      rw [hstream, List.length_append]
      exact Nat.le_add_right _ _
    · have hne : (line.length : Int) ≠ -1 := by omega
      refine ⟨iff_of_false hne ?_, fun he => absurd he hne, fun _ => ?_⟩
      · rintro ⟨hlong, hno⟩
        rcases hend with hmem | ⟨hall, hlt⟩
        · have hpre : stream.take line.length <+: stream.take size := List.take_prefix_take_left hle
          rw [hstream, List.take_left, ← hstream] at hpre
          exact hno (hpre.subset hmem)
        · rw [← hall] at hlong
          exact absurd hlt (Nat.not_lt_of_le hlong)
      · rw [← hfirst]
        exact ⟨rfl, hline.buf, hdrop⟩
  · obtain ⟨-, hlt, -, hprogress⟩ := hline.reading index hi
    exact Nat.lt_of_le_of_lt hprogress hlt

end SystemFunc.Wrap
