import Mathlib.Data.List.Induction
import SystemFunc.Lib.Steps
import SystemFunc.Wrap.Defs

/-!
# Whole calls of `ReadCount` and `WriteCount`, in both libraries

`internet/wrap/wrap.c` and `util/inet_wrap/generic_wrap.c` have a version each of the two functions. A call is a system
that takes one answer of `read` or `write` at a time, so that a script of answers is a run. `read` answers `0` at the
end of the stream and only there, and neither call answers with more than it was asked for.

- `ReadCall.SoFar` and `WriteCall.SoFar`: the two cursors stay complementary, and what is in `buf`, or written, is what
  they say;
- `counts_spec`: what the four functions return and transfer, on every script, and that the libraries agree.
-/

namespace SystemFunc.Wrap

open Buffer

/-! ## The two libraries -/

inductive Library where
  | wrap
  | genericWrap
  deriving DecidableEq

/-- The loop body in `util/inet_wrap/generic_wrap.c`. -/
def GenericWrap.pass (l : Count) (headStr : String) : Answer → Pass
  | .cnt 0 => .leave
  | .failed .eagain => .again l
  | .failed .ewouldblock => .again l
  | .failed .eintr => .again l
  | .failed .other => .exit headStr
  | .cnt n => .again { left := l.left - n, index := l.index + n }

def GenericWrap.ReadCount.headStr : String := "call ReadCount failed"

def GenericWrap.WriteCount.headStr : String := "call WriteCount failed"

/-- The microseconds for which a pass in `internet/wrap/wrap.c` sleeps. -/
def usleep : Answer → Nat
  | .failed .eagain => 1000
  | .failed .ewouldblock => 1000
  | _ => 0

def Library.readPass (lib : Library) (l : Count) (a : Answer) : Pass :=
  match lib with
  | .wrap => l.pass ReadCount.headStr a
  | .genericWrap => GenericWrap.pass l GenericWrap.ReadCount.headStr a

def Library.writePass (lib : Library) (l : Count) (a : Answer) : Pass :=
  match lib with
  | .wrap => l.pass WriteCount.headStr a
  | .genericWrap => GenericWrap.pass l GenericWrap.WriteCount.headStr a

def Library.usleep (lib : Library) (a : Answer) : Nat :=
  match lib with
  | .wrap => Wrap.usleep a
  | .genericWrap => 0

/-! ## Calls -/

/-- Before a `read` or `write`, returned, or at the error exit. -/
inductive CallCtrl where
  | loop (l : Count)
  | returned (ret : Nat)
  | exited (headStr : String)
  deriving DecidableEq

/-- `while (left > 0)`. -/
def CallCtrl.enter (l : Count) : CallCtrl := if l.left > 0 then .loop l else .returned l.index

def Pass.ctrl (l : Count) : Pass → CallCtrl
  | .again l' => .enter l'
  | .leave => .returned l.index
  | .exit headStr => .exited headStr

/-- A call of `ReadCount`: its buffer, the stream up to its end, and how long it has slept. -/
structure ReadCall where
  ctrl : CallCtrl
  buf : Nat → UInt8
  input : List UInt8
  slept : Nat

def ReadCall.start (count : Nat) (buf : Nat → UInt8) (stream : List UInt8) : ReadCall where
  ctrl := .enter (.start count)
  buf := buf
  input := stream
  slept := 0

/-- What `read` can answer when it is asked for `left` bytes. -/
def Answer.ofStream (left : Nat) (input : List UInt8) : Answer → Bool
  | .cnt 0 => input.isEmpty
  | .cnt n => n ≤ left && n ≤ input.length
  | .failed _ => true

def Library.readCount (lib : Library) (s : ReadCall) (a : Answer) : Option ReadCall :=
  match s.ctrl with
  | .loop l =>
    if a.ofStream l.left s.input then
      some {
        ctrl := (lib.readPass l a).ctrl l
        buf := store s.buf l.index (s.input.take a.size)
        input := s.input.drop a.size
        slept := s.slept + lib.usleep a }
    else none
  | _ => none

/-- A call of `WriteCount`: the bytes it has written, and how long it has slept. -/
structure WriteCall where
  ctrl : CallCtrl
  out : List UInt8
  slept : Nat
  deriving DecidableEq

def WriteCall.start (count : Nat) : WriteCall where
  ctrl := .enter (.start count)
  out := []
  slept := 0

def Library.writeCount (lib : Library) (buf : Nat → UInt8) (s : WriteCall) (a : Answer) : Option WriteCall :=
  match s.ctrl with
  | .loop l =>
    if a.size ≤ l.left then
      some {
        ctrl := (lib.writePass l a).ctrl l
        out := s.out ++ slice buf l.index a.size
        slept := s.slept + lib.usleep a }
    else none
  | _ => none

/-- What a call has done, but how long it took. -/
def ReadCall.result (s : ReadCall) : ReadCall := { s with slept := 0 }

def WriteCall.result (s : WriteCall) : WriteCall := { s with slept := 0 }

/-! ## One pass -/

/-- An answer after which the call is made again. -/
def Answer.interrupted : Answer → Bool
  | .failed .eagain | .failed .ewouldblock | .failed .eintr => true
  | _ => false

/-- What a pass comes to. -/
inductive Passes (l : Count) : Answer → CallCtrl → Prop
  | some {n : Nat} (hn : 0 < n) : Passes l (.cnt n) (.enter { left := l.left - n, index := l.index + n })
  | none : Passes l (.cnt 0) (.returned l.index)
  | retry {a : Answer} (ha : a.interrupted = true) (hsize : a.size = 0) : Passes l a (.enter l)
  | failed {headStr : String} : Passes l (.failed .other) (.exited headStr)

theorem pass_passes (l : Count) (headStr : String) (a : Answer) : Passes l a ((l.pass headStr a).ctrl l) := by
  cases a with
  | cnt n =>
    cases n with
    | zero => exact .none
    | succ n => exact .some (Nat.succ_pos n)
  | failed e =>
    cases e with
    | other => exact .failed
    | eagain => exact .retry rfl rfl
    | ewouldblock => exact .retry rfl rfl
    | eintr => exact .retry rfl rfl

/-- The two loop bodies do the same, but for the sleep. -/
theorem genericWrap_pass (l : Count) (headStr : String) (a : Answer) :
    GenericWrap.pass l headStr a = l.pass headStr a := by
  cases a with
  | cnt n => cases n <;> rfl
  | failed e => cases e <;> rfl

theorem readPass_eq (lib : Library) (l : Count) (a : Answer) : lib.readPass l a = l.pass ReadCount.headStr a := by
  cases lib with
  | wrap => rfl
  | genericWrap => exact genericWrap_pass l _ a

theorem writePass_eq (lib : Library) (l : Count) (a : Answer) : lib.writePass l a = l.pass WriteCount.headStr a := by
  cases lib with
  | wrap => rfl
  | genericWrap => exact genericWrap_pass l _ a

/-! ## The cursors -/

/-- The number of answers that were not interruptions. -/
def progress (as : List Answer) : Nat := as.countP fun a => !a.interrupted

theorem progress_append (as : List Answer) (a : Answer) :
    progress (as ++ [a]) = progress as + if a.interrupted then 0 else 1 := by
  cases ha : a.interrupted <;> simp [progress, ha]

/-- After the answers `as` a call has transferred `i` of `count` bytes; `short` is what must hold when it returns with
less. -/
structure Cursors (count i : Nat) (short : Prop) (as : List Answer) (ctrl : CallCtrl) : Prop where
  le : i ≤ count
  loop : ∀ l, ctrl = .loop l → l = { left := count - i, index := i } ∧ i < count ∧ progress as ≤ i
  returned : ∀ r, ctrl = .returned r → r = i ∧ (i = count ∨ short)
  exited : ∀ headStr, ctrl = .exited headStr → .failed .other ∈ as

theorem Cursors.enter {count i : Nat} {short : Prop} {as : List Answer} (hle : i ≤ count)
    (hprogress : progress as ≤ i) : Cursors count i short as (.enter { left := count - i, index := i }) := by
  unfold CallCtrl.enter
  split
  next hleft =>
    refine ⟨hle, fun l hl => ?_, nofun, nofun⟩
    cases hl
    exact ⟨rfl, Nat.lt_of_sub_pos hleft, hprogress⟩
  next hleft =>
    refine ⟨hle, nofun, fun r hr => ?_, nofun⟩
    cases hr
    exact ⟨rfl, .inl (Nat.le_antisymm hle (Nat.sub_eq_zero_iff_le.1 (Nat.eq_zero_of_not_pos hleft)))⟩

/-- **A pass keeps the cursors complementary.** -/
theorem Cursors.pass {count i : Nat} {short short' : Prop} {as : List Answer} {l : Count} {a : Answer} {ctrl : CallCtrl}
    (h : Cursors count i short as (.loop l)) (hp : Passes l a ctrl) (hsize : a.size ≤ l.left)
    (hshort : a = .cnt 0 → short') : Cursors count (i + a.size) short' (as ++ [a]) ctrl := by
  obtain ⟨rfl, hlt, hprogress⟩ := h.loop l rfl
  have hmore := progress_append as a
  cases hp with
  | @some n hn =>
    have hsize' : n ≤ count - i := hsize
    have hleft : count - i - n = count - (i + n) := Nat.sub_sub _ _ _
    have hprogress' : progress (as ++ [.cnt n]) = progress as + 1 := hmore
    rw [hleft]
    exact .enter (by simp only [Answer.size]; omega) (by simp only [Answer.size]; omega)
  | none =>
    refine ⟨h.le, nofun, fun r hr => ?_, nofun⟩
    cases hr
    exact ⟨rfl, .inr (hshort rfl)⟩
  | retry ha hzero =>
    rw [ha] at hmore
    rw [hzero]
    exact .enter h.le (Nat.le_trans (Nat.le_of_eq hmore) hprogress)
  | failed =>
    exact ⟨h.le, nofun, nofun, fun _ _ => List.mem_append_right as List.mem_cons_self⟩

/-! ## `ReadCount` -/

section ReadCount

variable {lib : Library} {count : Nat} {buf : Nat → UInt8} {stream : List UInt8} {as : List Answer} {s t : ReadCall}

/-- The call has moved `i` bytes of the stream to the start of `buf`. -/
structure ReadCall.SoFar (count : Nat) (buf : Nat → UInt8) (stream : List UInt8) (as : List Answer) (i : Nat)
    (s : ReadCall) : Prop where
  cursors : Cursors count i (i = stream.length) as s.ctrl
  le : i ≤ stream.length
  buf : s.buf = store buf 0 (stream.take i)
  input : s.input = stream.drop i

theorem ReadCall.start_soFar : (ReadCall.start count buf stream).SoFar count buf stream [] 0 where
  cursors := .enter (Nat.zero_le _) (Nat.le_refl _)
  le := Nat.zero_le _
  buf := store_nil.symm
  input := rfl

theorem ofStream_cases {left : Nat} {input : List UInt8} {a : Answer} (h : a.ofStream left input = true) :
    a.size ≤ left ∧ a.size ≤ input.length ∧ (a = .cnt 0 → input = []) := by
  cases a with
  | cnt n =>
    cases n with
    | zero => exact ⟨Nat.zero_le _, Nat.zero_le _, fun _ => List.isEmpty_iff.1 h⟩
    | succ n =>
      obtain ⟨hleft, hin⟩ : n + 1 ≤ left ∧ n + 1 ≤ input.length := by simpa [Answer.ofStream] using h
      exact ⟨hleft, hin, nofun⟩
  | failed e => exact ⟨Nat.zero_le _, Nat.zero_le _, nofun⟩

theorem ReadCall.SoFar.step {i : Nat} {a : Answer} (h : s.SoFar count buf stream as i)
    (hs : lib.readCount s a = some t) : t.SoFar count buf stream (as ++ [a]) (i + a.size) := by
  unfold Library.readCount at hs
  split at hs
  next l hctrl =>
    simp only [Option.ite_none_right_eq_some, Option.some.injEq] at hs
    obtain ⟨hanswer, rfl⟩ := hs
    obtain ⟨hleft, hin, hzero⟩ := ofStream_cases hanswer
    have hcursors : Cursors count i (i = stream.length) as (.loop l) := hctrl ▸ h.cursors
    obtain ⟨rfl, -, -⟩ := hcursors.loop l rfl
    have hle := h.le
    have htake : (stream.take i).length = i := List.length_take_of_le hle
    rw [h.input, List.length_drop] at hin
    refine ⟨hcursors.pass (readPass_eq lib _ a ▸ pass_passes _ _ a) hleft fun ha => ?_, by omega, ?_, ?_⟩
    · have hend := hzero ha
      rw [h.input, List.drop_eq_nil_iff] at hend
      rw [ha]
      exact Nat.le_antisymm h.le hend
    · have hstore := @store_append _ buf 0 (stream.take i) ((stream.drop i).take a.size)
      rw [Nat.zero_add, htake, ← List.take_add] at hstore
      rw [h.buf, h.input, hstore]
    · rw [h.input, List.drop_drop]
  next => cases hs

theorem readCount_soFar (h : Steps.run lib.readCount (.start count buf stream) as = some t) :
    ∃ i, t.SoFar count buf stream as i := by
  induction as using List.reverseRecOn generalizing t with
  | nil =>
    cases h
    exact ⟨0, ReadCall.start_soFar⟩
  | append_singleton as a ih =>
    obtain ⟨u, hu, hlast⟩ := Steps.run_append.1 h
    obtain ⟨v, hv, hvt⟩ := Steps.run_cons.1 hlast
    cases hvt
    obtain ⟨i, hi⟩ := ih hu
    exact ⟨i + a.size, hi.step hv⟩

/-- What a call of `ReadCount` on a stream comes to. -/
structure ReadSpec (count : Nat) (buf : Nat → UInt8) (stream : List UInt8) (as : List Answer) (t : ReadCall) :
    Prop where
  returned : ∀ ret, t.ctrl = .returned ret →
    ret = min count stream.length ∧ t.buf = store buf 0 (stream.take ret) ∧ t.input = stream.drop ret
  loop : ∀ l, t.ctrl = .loop l → progress as < count
  exited : ∀ headStr, t.ctrl = .exited headStr → .failed .other ∈ as

theorem readCount_spec (h : Steps.run lib.readCount (.start count buf stream) as = some t) :
    ReadSpec count buf stream as t := by
  obtain ⟨i, hi⟩ := readCount_soFar h
  have hle := hi.le
  have hle' := hi.cursors.le
  refine ⟨fun ret hret => ?_, fun l hl => ?_, hi.cursors.exited⟩
  · obtain ⟨rfl, hend⟩ := hi.cursors.returned ret hret
    exact ⟨by omega, hi.buf, hi.input⟩
  · obtain ⟨-, hlt, hprogress⟩ := hi.cursors.loop l hl
    exact Nat.lt_of_le_of_lt hprogress hlt

end ReadCount

/-! ## `WriteCount` -/

section WriteCount

variable {lib : Library} {count : Nat} {buf : Nat → UInt8} {as : List Answer} {s t : WriteCall}

/-- The call has written the first `i` bytes of `buf`. -/
structure WriteCall.SoFar (count : Nat) (buf : Nat → UInt8) (as : List Answer) (i : Nat) (s : WriteCall) : Prop where
  cursors : Cursors count i (.cnt 0 ∈ as) as s.ctrl
  out : s.out = slice buf 0 i

theorem WriteCall.SoFar.step {i : Nat} {a : Answer} (h : s.SoFar count buf as i)
    (hs : lib.writeCount buf s a = some t) : t.SoFar count buf (as ++ [a]) (i + a.size) := by
  unfold Library.writeCount at hs
  split at hs
  next l hctrl =>
    simp only [Option.ite_none_right_eq_some, Option.some.injEq] at hs
    obtain ⟨hleft, rfl⟩ := hs
    have hcursors : Cursors count i (.cnt 0 ∈ as) as (.loop l) := hctrl ▸ h.cursors
    obtain ⟨rfl, -, -⟩ := hcursors.loop l rfl
    refine ⟨hcursors.pass (writePass_eq lib _ a ▸ pass_passes _ _ a) hleft fun ha => ?_, ?_⟩
    · exact List.mem_append_right as (List.mem_singleton.2 ha.symm)
    · rw [h.out, slice_add, Nat.zero_add]
  next => cases hs

theorem writeCount_soFar (h : Steps.run (lib.writeCount buf) (.start count) as = some t) :
    ∃ i, t.SoFar count buf as i := by
  induction as using List.reverseRecOn generalizing t with
  | nil =>
    cases h
    exact ⟨0, .enter (Nat.zero_le _) (Nat.le_refl _), rfl⟩
  | append_singleton as a ih =>
    obtain ⟨u, hu, hlast⟩ := Steps.run_append.1 h
    obtain ⟨v, hv, hvt⟩ := Steps.run_cons.1 hlast
    cases hvt
    obtain ⟨i, hi⟩ := ih hu
    exact ⟨i + a.size, hi.step hv⟩

/-- What a call of `WriteCount` comes to. -/
structure WriteSpec (count : Nat) (buf : Nat → UInt8) (as : List Answer) (t : WriteCall) : Prop where
  returned : ∀ ret, t.ctrl = .returned ret → t.out = slice buf 0 ret ∧ ret ≤ count ∧ (.cnt 0 ∉ as → ret = count)
  loop : ∀ l, t.ctrl = .loop l → progress as < count
  exited : ∀ headStr, t.ctrl = .exited headStr → .failed .other ∈ as

theorem writeCount_spec (h : Steps.run (lib.writeCount buf) (.start count) as = some t) :
    WriteSpec count buf as t := by
  obtain ⟨i, hi⟩ := writeCount_soFar h
  refine ⟨fun ret hret => ?_, fun l hl => ?_, hi.cursors.exited⟩
  · obtain ⟨rfl, hend⟩ := hi.cursors.returned ret hret
    exact ⟨hi.out, hi.cursors.le, fun hzero => hend.resolve_right hzero⟩
  · obtain ⟨-, hlt, hprogress⟩ := hi.cursors.loop l hl
    exact Nat.lt_of_le_of_lt hprogress hlt

/-- After its loop a call takes no more answers. -/
theorem run_stopped (hs : ∀ l, s.ctrl ≠ .loop l) (h : Steps.run (lib.writeCount buf) s as = some t) :
    as = [] ∧ t = s := by
  cases as with
  | nil => exact ⟨rfl, (Option.some.inj h).symm⟩
  | cons a as =>
    obtain ⟨u, hu, -⟩ := Steps.run_cons.1 h
    unfold Library.writeCount at hu
    split at hu
    next l hctrl => exact absurd hctrl (hs l)
    next => cases hu

/-- `writeCount` is such a call, in `internet/wrap/wrap.c`. -/
theorem writeCount_of_run {l : Count} {ret : Nat} (hs : s.ctrl = .enter l)
    (h : Steps.run (Library.wrap.writeCount buf) s as = some t) (hret : t.ctrl = .returned ret) :
    ∃ bs, t.out = s.out ++ bs ∧ writeCount buf l as = some (bs, ret, []) := by
  induction as generalizing s l with
  | nil =>
    cases h
    have hleft : ¬l.left > 0 := fun hpos => by
      rw [hs, CallCtrl.enter, if_pos hpos] at hret
      cases hret
    rw [hs, CallCtrl.enter, if_neg hleft] at hret
    cases hret
    exact ⟨[], (List.append_nil _).symm, if_pos (Nat.eq_zero_of_not_pos hleft)⟩
  | cons a as ih =>
    obtain ⟨u, hu, ht⟩ := Steps.run_cons.1 h
    unfold Library.writeCount at hu
    split at hu
    next l' hctrl =>
      have hpos : l.left > 0 := by
        by_contra hleft
        rw [hs, CallCtrl.enter, if_neg hleft] at hctrl
        cases hctrl
      obtain rfl : l = l' := by
        rw [hs, CallCtrl.enter, if_pos hpos] at hctrl
        exact CallCtrl.loop.inj hctrl
      simp only [Option.ite_none_right_eq_some, Option.some.injEq] at hu
      obtain ⟨hsize, rfl⟩ := hu
      have hne : ¬l.left = 0 := Nat.pos_iff_ne_zero.1 hpos
      have hsize' : ¬l.left < a.size := Nat.not_lt_of_le hsize
      simp only [writeCount, if_neg hne, if_neg hsize']
      cases hpass : l.pass WriteCount.headStr a with
      | again l' =>
        obtain ⟨bs, hout, hbs⟩ := ih (l := l') (by simp [Library.writePass, hpass, Pass.ctrl]) ht
        exact ⟨slice buf l.index a.size ++ bs, by rw [hout, List.append_assoc], by simp [hbs]⟩
      | leave =>
        obtain ⟨rfl, rfl⟩ := run_stopped (by simp [Library.writePass, hpass, Pass.ctrl]) ht
        simp only [Library.writePass, hpass, Pass.ctrl, CallCtrl.returned.injEq] at hret
        subst hret
        rw [pass_leave hpass]
        exact ⟨[], rfl, rfl⟩
      | exit headStr =>
        obtain ⟨rfl, rfl⟩ := run_stopped (by simp [Library.writePass, hpass, Pass.ctrl]) ht
        simp [Library.writePass, hpass, Pass.ctrl] at hret
    next => cases hu

end WriteCount

/-! ## Both libraries -/

theorem readCount_result {lib lib' : Library} {s t : ReadCall} (h : s.result = t.result) (a : Answer) :
    (lib.readCount s a).map ReadCall.result = (lib'.readCount t a).map ReadCall.result := by
  obtain ⟨ctrl, buf, input, slept⟩ := s
  obtain ⟨ctrl', buf', input', slept'⟩ := t
  obtain ⟨rfl, rfl, rfl, -⟩ := ReadCall.mk.inj h
  cases ctrl with
  | loop l =>
    simp only [Library.readCount, readPass_eq]
    split <;> rfl
  | returned ret => rfl
  | exited headStr => rfl

theorem writeCount_result {lib lib' : Library} {buf : Nat → UInt8} {s t : WriteCall} (h : s.result = t.result)
    (a : Answer) : (lib.writeCount buf s a).map WriteCall.result = (lib'.writeCount buf t a).map WriteCall.result := by
  obtain ⟨ctrl, out, slept⟩ := s
  obtain ⟨ctrl', out', slept'⟩ := t
  obtain ⟨rfl, rfl, -⟩ := WriteCall.mk.inj h
  cases ctrl with
  | loop l =>
    simp only [Library.writeCount, writePass_eq]
    split <;> rfl
  | returned ret => rfl
  | exited headStr => rfl

/-- **`ReadCount` and `WriteCount`**: in both libraries and on every script of answers, they return and transfer what
they should; and the two libraries do the same, but for the time that they sleep. -/
theorem counts_spec (count : Nat) (buf : Nat → UInt8) (stream : List UInt8) (as : List Answer) :
    (∀ (lib : Library) (t : ReadCall), Steps.run lib.readCount (.start count buf stream) as = some t →
      ReadSpec count buf stream as t) ∧
    (∀ (lib : Library) (t : WriteCall), Steps.run (lib.writeCount buf) (.start count) as = some t →
      WriteSpec count buf as t) ∧
    (Steps.run Library.genericWrap.readCount (.start count buf stream) as).map ReadCall.result =
      (Steps.run Library.wrap.readCount (.start count buf stream) as).map ReadCall.result ∧
    (Steps.run (Library.genericWrap.writeCount buf) (.start count) as).map WriteCall.result =
      (Steps.run (Library.wrap.writeCount buf) (.start count) as).map WriteCall.result :=
  ⟨fun _ _ h => readCount_spec h, fun _ _ h => writeCount_spec h,
    Steps.run_map_eq (fun _ _ a h => readCount_result h a) rfl as,
    Steps.run_map_eq (fun _ _ a h => writeCount_result h a) rfl as⟩

/-- Three bytes are asked for, two come, the second after an interruption. -/
theorem counts_spec_short : ∃ t, Steps.run Library.wrap.readCount (.start 3 (fun _ => 0) [104, 105])
      [.cnt 1, .failed .eintr, .failed .eagain, .cnt 1, .cnt 0] = some t ∧ t.ctrl = .returned 2 ∧
    ReadSpec 3 (fun _ => 0) [104, 105] [.cnt 1, .failed .eintr, .failed .eagain, .cnt 1, .cnt 0] t :=
  ⟨_, rfl, rfl, (counts_spec 3 (fun _ => 0) [104, 105] _).1 .wrap _ rfl⟩

end SystemFunc.Wrap
