import SystemFunc.LineServer.Reading

/-!
# The line echo of `echo_server.c` and `echo_server_multithread.c`

`DoReadWrite` reads a line with `ReadLine` and writes it back with `WriteCount`, until `ReadLine` returns `0` or `-1`.
The system has the answers of `read` and `write` as its actions; `out` is what has been written.

- `Inv`: what is written, what is in `buf` for the call that runs and what has not been read are together the stream;
- `readLine_partitions`: `ReadLine` cuts the stream into its lines, and the loop sends back the stream.
-/

namespace SystemFunc.LineServer

open Buffer Wrap Lines

/-- In `ReadLine`, in `WriteCount`, behind the loop with the last `cnt`, or at an error exit. -/
inductive EchoCtrl where
  | line (index : Nat)
  | write (l : Count)
  | left (cnt : Int)
  | exited (headStr : String)
  deriving DecidableEq

structure Echo where
  ctrl : EchoCtrl
  buf : Nat → UInt8
  input : List UInt8
  out : List UInt8
  slept : Nat

inductive EchoAct where
  | read (a : Answer)
  | write (a : Answer)
  deriving DecidableEq

/-- The body of the loop: `buf[cnt] = 0`, and the call of `WriteCount`. -/
def Echo.body (s : Echo) (cnt : Nat) : Echo :=
  { s with ctrl := .write (.start cnt), buf := store s.buf cnt [0] }

/-- A pass of `ReadLine`, and where it has returned, the test of the loop. -/
def Echo.afterRead (s : Echo) (c : LineCall) : Echo :=
  let s := { s with buf := c.buf, input := c.input, slept := c.slept }
  match c.ctrl with
  | .reading index => { s with ctrl := .line index }
  | .returned cnt => if cnt > 0 then s.body cnt.toNat else { s with ctrl := .left cnt }
  | .exited headStr => { s with ctrl := .exited headStr }

/-- The call of `ReadLine`. -/
def Echo.next (s : Echo) : Echo := s.afterRead { LineCall.start LINE_SIZE s.buf s.input with slept := s.slept }

/-- A pass of `WriteCount`; its result is not looked at. -/
def Echo.afterWrite (s : Echo) (c : WriteCall) : Echo :=
  let s := { s with out := c.out, slept := c.slept }
  match c.ctrl with
  | .loop l => { s with ctrl := .write l }
  | .returned _ => s.next
  | .exited headStr => { s with ctrl := .exited headStr }

def Echo.step (s : Echo) : EchoAct → Option Echo
  | .read a =>
    match s.ctrl with
    | .line index =>
      (readLine LINE_SIZE { ctrl := .reading index, buf := s.buf, input := s.input, slept := s.slept } a).map
        s.afterRead
    | _ => none
  | .write a =>
    match s.ctrl with
    | .write l =>
      (Library.wrap.writeCount s.buf { ctrl := .loop l, out := s.out, slept := s.slept } a).map s.afterWrite
    | _ => none

/-- `DoReadWrite`, for a client that sends `stream`. -/
def Echo.start (buf : Nat → UInt8) (stream : List UInt8) : Echo :=
  Echo.next { ctrl := .left 0, buf := buf, input := stream, out := [], slept := 0 }

variable {stream line : List UInt8} {as : List EchoAct} {a : EchoAct} {s t : Echo} {buf : Nat → UInt8}

/-! ## After a pass of `ReadLine` -/

section AfterRead

variable {c : LineCall}

theorem Echo.afterRead_reading {index : Nat} (h : c.ctrl = .reading index) (s : Echo) :
    s.afterRead c = { s with ctrl := .line index, buf := c.buf, input := c.input, slept := c.slept } := by
  simp only [Echo.afterRead, h]

theorem Echo.afterRead_line (h : c.ctrl = .returned line.length) (hne : line ≠ []) (s : Echo) :
    s.afterRead c = Echo.body { s with buf := c.buf, input := c.input, slept := c.slept } line.length := by
  simp only [Echo.afterRead, h]
  exact if_pos (Int.natCast_pos.2 (List.length_pos_iff.2 hne))

theorem Echo.afterRead_eof (h : c.ctrl = .returned 0) (s : Echo) :
    s.afterRead c = { s with ctrl := .left 0, buf := c.buf, input := c.input, slept := c.slept } := by
  simp only [Echo.afterRead, h]
  exact if_neg (by decide)

theorem Echo.afterRead_exited {headStr : String} (h : c.ctrl = .exited headStr) (s : Echo) :
    s.afterRead c = { s with ctrl := .exited headStr, buf := c.buf, input := c.input, slept := c.slept } := by
  simp only [Echo.afterRead, h]

end AfterRead

/-! ## The invariant -/

def EchoAct.answer : EchoAct → Answer
  | .read a => a
  | .write a => a

/-- The number of answers that were not interruptions. -/
def echoProgress (as : List EchoAct) : Nat := progress (as.map EchoAct.answer)

theorem echoProgress_append (as : List EchoAct) (a : EchoAct) :
    echoProgress (as ++ [a]) = echoProgress as + if a.answer.interrupted then 0 else 1 := by
  rw [echoProgress, List.map_append]
  exact progress_append _ _

/-- What is written, what the call that runs has in `buf`, and what has not been read. -/
inductive Inv (stream : List UInt8) (as : List EchoAct) (s : Echo) : Prop
  | line {line : List UInt8} (hctrl : s.ctrl = .line line.length)
      (hpart : Partial line { ctrl := .reading line.length, buf := s.buf, input := s.input, slept := s.slept })
      (hstream : stream = s.out ++ (line ++ s.input)) (hprogress : echoProgress as ≤ 3 * s.out.length + line.length)
  | write {l : Count} (hctrl : s.ctrl = .write l) (hleft : 0 < l.left) (hfits : Fits s.input)
      (hstream : stream = s.out ++ (slice s.buf l.index l.left ++ s.input))
      (hprogress : echoProgress as ≤ 3 * s.out.length + 2 * l.left)
  | left {cnt : Int} (hctrl : s.ctrl = .left cnt) (hout : s.out = stream)
  | exited {headStr : String} (hctrl : s.ctrl = .exited headStr) (hout : s.out <+: stream)
      (ha : ∃ a ∈ as, a.answer = .failed .other)

/-- `ReadLine` is called. -/
theorem inv_next (hfits : Fits s.input) (hstream : stream = s.out ++ s.input)
    (hprogress : echoProgress as ≤ 3 * s.out.length) : Inv stream as s.next :=
  @Inv.line _ _ _ [] rfl (.start hfits) hstream hprogress

theorem inv_read {ans : Answer} (h : Inv stream as s) (hs : s.step (.read ans) = some t) :
    Inv stream (as ++ [.read ans]) t := by
  have hmore : echoProgress (as ++ [.read ans]) = echoProgress as + if ans.interrupted then 0 else 1 :=
    echoProgress_append as (.read ans)
  have hone : echoProgress (as ++ [.read ans]) ≤ echoProgress as + 1 := by split at hmore <;> omega
  cases h with
  | @line line hctrl hpart hstream hprogress =>
    simp only [Echo.step, hctrl, Option.map_eq_some_iff] at hs
    obtain ⟨c, hc, rfl⟩ := hs
    cases hpart.reads hc with
    | @more line' hpart' hsplit hlen =>
      rw [Echo.afterRead_reading hpart'.ctrl]
      refine .line rfl ⟨rfl, hpart'.buf, hpart'.notMem, hpart'.fits⟩ (hstream.trans (congrArg _ hsplit)) ?_
      dsimp only
      omega
    | @ends line' hctrl' hbuf hne hsplit hlines hfits hlen hle =>
      have hpos : 0 < line'.length := List.length_pos_iff.2 hne
      have hslice : slice (store c.buf line'.length [0]) 0 line'.length = line' :=
        (slice_store_left (Nat.le_of_eq (Nat.zero_add _))).trans hbuf
      rw [Echo.afterRead_line hctrl' hne]
      refine .write (l := .start line'.length) rfl hpos hfits ?_ ?_
      · rw [hstream, hsplit]
        exact congrArg (s.out ++ ·) (congrArg (· ++ c.input) hslice.symm)
      · simp only [Echo.body, Count.start]
        omega
    | eof hctrl' hline hin hin' =>
      have hin : s.input = [] := hin
      rw [Echo.afterRead_eof hctrl']
      exact .left rfl (by rw [hstream, hline, hin, List.append_nil, List.append_nil])
    | failed ha hctrl' =>
      rw [Echo.afterRead_exited hctrl']
      exact .exited rfl ⟨_, hstream.symm⟩ ⟨.read ans, List.mem_append_right as List.mem_cons_self, ha⟩
  | write hctrl _ _ _ _ => simp [Echo.step, hctrl] at hs
  | left hctrl _ => simp [Echo.step, hctrl] at hs
  | exited hctrl _ _ => simp [Echo.step, hctrl] at hs

/-- `WriteCount` goes on with `l`, or it returns and `ReadLine` is called. -/
theorem inv_enter {l : Count} {c : WriteCall} (hctrl : c.ctrl = .enter l) (hfits : Fits s.input)
    (hstream : stream = c.out ++ (slice s.buf l.index l.left ++ s.input))
    (hprogress : echoProgress as ≤ 3 * c.out.length + 2 * l.left) : Inv stream as (s.afterWrite c) := by
  unfold CallCtrl.enter at hctrl
  split at hctrl
  next hleft =>
    have hafter : s.afterWrite c = { s with ctrl := .write l, out := c.out, slept := c.slept } := by
      simp only [Echo.afterWrite, hctrl]
    rw [hafter]
    exact .write rfl hleft hfits hstream hprogress
  next hleft =>
    have hzero : l.left = 0 := Nat.eq_zero_of_not_pos hleft
    have hafter : s.afterWrite c = Echo.next { s with out := c.out, slept := c.slept } := by
      simp only [Echo.afterWrite, hctrl]
    rw [hzero] at hstream hprogress
    rw [hafter]
    exact inv_next hfits hstream hprogress

/-- A `write` that takes some bytes, or is interrupted. -/
theorem inv_write {ans : Answer} (h : Inv stream as s) (hne : ans ≠ .cnt 0) (hs : s.step (.write ans) = some t) :
    Inv stream (as ++ [.write ans]) t := by
  have hmore : echoProgress (as ++ [.write ans]) = echoProgress as + if ans.interrupted then 0 else 1 :=
    echoProgress_append as (.write ans)
  cases h with
  | @write l hctrl hleft hfits hstream hprogress =>
    simp only [Echo.step, hctrl, Option.map_eq_some_iff, Library.writeCount, Option.ite_none_right_eq_some,
      Option.some.injEq] at hs
    obtain ⟨_, ⟨hsize, rfl⟩, rfl⟩ := hs
    have hpasses := pass_passes l WriteCount.headStr ans
    rw [← writePass_eq .wrap] at hpasses
    generalize (Library.wrap.writePass l ans).ctrl l = ctrl at hpasses
    cases hpasses with
    | @some n hn =>
      have hsize : n ≤ l.left := hsize
      have hcut : slice s.buf l.index l.left = slice s.buf l.index n ++ slice s.buf (l.index + n) (l.left - n) := by
        rw [← slice_add, Nat.add_sub_cancel' hsize]
      have hcnt : (Answer.cnt n).interrupted = false := rfl
      rw [hcnt] at hmore
      refine inv_enter rfl hfits ?_ ?_
      · rw [hstream, hcut]
        simp only [Answer.size, List.append_assoc]
      · simp only [Answer.size, List.length_append, slice_length]
        simp only [Bool.false_eq_true, if_false] at hmore
        omega
    | none => exact absurd rfl hne
    | retry ha hzero =>
      rw [ha, if_pos rfl] at hmore
      refine inv_enter rfl hfits ?_ ?_
      · rw [hzero, slice_zero, List.append_nil]
        exact hstream
      · rw [hzero, slice_zero, List.append_nil, hmore]
        exact hprogress
    | failed =>
      refine .exited rfl ⟨slice s.buf l.index l.left ++ s.input, ?_⟩
        ⟨.write (.failed .other), List.mem_append_right as List.mem_cons_self, rfl⟩
      rw [hstream]
      simp [Echo.afterWrite, Answer.size]
  | line hctrl _ _ _ => simp [Echo.step, hctrl] at hs
  | left hctrl _ => simp [Echo.step, hctrl] at hs
  | exited hctrl _ _ => simp [Echo.step, hctrl] at hs

theorem inv_run (hfits : Fits stream) (hne : EchoAct.write (.cnt 0) ∉ as)
    (h : Steps.run Echo.step (.start buf stream) as = some t) : Inv stream as t := by
  induction as using List.reverseRecOn generalizing t with
  | nil =>
    cases h
    exact inv_next hfits rfl (Nat.le_refl _)
  | append_singleton as a ih =>
    rw [List.mem_append, not_or, List.mem_singleton] at hne
    obtain ⟨u, hu, hlast⟩ := Steps.run_append.1 h
    obtain ⟨v, hv, hvt⟩ := Steps.run_cons.1 hlast
    cases hvt
    have hinv := ih hne.1 hu
    cases a with
    | read ans => exact inv_read hinv hv
    | write ans => exact inv_write hinv (fun he => hne.2 (he ▸ rfl)) hv

/-! ## The echo -/

/-- In a call of `ReadLine` or of `WriteCount`. -/
def EchoCtrl.running : EchoCtrl → Bool
  | .line _ | .write _ => true
  | _ => false

/-- What the loop has sent back, and that it goes on until it has sent back everything. -/
structure EchoSpec (stream : List UInt8) (as : List EchoAct) (t : Echo) : Prop where
  left : ∀ cnt, t.ctrl = .left cnt → t.out = stream
  le : t.out <+: stream
  running : t.ctrl.running = true →
    echoProgress as ≤ 3 * stream.length ∧ ∃ a, a.answer.interrupted = false ∧ (t.step a).isSome
  exited : ∀ headStr, t.ctrl = .exited headStr → ∃ a ∈ as, a.answer = .failed .other

theorem Inv.spec (h : Inv stream as t) : EchoSpec stream as t := by
  cases h with
  | @line line hctrl hpart hstream hprogress =>
    refine ⟨fun cnt hc => ?_, ⟨_, hstream.symm⟩, fun _ => ⟨?_, ?_⟩, fun headStr he => ?_⟩
    · rw [hctrl] at hc
      cases hc
    · rw [hstream, List.length_append, List.length_append]
      omega
    · cases hin : t.input with
      | nil => exact ⟨.read (.cnt 0), rfl, by simp [Echo.step, hctrl, readLine, hin]⟩
      | cons ch input => exact ⟨.read (.cnt 1), rfl, by simp [Echo.step, hctrl, readLine, hin]⟩
    · rw [hctrl] at he
      cases he
  | @write l hctrl hleft hfits hstream hprogress =>
    refine ⟨fun cnt hc => ?_, ⟨_, hstream.symm⟩, fun _ => ⟨?_, ?_⟩, fun headStr he => ?_⟩
    · rw [hctrl] at hc
      cases hc
    · rw [hstream, List.length_append, List.length_append, slice_length]
      omega
    · have hsize : (Answer.cnt 1).size ≤ l.left := hleft
      exact ⟨.write (.cnt 1), rfl, by simp [Echo.step, hctrl, Library.writeCount, hsize]⟩
    · rw [hctrl] at he
      cases he
  | left hctrl hout =>
    refine ⟨fun _ _ => hout, hout ▸ List.prefix_refl _, fun hrun => ?_, fun headStr he => ?_⟩
    · rw [hctrl] at hrun
      cases hrun
    · rw [hctrl] at he
      cases he
  | exited hctrl hout ha =>
    refine ⟨fun cnt hc => ?_, hout, fun hrun => ?_, fun _ _ => ha⟩
    · rw [hctrl] at hc
      cases hc
    · rw [hctrl] at hrun
      cases hrun

/-- **`ReadLine` and the echo**: a call of `ReadLine` returns the first line of what is left of the stream, or `-1` when
that is longer than the limit; and the loop of the echo servers sends back exactly the stream, if its lines fit. -/
theorem readLine_partitions (size : Nat) (buf : Nat → UInt8) (stream : List UInt8) :
    (∀ (as : List Answer) (t : LineCall), Steps.run (readLine size) (.start size buf stream) as = some t →
      LineSpec size buf stream as t) ∧
    (Fits stream → ∀ (as : List EchoAct) (t : Echo), EchoAct.write (.cnt 0) ∉ as →
      Steps.run Echo.step (.start buf stream) as = some t → EchoSpec stream as t) :=
  ⟨fun _ _ h => readLine_spec h, fun hfits _ _ hne h => (inv_run hfits hne h).spec⟩

/-- A line and an unterminated tail, with interruptions and a short write. -/
def echoRun : List EchoAct :=
  [.read (.cnt 1), .read (.failed .eintr), .read (.cnt 1), .read (.cnt 1), .write (.cnt 2), .write (.failed .eagain),
    .write (.cnt 1), .read (.cnt 1), .read (.cnt 0), .write (.cnt 1), .read (.cnt 0)]

theorem readLine_partitions_echoRun : ∃ t,
    Steps.run Echo.step (.start (fun _ => 0) [104, 105, 10, 120]) echoRun = some t ∧
    t.ctrl = .left 0 ∧ t.out = [104, 105, 10, 120] ∧ EchoSpec [104, 105, 10, 120] echoRun t := by
  have hfits : Fits [104, 105, 10, 120] := by
    unfold Fits
    decide
  exact ⟨_, rfl, rfl, rfl, (readLine_partitions LINE_SIZE _ _).2 hfits echoRun _ (by decide) rfl⟩

end SystemFunc.LineServer
