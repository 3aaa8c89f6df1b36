import SystemFunc.CString
import SystemFunc.LineServer.Reading

/-!
# The command server `call_system_server.c`

`DoReadWrite` makes its standard output the connection, reads a line with `ReadLine`, overwrites the last byte that was
read with `NUL` and passes the string in `buf` to `system`, until `ReadLine` returns `0` or `-1`. The last byte is the
newline of the line, but for a last line that ends with the stream: there it is a byte of the command.

- `commands`: the lines without their newlines; `executed`: the lines without their last bytes;
- `executed_run`: what is passed to `system` is `executed`;
- `executes_iff`: when that is the commands.
-/

namespace SystemFunc.LineServer

open Buffer Wrap Lines

/-- `sizeof(buf)`. -/
def BUF_SIZE : Nat := 1024

/-- Before `dup2`, in `ReadLine`, in `system`, behind the loop with the last `cnt`, or at an error exit. -/
inductive CommandCtrl where
  | redirect
  | line (index : Nat)
  | system
  | left (cnt : Int)
  | exited (headStr : String)
  deriving DecidableEq

/-- `calls` are the strings that `system` was called with. -/
structure Command where
  ctrl : CommandCtrl
  buf : Nat → UInt8
  input : List UInt8
  calls : List (List UInt8)
  slept : Nat

/-- What `dup2`, `read` and `system` answer. -/
inductive CommandAct where
  | dup2 (ok : Bool)
  | read (a : Answer)
  | system (status : Int)
  deriving DecidableEq

/-- The body of the loop, up to the call of `system`. -/
def Command.body (s : Command) (cnt : Nat) : Command :=
  let buf := store s.buf (cnt - 1) [0]
  { s with ctrl := .system, buf := buf, calls := s.calls ++ [strOf (slice buf 0 BUF_SIZE)] }

/-- A pass of `ReadLine`, and where it has returned, the test of the loop. -/
def Command.afterRead (s : Command) (c : LineCall) : Command :=
  let s := { s with buf := c.buf, input := c.input, slept := c.slept }
  match c.ctrl with
  | .reading index => { s with ctrl := .line index }
  | .returned cnt => if cnt > 0 then s.body cnt.toNat else { s with ctrl := .left cnt }
  | .exited headStr => { s with ctrl := .exited headStr }

/-- The call of `ReadLine`. -/
def Command.next (s : Command) : Command :=
  s.afterRead { LineCall.start LINE_SIZE s.buf s.input with slept := s.slept }

def Command.step (s : Command) : CommandAct → Option Command
  | .dup2 ok =>
    match s.ctrl with
    | .redirect => some (if ok then s.next else { s with ctrl := .exited "dup2 error" })
    | _ => none
  | .read a =>
    match s.ctrl with
    | .line index =>
      (readLine LINE_SIZE { ctrl := .reading index, buf := s.buf, input := s.input, slept := s.slept } a).map
        s.afterRead
    | _ => none
  | .system _ =>
    match s.ctrl with
    | .system => some s.next
    | _ => none

/-- `DoReadWrite`, for a client that sends `stream`. -/
def Command.start (buf : Nat → UInt8) (stream : List UInt8) : Command where
  ctrl := .redirect
  buf := buf
  input := stream
  calls := []
  slept := 0

variable {stream line : List UInt8} {as : List CommandAct} {a : CommandAct} {s t : Command} {buf : Nat → UInt8}

/-! ## After a pass of `ReadLine` -/

section AfterRead

variable {c : LineCall}

theorem Command.afterRead_reading {index : Nat} (h : c.ctrl = .reading index) (s : Command) :
    s.afterRead c = { s with ctrl := .line index, buf := c.buf, input := c.input, slept := c.slept } := by
  simp only [Command.afterRead, h]

theorem Command.afterRead_line (h : c.ctrl = .returned line.length) (hne : line ≠ []) (s : Command) :
    s.afterRead c = Command.body { s with buf := c.buf, input := c.input, slept := c.slept } line.length := by
  simp only [Command.afterRead, h]
  exact if_pos (Int.natCast_pos.2 (List.length_pos_iff.2 hne))

theorem Command.afterRead_eof (h : c.ctrl = .returned 0) (s : Command) :
    s.afterRead c = { s with ctrl := .left 0, buf := c.buf, input := c.input, slept := c.slept } := by
  simp only [Command.afterRead, h]
  exact if_neg (by decide)

theorem Command.afterRead_exited {headStr : String} (h : c.ctrl = .exited headStr) (s : Command) :
    s.afterRead c = { s with ctrl := .exited headStr, buf := c.buf, input := c.input, slept := c.slept } := by
  simp only [Command.afterRead, h]

end AfterRead

/-! ## What is executed -/

/-- The lines, without their newlines. -/
def commands (stream : List UInt8) : List (List UInt8) := (lines newline stream).map (chomp newline)

/-- The lines, without their last bytes. -/
def executed (stream : List UInt8) : List (List UInt8) := (lines newline stream).map List.dropLast

theorem executed_eq_commands_iff :
    executed stream = commands stream ↔ stream = [] ∨ stream.getLast? = some newline := by
  rw [← lines_end_iff, executed, commands, List.map_inj_left]
  exact forall₂_congr fun l hl => eq_comm.trans (chomp_eq_dropLast_iff (ne_nil_of_mem_lines hl))

/-- What has been passed to `system`, and what is still to come. -/
inductive CommandInv (stream : List UInt8) (s : Command) : Prop
  | redirect (hctrl : s.ctrl = .redirect) (hinput : s.input = stream) (hcalls : s.calls = [])
  | line {line : List UInt8} (hctrl : s.ctrl = .line line.length)
      (hpart : Partial line { ctrl := .reading line.length, buf := s.buf, input := s.input, slept := s.slept })
      (hnul : 0 ∉ line ++ s.input) (hcalls : s.calls ++ executed (line ++ s.input) = executed stream)
  | system (hctrl : s.ctrl = .system) (hfits : Fits s.input) (hnul : 0 ∉ s.input)
      (hcalls : s.calls ++ executed s.input = executed stream)
  | left {cnt : Int} (hctrl : s.ctrl = .left cnt) (hcalls : s.calls = executed stream)
  | exited {headStr : String} (hctrl : s.ctrl = .exited headStr) (hcalls : s.calls <+: executed stream)

theorem commandInv_next (hfits : Fits s.input) (hnul : 0 ∉ s.input)
    (hcalls : s.calls ++ executed s.input = executed stream) : CommandInv stream s.next :=
  @CommandInv.line _ _ [] rfl (.start hfits) hnul hcalls

/-- The string that is passed to `system` after a line has been read. -/
theorem strOf_body {buf : Nat → UInt8} (hbuf : slice buf 0 line.length = line) (hne : line ≠ [])
    (hlen : line.length ≤ BUF_SIZE) (hnul : 0 ∉ line) :
    strOf (slice (store buf (line.length - 1) [0]) 0 BUF_SIZE) = line.dropLast := by
  have hpos : 0 < line.length := List.length_pos_iff.2 hne
  have hfirst : slice buf 0 (line.length - 1) = line.dropLast := by
    rw [List.dropLast_eq_take, ← slice_take (Nat.sub_le _ _), hbuf]
  have hcells : slice (store buf (line.length - 1) [0]) 0 (line.length - 1 + 1) = line.dropLast ++ [0] := by
    have hstore := @slice_store _ buf 0 (line.length - 1) [0]
    rwa [Nat.zero_add, hfirst] at hstore
  obtain ⟨k, hk⟩ := Nat.exists_eq_add_of_le (Nat.le_trans (Nat.le_of_eq (Nat.sub_add_cancel hpos)) hlen)
  have hdrop : 0 ∉ line.dropLast := fun hmem => hnul ((List.dropLast_prefix line).subset hmem)
  rw [hk, slice_add, hcells, List.append_assoc]
  exact strOf_append_nul hdrop

/-- An answer of `read` in a line. -/
theorem commandInv_read {c d : LineCall} {ans : Answer} (hinput : c.input = s.input)
    (hreads : Reads line c ans d) (hnul : 0 ∉ line ++ s.input)
    (hcalls : s.calls ++ executed (line ++ s.input) = executed stream) : CommandInv stream (s.afterRead d) := by
  rw [← hinput] at hnul hcalls
  cases hreads with
  | @more line' hpart hsplit hlen =>
    rw [hsplit] at hnul hcalls
    rw [Command.afterRead_reading hpart.ctrl]
    exact .line rfl ⟨rfl, hpart.buf, hpart.notMem, hpart.fits⟩ hnul hcalls
  | @ends line' hctrl hbuf hne hsplit hlines hfits hlen hle =>
    rw [hsplit, List.mem_append, not_or] at hnul
    have hstr := strOf_body hbuf hne (Nat.le_trans hle (by decide)) hnul.1
    have hexecuted : executed (line ++ c.input) = line'.dropLast :: executed d.input := by
      rw [executed, hlines]
      rfl
    rw [Command.afterRead_line hctrl hne]
    refine .system rfl hfits hnul.2 ?_
    simp only [Command.body]
    rw [hstr, ← hcalls, hexecuted, List.append_assoc]
    rfl
  | eof hctrl hline hin hin' =>
    rw [hline, hin] at hcalls
    rw [Command.afterRead_eof hctrl]
    exact .left rfl ((List.append_nil _).symm.trans hcalls)
  | failed ha hctrl =>
    rw [Command.afterRead_exited hctrl]
    exact .exited rfl ⟨_, hcalls⟩

/-- **Every step keeps it.** -/
theorem commandInv_step (h : CommandInv stream s) (hfits : Fits stream) (hnul : 0 ∉ stream) (hs : s.step a = some t) :
    CommandInv stream t := by
  cases h with
  | redirect hctrl hinput hcalls =>
    cases a with
    | dup2 ok =>
      simp only [Command.step, hctrl, Option.some.injEq] at hs
      subst hs
      cases ok with
      | true => exact commandInv_next (hinput ▸ hfits) (hinput ▸ hnul) (by rw [hcalls, hinput]; rfl)
      | false => exact .exited rfl (hcalls ▸ List.nil_prefix)
    | read ans => simp [Command.step, hctrl] at hs
    | system status => simp [Command.step, hctrl] at hs
  | @line line hctrl hpart hnul hcalls =>
    cases a with
    | dup2 ok => simp [Command.step, hctrl] at hs
    | system status => simp [Command.step, hctrl] at hs
    | read ans =>
      simp only [Command.step, hctrl, Option.map_eq_some_iff] at hs
      obtain ⟨d, hd, rfl⟩ := hs
      exact commandInv_read rfl (hpart.reads hd) hnul hcalls
  | system hctrl hfits hnul hcalls =>
    cases a with
    | dup2 ok => simp [Command.step, hctrl] at hs
    | read ans => simp [Command.step, hctrl] at hs
    | system status =>
      simp only [Command.step, hctrl, Option.some.injEq] at hs
      subst hs
      exact commandInv_next hfits hnul hcalls
  | left hctrl _ => cases a <;> simp [Command.step, hctrl] at hs
  | exited hctrl _ => cases a <;> simp [Command.step, hctrl] at hs

theorem commandInv_run (hfits : Fits stream) (hnul : 0 ∉ stream)
    (h : Steps.run Command.step (.start buf stream) as = some t) : CommandInv stream t :=
  Steps.run_inv (fun _ _ _ hi hs => commandInv_step hi hfits hnul hs) (.redirect rfl rfl rfl) h

/-- Along every run, the lines without their last bytes are passed to `system`; all of them when the loop is left. -/
theorem executed_run (h : CommandInv stream t) :
    t.calls <+: executed stream ∧ ∀ cnt, t.ctrl = .left cnt → t.calls = executed stream := by
  cases h with
  | redirect hctrl _ hcalls => exact ⟨hcalls ▸ List.nil_prefix, fun cnt hc => by rw [hctrl] at hc; cases hc⟩
  | line hctrl _ _ hcalls => exact ⟨⟨_, hcalls⟩, fun cnt hc => by rw [hctrl] at hc; cases hc⟩
  | system hctrl _ _ hcalls => exact ⟨⟨_, hcalls⟩, fun cnt hc => by rw [hctrl] at hc; cases hc⟩
  | left _ hcalls => exact ⟨hcalls ▸ List.prefix_refl _, fun _ _ => hcalls⟩
  | exited hctrl hcalls => exact ⟨hcalls, fun cnt hc => by rw [hctrl] at hc; cases hc⟩

/-! ## A run to the end of the stream -/

/-- The last call of `ReadLine`. -/
theorem run_last (hctrl : s.ctrl = .line 0) (hin : s.input = []) :
    ∃ t, Steps.run Command.step s [.read (.cnt 0)] = some t ∧ t.ctrl = .left 0 := by
  simp [Steps.run, Command.step, hctrl, readLine, hin, Command.afterRead]

/-- `system` returns, and `ReadLine` is called. -/
theorem run_system (hctrl : s.ctrl = .system) {P : Command → Prop}
    (h : ∃ as t, Steps.run Command.step s.next as = some t ∧ P t) :
    ∃ as t, Steps.run Command.step s as = some t ∧ P t := by
  obtain ⟨as, t, ht, hp⟩ := h
  exact ⟨.system 0 :: as, t, Steps.run_cons.2 ⟨s.next, by simp [Command.step, hctrl], ht⟩, hp⟩

/-- From within a line, the loop can read up to the end of the stream. -/
theorem run_finishes (hctrl : s.ctrl = .line line.length)
    (hpart : Partial line { ctrl := .reading line.length, buf := s.buf, input := s.input, slept := s.slept }) :
    ∃ as t, Steps.run Command.step s as = some t ∧ t.ctrl = .left 0 := by
  induction hin : s.input generalizing s line with
  | nil =>
    by_cases hline : line = []
    · subst hline
      exact ⟨_, run_last hctrl hin⟩
    · have hpos : 0 < line.length := List.length_pos_iff.2 hline
      have hstep : s.step (.read (.cnt 0)) = some (s.body line.length) := by
        simp [Command.step, hctrl, readLine, hin, Command.afterRead, hpos, Command.body]
      obtain ⟨as, t, ht, hleft⟩ := run_system (s := s.body line.length) rfl ⟨_, run_last rfl hin⟩
      exact ⟨.read (.cnt 0) :: as, t, Steps.run_cons.2 ⟨_, hstep, ht⟩, hleft⟩
  | cons ch input ih =>
    obtain ⟨c, hc, hin'⟩ : ∃ c,
        readLine LINE_SIZE { ctrl := .reading line.length, buf := s.buf, input := s.input, slept := s.slept }
          (.cnt 1) = some c ∧ c.input = input := by
      simp [readLine, hin]
    have hstep : s.step (.read (.cnt 1)) = some (s.afterRead c) := by
      simp only [Command.step, hctrl, hc, Option.map_some]
    have hgo : ∃ as t, Steps.run Command.step (s.afterRead c) as = some t ∧ t.ctrl = .left 0 := by
      cases hpart.reads hc with
      | @more line' hpart' hsplit hlen =>
        rw [Command.afterRead_reading hpart'.ctrl]
        exact ih rfl ⟨rfl, hpart'.buf, hpart'.notMem, hpart'.fits⟩ hin'
      | @ends line' hctrl' hbuf hne hsplit hlines hfits hlen hle =>
        rw [Command.afterRead_line hctrl' hne]
        exact run_system rfl (@ih [] _ rfl (.start hfits) hin')
      | eof hctrl' hline hinput hin'' =>
        rw [hin] at hinput
        cases hinput
      | failed ha hctrl' => cases ha
    obtain ⟨as, t, ht, hleft⟩ := hgo
    exact ⟨.read (.cnt 1) :: as, t, Steps.run_cons.2 ⟨_, hstep, ht⟩, hleft⟩

/-- The strings passed to `system` are the commands, in order; all of them when the loop is left. -/
def Executes (buf : Nat → UInt8) (stream : List UInt8) : Prop :=
  ∀ (as : List CommandAct) (t : Command), Steps.run Command.step (.start buf stream) as = some t →
    t.calls <+: commands stream ∧ ∀ cnt, t.ctrl = .left cnt → t.calls = commands stream

/-- **The commands are executed** exactly when the stream does not end within one. -/
theorem executes_iff (hnul : 0 ∉ stream) (hfits : Fits stream) :
    Executes buf stream ↔ stream = [] ∨ stream.getLast? = some newline := by
  rw [← executed_eq_commands_iff]
  constructor
  · intro h
    obtain ⟨as, t, ht, hleft⟩ :=
      @run_finishes [] (Command.start buf stream).next rfl (.start hfits)
    have hrun : Steps.run Command.step (.start buf stream) (.dup2 true :: as) = some t := Steps.run_cons.2 ⟨_, rfl, ht⟩
    rw [← (h _ t hrun).2 0 hleft]
    exact ((executed_run (commandInv_run hfits hnul hrun)).2 0 hleft).symm
  · intro h as t hrun
    rw [← h]
    exact executed_run (commandInv_run hfits hnul hrun)

theorem executes_iff_ls : Executes (fun _ => 0) [108, 115, 10] ↔
    ([108, 115, 10] : List UInt8) = [] ∨ ([108, 115, 10] : List UInt8).getLast? = some newline :=
  executes_iff (by decide) (by unfold Fits; decide)

/-- A client sends `ls` and closes its side: `system` is called with `l`. -/
theorem executes_cut : ∃ t,
    Steps.run Command.step (.start (fun _ => 0) [108, 115])
      [.dup2 true, .read (.cnt 1), .read (.cnt 1), .read (.cnt 0), .system 0, .read (.cnt 0)] = some t ∧
    t.ctrl = .left 0 ∧ t.calls = [[108]] ∧ commands [108, 115] = [[108, 115]] ∧ Fits [108, 115] ∧
    ¬Executes (fun _ => 0) [108, 115] := by
  have hfits : Fits [108, 115] := by
    unfold Fits
    decide
  obtain ⟨t, ht, hleft⟩ : ∃ t,
      Steps.run Command.step (.start (fun _ => 0) [108, 115])
        [.dup2 true, .read (.cnt 1), .read (.cnt 1), .read (.cnt 0), .system 0, .read (.cnt 0)] = some t ∧
      t.ctrl = .left 0 := ⟨_, rfl, rfl⟩
  have hcalls : t.calls = [[108]] := (executed_run (commandInv_run hfits (by decide) ht)).2 0 hleft
  refine ⟨t, ht, hleft, hcalls, by decide, hfits, fun h => ?_⟩
  have hwhole := (h _ _ ht).2 0 hleft
  rw [hcalls] at hwhole
  exact absurd hwhole (by decide)

end SystemFunc.LineServer
