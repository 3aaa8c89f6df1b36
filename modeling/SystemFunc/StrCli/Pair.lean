import SystemFunc.LineServer.Echo

/-!
# `str_cli` of `client_normal_select.c`, and its echo server

The client waits with `select` for its standard input and for the connection. It writes what it reads from the
connection, sends what it reads from the standard input, and at the end of that sends its `FIN` and reads on. On the
other side is the server of `echo_server.c`. The two directions of the connection hold `A` and `B` bytes; a `write` of
the client that finds no room waits, and so does one of the server. What is written can be read at once, as over the
loopback address that is the default of the client; no call is interrupted, since the client has no signal handler.

The client writes to its standard output with `write`, which takes everything, and prints two lines there with
`printf`. Those come out when `stdio` writes its buffer, in between or at the end, so that the two are kept apart here.

- `step_more`: a step of the server does not depend on what has not been sent yet;
- `Served`: what a step of the server moves;
- `Moves`: what a step of the two does.
-/

namespace SystemFunc.StrCli

open Buffer Wrap LineServer

/-- The size of `buf`. -/
def MAX_BUF_SIZE : Nat := 1024

/-- Before `select`, with what is left of `readfds`, in `write(cfd, ...)` with what it has not sent, or returned. -/
inductive ClientCtrl where
  | select
  | ready (cfd stdin : Bool)
  | writing (left : List UInt8)
  | returned
  deriving DecidableEq

/-- `watched` is the bit of the standard input in `all_read_set`, `written` is what `write(STDOUT_FILENO, ...)` has got
and `printed` what `printf` has; `echo.input` is what the server can read. -/
structure Pair where
  ctrl : ClientCtrl
  watched : Bool
  stdin : List UInt8
  written : List UInt8
  printed : List String
  toClient : List UInt8
  echo : Echo

inductive Act where
  | select (stdin : Bool)
  | readCfd
  | readStdin (cnt : Nat)
  | write (cnt : Nat)
  | server (a : EchoAct)
  deriving DecidableEq

/-- The server has left its loop, and closed the connection. -/
def closed (e : Echo) : Bool :=
  match e.ctrl with
  | .left _ => true
  | _ => false

/-- A `read` of the connection would not wait. -/
def Pair.readable (s : Pair) : Bool := s.toClient ≠ [] || closed s.echo

/-- Behind the part of the loop for the connection. -/
def ClientCtrl.next (stdin : Bool) : ClientCtrl := if stdin then .ready false true else .select

/-- In `write`, until everything is sent. -/
def ClientCtrl.send (left : List UInt8) : ClientCtrl := if left = [] then .select else .writing left

/-- Whether a call of the server can be answered so: the end of the stream is there when the client has sent its
`FIN`, and a `write` takes what there is room for. -/
def Pair.lets (s : Pair) (B : Nat) : EchoAct → Bool
  | .read (.cnt 0) => !s.watched
  | .read (.cnt _) => true
  | .write (.cnt n) => 0 < n && s.toClient.length + n ≤ B
  | _ => false

def Pair.step (A B : Nat) (s : Pair) : Act → Option Pair
  | .select stdin =>
    match s.ctrl with
    | .select =>
      if (stdin → s.watched) ∧ (s.readable ∨ stdin) then some { s with ctrl := .ready s.readable stdin } else none
    | _ => none
  | .readCfd =>
    match s.ctrl with
    | .ready true stdin =>
      if s.toClient ≠ [] then
        some { s with
          ctrl := .next stdin
          written := s.written ++ s.toClient.take MAX_BUF_SIZE
          toClient := s.toClient.drop MAX_BUF_SIZE }
      else if closed s.echo then some { s with ctrl := .returned, printed := s.printed ++ ["get FIN\n"] }
      else none
    | _ => none
  | .readStdin cnt =>
    match s.ctrl with
    | .ready false true =>
      if cnt = 0 then
        if s.stdin = [] then
          some { s with ctrl := .select, watched := false, printed := s.printed ++ ["do, shutdown\n"] }
        else none
      else if cnt ≤ MAX_BUF_SIZE ∧ cnt ≤ s.stdin.length then
        some { s with ctrl := .send (s.stdin.take cnt), stdin := s.stdin.drop cnt }
      else none
    | _ => none
  | .write cnt =>
    match s.ctrl with
    | .writing left =>
      if 0 < cnt ∧ cnt ≤ left.length ∧ s.echo.input.length + cnt ≤ A then
        some { s with
          ctrl := .send (left.drop cnt)
          echo := { s.echo with input := s.echo.input ++ left.take cnt } }
      else none
    | _ => none
  | .server a =>
    if s.lets B a then
      (s.echo.step a).map fun e => { s with echo := e, toClient := s.toClient ++ e.out.drop s.echo.out.length }
    else none

/-- The client has connected, and the server has called `DoReadWrite`. -/
def Pair.start (buf : Nat → UInt8) (input : List UInt8) : Pair where
  ctrl := .select
  watched := true
  stdin := input
  written := []
  printed := []
  toClient := []
  echo := .start buf []

variable {A B n : Nat} {input rest : List UInt8} {s t : Pair} {e f : Echo} {a : EchoAct} {es : List EchoAct}
  {buf : Nat → UInt8}

/-! ## The server, while the client goes on sending -/

/-- More of the stream has been sent. -/
def more (rest : List UInt8) (e : Echo) : Echo := { e with input := e.input ++ rest }

/-- A call of `read` that finds the end of the stream finds it at the end. -/
def Timely (rest : List UInt8) (a : EchoAct) : Prop :=
  (∃ n, a.answer = .cnt n) ∧ (a = .read (.cnt 0) → rest = [])

theorem readLine_append {c d : LineCall} (hs : readLine LINE_SIZE c (.cnt n) = some d) (hn : n = 0 → rest = []) :
    readLine LINE_SIZE { c with input := c.input ++ rest } (.cnt n) = some { d with input := d.input ++ rest } := by
  obtain ⟨index, hctrl, hmove⟩ := readLine_move hs
  cases hmove with
  | eof hin => simp [readLine, hctrl, hin, hn rfl]
  | newline hin => simp [readLine, hctrl, hin]
  | byte hin hne => simp [readLine, hctrl, hin, hne]
  | retry ha => cases ha

theorem afterRead_more (c : LineCall) (e : Echo) :
    (more rest e).afterRead { c with input := c.input ++ rest } = more rest (e.afterRead c) := by
  simp only [Echo.afterRead, more]
  cases c.ctrl with
  | reading index => rfl
  | returned cnt =>
    dsimp only
    split <;> rfl
  | exited headStr => rfl

theorem next_more (e : Echo) : (more rest e).next = more rest e.next :=
  afterRead_more { LineCall.start LINE_SIZE e.buf e.input with slept := e.slept } e

theorem afterWrite_more (c : WriteCall) (e : Echo) : (more rest e).afterWrite c = more rest (e.afterWrite c) := by
  unfold Echo.afterWrite
  cases c.ctrl with
  | loop l => rfl
  | returned ret => exact next_more { e with out := c.out, slept := c.slept }
  | exited headStr => rfl

/-- **The server does not look ahead**: a step of it does not depend on what has not been sent yet. -/
theorem step_more (hs : e.step a = some f) (ha : Timely rest a) :
    (more rest e).step a = some (more rest f) := by
  obtain ⟨⟨n, hn⟩, hend⟩ := ha
  cases a with
  | read ans =>
    obtain rfl : ans = .cnt n := hn
    cases hctrl : e.ctrl with
    | line index =>
      simp only [Echo.step, hctrl, Option.map_eq_some_iff] at hs
      obtain ⟨c, hc, rfl⟩ := hs
      have hread := readLine_append hc fun h0 => hend (h0 ▸ rfl)
      simp only [Echo.step, more, hctrl, Option.map_eq_some_iff]
      exact ⟨_, hread, afterRead_more c e⟩
    | write l => simp [Echo.step, hctrl] at hs
    | left cnt => simp [Echo.step, hctrl] at hs
    | exited headStr => simp [Echo.step, hctrl] at hs
  | write ans =>
    cases hctrl : e.ctrl with
    | write l =>
      simp only [Echo.step, hctrl, Option.map_eq_some_iff] at hs
      obtain ⟨c, hc, rfl⟩ := hs
      simp only [Echo.step, more, hctrl, Option.map_eq_some_iff]
      exact ⟨c, hc, afterWrite_more c e⟩
    | line index => simp [Echo.step, hctrl] at hs
    | left cnt => simp [Echo.step, hctrl] at hs
    | exited headStr => simp [Echo.step, hctrl] at hs

/-! ## What a step of the server moves -/

/-- The number of bytes that the server has read and not written. -/
def held (e : Echo) : Nat :=
  match e.ctrl with
  | .line index => index
  | .write l => l.left
  | _ => 0

/-- How often the server can change its call before the next byte. -/
def rank (e : Echo) : Nat :=
  match e.ctrl with
  | .line _ => 2
  | .write _ => 1
  | _ => 0

/-- A byte is read, or the end of the stream, or bytes are written. -/
inductive Served (e : Echo) (f : Echo) : EchoAct → Prop
  | byte (hin : e.input.length = f.input.length + 1) (hheld : held f = held e + 1) (hle : held f ≤ LINE_SIZE)
      (hout : f.out = e.out) (hrank : rank f ≤ rank e) (hopen : closed f = false) : Served e f (.read (.cnt 1))
  | eof (hin : e.input = []) (hin' : f.input = []) (hheld : held f = held e) (hout : f.out = e.out)
      (hrank : rank f < rank e) : Served e f (.read (.cnt 0))
  | sent {n : Nat} {bs : List UInt8} (hin : f.input = e.input) (hout : f.out = e.out ++ bs) (hlen : bs.length = n)
      (hheld : held f + n = held e) (hrank : rank f ≤ rank e + 1) (hopen : closed f = false) :
      Served e f (.write (.cnt n))

theorem served_read (h : Inv input es e) (hs : e.step (.read (.cnt n)) = some f) : Served e f (.read (.cnt n)) := by
  cases h with
  | @line line hctrl hpart hstream hprogress =>
    simp only [Echo.step, hctrl, Option.map_eq_some_iff] at hs
    obtain ⟨d, hd, rfl⟩ := hs
    have hheld : held e = line.length := by simp only [held, hctrl]
    have hrank : rank e = 2 := by simp only [rank, hctrl]
    have hlt : line.length < LINE_SIZE := hpart.fits.length_lt hpart.notMem
    obtain ⟨index, hindex, hmove⟩ := readLine_move hd
    obtain rfl : line.length = index := LineCtrl.reading.inj hindex
    cases hmove with
    | eof hin =>
      by_cases hne : line = []
      · subst hne
        rw [Echo.afterRead_eof rfl]
        exact .eof hin hin hheld.symm rfl (hrank ▸ Nat.zero_lt_two)
      · rw [Echo.afterRead_line rfl hne]
        exact .eof hin hin hheld.symm rfl (hrank ▸ Nat.one_lt_two)
    | @newline rest hin =>
      have hlen : (line ++ [newline]).length = line.length + 1 := List.length_append
      have hne : line ++ [newline] ≠ [] := by simp
      have hctrl' : LineCtrl.returned ((line.length : Int) + 1) = .returned (line ++ [newline]).length := by
        rw [hlen]
        rfl
      rw [Echo.afterRead_line hctrl' hne]
      refine .byte (congrArg List.length hin) ?_ ?_ rfl (hrank ▸ Nat.le_succ 1) rfl
      · exact hlen.trans (congrArg (· + 1) hheld.symm)
      · exact Nat.le_trans (Nat.le_of_eq hlen) hlt
    | @byte ch rest hin hne =>
      have hlen : (line ++ [ch]).length = line.length + 1 := List.length_append
      have hno : newline ∉ line ++ [ch] := by simpa [hpart.notMem] using hne.symm
      have hin : e.input = ch :: rest := hin
      have hfits : Fits (line ++ e.input) := hpart.fits
      rw [hin, List.append_cons] at hfits
      have hlt' : line.length + 1 < LINE_SIZE := hlen ▸ hfits.length_lt hno
      rw [Echo.afterRead_reading (if_neg (Nat.not_le_of_lt hlt'))]
      exact .byte (congrArg List.length hin) (congrArg (· + 1) hheld.symm) (Nat.le_of_lt hlt') rfl
        (Nat.le_of_eq hrank.symm) rfl
    | retry ha => cases ha
  | write hctrl _ _ _ _ => simp [Echo.step, hctrl] at hs
  | left hctrl _ => simp [Echo.step, hctrl] at hs
  | exited hctrl _ _ => simp [Echo.step, hctrl] at hs

theorem served_write (hn : 0 < n) (hs : e.step (.write (.cnt n)) = some f) : Served e f (.write (.cnt n)) := by
  cases hctrl : e.ctrl with
  | write l =>
    simp only [Echo.step, hctrl, Option.map_eq_some_iff, Library.writeCount, Option.ite_none_right_eq_some,
      Option.some.injEq] at hs
    obtain ⟨_, ⟨hsize, rfl⟩, rfl⟩ := hs
    have hheld : held e = l.left := by simp only [held, hctrl]
    have hrank : rank e = 1 := by simp only [rank, hctrl]
    have hsize : n ≤ l.left := hsize
    have hpasses := pass_passes l WriteCount.headStr (.cnt n)
    rw [← writePass_eq .wrap] at hpasses
    generalize hp : (Library.wrap.writePass l (.cnt n)).ctrl l = ctrl at hpasses ⊢
    cases hpasses with
    | some _ =>
      unfold CallCtrl.enter
      split
      next hleft =>
        refine .sent rfl rfl slice_length ?_ (Nat.le_add_left 1 _) rfl
        exact (Nat.sub_add_cancel hsize).trans hheld.symm
      next hleft =>
        have hall : n = l.left := Nat.le_antisymm hsize (Nat.le_of_sub_eq_zero (Nat.eq_zero_of_not_pos hleft))
        refine .sent rfl rfl slice_length ?_ (Nat.succ_le_succ (Nat.le_of_eq hrank.symm)) rfl
        exact (Nat.zero_add n).trans (hall.trans hheld.symm)
    | none => exact absurd hn (Nat.lt_irrefl 0)
    | retry ha => cases ha
  | line index => simp [Echo.step, hctrl] at hs
  | left cnt => simp [Echo.step, hctrl] at hs
  | exited headStr => simp [Echo.step, hctrl] at hs

/-! ## What a step does -/

inductive Moves (A B : Nat) (s : Pair) : Act → Pair → Prop
  | select {stdin : Bool} (hctrl : s.ctrl = .select) (hw : stdin = true → s.watched = true)
      (hr : s.readable = true ∨ stdin = true) : Moves A B s (.select stdin) { s with ctrl := .ready s.readable stdin }
  | read {stdin : Bool} (hctrl : s.ctrl = .ready true stdin) (hne : s.toClient ≠ []) :
      Moves A B s .readCfd
        { s with
          ctrl := .next stdin
          written := s.written ++ s.toClient.take MAX_BUF_SIZE
          toClient := s.toClient.drop MAX_BUF_SIZE }
  | fin {stdin : Bool} (hctrl : s.ctrl = .ready true stdin) (hnil : s.toClient = []) (hc : closed s.echo = true) :
      Moves A B s .readCfd { s with ctrl := .returned, printed := s.printed ++ ["get FIN\n"] }
  | eof (hctrl : s.ctrl = .ready false true) (hnil : s.stdin = []) :
      Moves A B s (.readStdin 0)
        { s with ctrl := .select, watched := false, printed := s.printed ++ ["do, shutdown\n"] }
  | input {cnt : Nat} (hctrl : s.ctrl = .ready false true) (hpos : 0 < cnt) (hbuf : cnt ≤ MAX_BUF_SIZE)
      (hlen : cnt ≤ s.stdin.length) :
      Moves A B s (.readStdin cnt) { s with ctrl := .writing (s.stdin.take cnt), stdin := s.stdin.drop cnt }
  | write {left : List UInt8} {cnt : Nat} (hctrl : s.ctrl = .writing left) (hpos : 0 < cnt) (hle : cnt ≤ left.length)
      (hroom : s.echo.input.length + cnt ≤ A) :
      Moves A B s (.write cnt) { s with ctrl := .send (left.drop cnt), echo := more (left.take cnt) s.echo }
  | server {a : EchoAct} {e : Echo} (hlets : s.lets B a = true) (hs : s.echo.step a = some e) :
      Moves A B s (.server a) { s with echo := e, toClient := s.toClient ++ e.out.drop s.echo.out.length }

theorem take_ne_nil {α : Type*} {l : List α} {n : Nat} (hpos : 0 < n) (hle : n ≤ l.length) : l.take n ≠ [] := by
  refine List.ne_nil_of_length_pos ?_
  rw [List.length_take]
  exact Nat.lt_min.2 ⟨hpos, Nat.lt_of_lt_of_le hpos hle⟩

theorem step_moves {a : Act} (hs : s.step A B a = some t) : Moves A B s a t := by
  cases a with
  | select stdin =>
    cases hctrl : s.ctrl with
    | select =>
      simp only [Pair.step, hctrl, Option.ite_none_right_eq_some, Option.some.injEq] at hs
      obtain ⟨⟨hw, hr⟩, rfl⟩ := hs
      exact .select hctrl hw hr
    | ready cfd stdin => simp [Pair.step, hctrl] at hs
    | writing left => simp [Pair.step, hctrl] at hs
    | returned => simp [Pair.step, hctrl] at hs
  | readCfd =>
    unfold Pair.step at hs
    dsimp only at hs
    split at hs
    next stdin hctrl =>
      split at hs
      next hne =>
        cases hs
        exact .read hctrl hne
      next hnil =>
        split at hs
        next hc =>
          cases hs
          exact .fin hctrl (not_not.1 hnil) hc
        next => cases hs
    next => cases hs
  | readStdin cnt =>
    unfold Pair.step at hs
    dsimp only at hs
    split at hs
    next hctrl =>
      split at hs
      next h0 =>
        subst h0
        rw [Option.ite_none_right_eq_some] at hs
        obtain ⟨hnil, hs⟩ := hs
        cases hs
        exact .eof hctrl hnil
      next h0 =>
        rw [Option.ite_none_right_eq_some] at hs
        obtain ⟨⟨hbuf, hlen⟩, hs⟩ := hs
        have hpos : 0 < cnt := Nat.pos_of_ne_zero h0
        have hsend : ClientCtrl.send (s.stdin.take cnt) = .writing (s.stdin.take cnt) := if_neg (take_ne_nil hpos hlen)
        rw [hsend] at hs
        cases hs
        exact .input hctrl hpos hbuf hlen
    next => cases hs
  | write cnt =>
    cases hctrl : s.ctrl with
    | writing left =>
      simp only [Pair.step, hctrl, Option.ite_none_right_eq_some, Option.some.injEq] at hs
      obtain ⟨⟨hpos, hle, hroom⟩, rfl⟩ := hs
      exact .write hctrl hpos hle hroom
    | select => simp [Pair.step, hctrl] at hs
    | ready cfd stdin => simp [Pair.step, hctrl] at hs
    | returned => simp [Pair.step, hctrl] at hs
  | server a =>
    simp only [Pair.step, Option.ite_none_right_eq_some, Option.map_eq_some_iff] at hs
    obtain ⟨hlets, e, he, rfl⟩ := hs
    exact .server hlets he

end SystemFunc.StrCli
