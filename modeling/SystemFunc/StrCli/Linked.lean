import SystemFunc.Lib.Progress
import SystemFunc.StrCli.Pair

/-!
# The client and the server do not wait for each other

While the client waits in a `write`, it does not read what comes back. It looks at the connection first, and what it
sends after that is at most one buffer; so little is on the way that it cannot fill both directions, if the one to the
client has room for a line and a buffer.

- `Linked`: what is written, what is on the way and what has not been sent are together the standard input, and how
  much can be on the way;
- `Linked.progress`: one of the two can go on;
- `work`: every step does some of it;
- `str_cli_completes`: a run comes to an end, and there the client has written its standard input to its standard
  output, besides its two lines.
-/

namespace SystemFunc.StrCli

open Buffer Wrap LineServer

variable {A B n : Nat} {input rest : List UInt8} {s t : Pair} {e f : Echo} {a : Act} {es : List EchoAct}
  {buf : Nat → UInt8}

/-! ## The connection -/

/-- What a `write` of the client has not sent. -/
def ClientCtrl.left : ClientCtrl → List UInt8
  | .writing left => left
  | _ => []

theorem send_left (left : List UInt8) : (ClientCtrl.send left).left = left := by
  unfold ClientCtrl.send
  split
  next hnil => exact hnil.symm
  next => rfl

def Pair.unsent (s : Pair) : List UInt8 := s.ctrl.left ++ s.stdin

/-- What `printf` has got. -/
def said (watched : Bool) : ClientCtrl → List String
  | .returned => (if watched then [] else ["do, shutdown\n"]) ++ ["get FIN\n"]
  | _ => if watched then [] else ["do, shutdown\n"]

theorem said_send (watched : Bool) (left : List UInt8) : said watched (.send left) = said watched .select := by
  unfold ClientCtrl.send
  split <;> rfl

/-- What the client knows where it is. It reads its standard input only when nothing is left for it to read from the
connection, or after it has read a whole buffer of that. -/
inductive Place (A : Nat) (input : List UInt8) (s : Pair) : ClientCtrl → Prop
  | select : Place A input s .select
  | cfd {stdin : Bool} (hr : s.readable = true) (hw : stdin = true → s.watched = true) :
      Place A input s (.ready true stdin)
  | stdin (hw : s.watched = true) (hload : input.length ≤ s.written.length + s.stdin.length + (A + LINE_SIZE)) :
      Place A input s (.ready false true)
  | writing {left : List UInt8} (hne : left ≠ []) (hw : s.watched = true) : Place A input s (.writing left)
  | returned (hnil : s.toClient = []) (hc : closed s.echo = true) : Place A input s .returned

structure Linked (A : Nat) (input : List UInt8) (s : Pair) : Prop where
  inv : ∃ es, Inv input es (more s.unsent s.echo) ∧ ∀ a ∈ es, ∃ n, a.answer = .cnt n
  out : s.echo.out = s.written ++ s.toClient
  held : held s.echo ≤ LINE_SIZE
  closed : closed s.echo = true → s.watched = false ∧ s.echo.input = []
  fin : s.watched = false → s.stdin = []
  room : s.echo.input.length ≤ A
  load : input.length ≤ s.written.length + s.stdin.length + (A + (LINE_SIZE + MAX_BUF_SIZE))
  place : Place A input s s.ctrl
  printed : s.printed = said s.watched s.ctrl

theorem Linked.unsent_nil (h : Linked A input s) (hw : s.watched = false) : s.unsent = [] := by
  have hleft : s.ctrl.left = [] := by
    cases hctrl : s.ctrl with
    | writing left =>
      have hplace := h.place
      rw [hctrl] at hplace
      cases hplace with
      | writing _ hw' => exact absurd (hw'.symm.trans hw) Bool.noConfusion
    | select => rfl
    | ready cfd stdin => rfl
    | returned => rfl
  rw [Pair.unsent, hleft, h.fin hw]
  rfl

/-- The server has not failed. -/
theorem Linked.ctrl_ne (h : Linked A input s) (headStr : String) : s.echo.ctrl ≠ .exited headStr := by
  intro he
  obtain ⟨es, hinv, hes⟩ := h.inv
  cases hinv with
  | line hctrl _ _ _ => exact EchoCtrl.noConfusion (he.symm.trans hctrl)
  | write hctrl _ _ _ _ => exact EchoCtrl.noConfusion (he.symm.trans hctrl)
  | left hctrl _ => exact EchoCtrl.noConfusion (he.symm.trans hctrl)
  | exited _ _ ha =>
    obtain ⟨a, ha, hfailed⟩ := ha
    obtain ⟨n, hn⟩ := hes a ha
    exact Answer.noConfusion (hn.symm.trans hfailed)

/-- **Every byte is somewhere**: written by the client, on the way to it, in the server, on the way there, or not yet
sent. -/
theorem Linked.length (h : Linked A input s) :
    input.length = s.written.length + s.toClient.length + StrCli.held s.echo + s.echo.input.length +
      s.unsent.length := by
  have hout := congrArg List.length h.out
  rw [List.length_append] at hout
  obtain ⟨es, hinv, _⟩ := h.inv
  cases hinv with
  | @line line hctrl _ hstream _ =>
    have hctrl : s.echo.ctrl = .line line.length := hctrl
    have hlen := congrArg List.length hstream
    simp only [more, List.length_append] at hlen
    simp only [StrCli.held, hctrl]
    omega
  | @write l hctrl _ _ hstream _ =>
    have hctrl : s.echo.ctrl = .write l := hctrl
    have hlen := congrArg List.length hstream
    simp only [more, List.length_append, slice_length] at hlen
    simp only [StrCli.held, hctrl]
    omega
  | @left cnt hctrl hall =>
    have hctrl : s.echo.ctrl = .left cnt := hctrl
    have hall : s.echo.out = input := hall
    obtain ⟨hw, hnil⟩ := h.closed (by rw [StrCli.closed, hctrl])
    have hunsent := h.unsent_nil hw
    simp only [StrCli.held, hctrl, hnil, hunsent, ← hall, hout, List.length_nil, Nat.add_zero]
  | exited hctrl _ _ => exact absurd hctrl (h.ctrl_ne _)

/-! ## Every step keeps it -/

theorem linked_start (hfits : Fits input) : Linked A input (.start buf input) where
  inv := ⟨[], inv_next (s := more input { ctrl := .left 0, buf := buf, input := [], out := [], slept := 0 }) hfits rfl
    (Nat.le_refl _), nofun⟩
  out := rfl
  held := Nat.zero_le _
  closed := nofun
  fin := nofun
  room := Nat.zero_le _
  load := Nat.le_trans (Nat.le_add_left _ _) (Nat.le_add_right _ _)
  place := .select
  printed := rfl

theorem linked_select {stdin : Bool} (h : Linked A input s) (hctrl : s.ctrl = .select)
    (hw : stdin = true → s.watched = true) (hr : s.readable = true ∨ stdin = true) :
    Linked A input { s with ctrl := .ready s.readable stdin } := by
  have hunsent : s.unsent = s.stdin := by rw [Pair.unsent, hctrl]; rfl
  have hprinted := h.printed
  rw [hctrl] at hprinted
  refine ⟨hunsent ▸ h.inv, h.out, h.held, h.closed, h.fin, h.room, h.load, ?_, hprinted⟩
  cases hread : s.readable with
  | true => exact .cfd hread hw
  | false =>
    obtain rfl : stdin = true := hr.resolve_left fun hr => Bool.noConfusion (hr.symm.trans hread)
    have hnil : s.toClient = [] := by
      unfold Pair.readable at hread
      simpa using (Bool.or_eq_false_iff.1 hread).1
    have hlen := h.length
    have hheld := h.held
    have hroom := h.room
    rw [hnil, hunsent, List.length_nil] at hlen
    refine .stdin (hw rfl) ?_
    dsimp only
    omega

theorem linked_read {stdin : Bool} (h : Linked A input s) (hctrl : s.ctrl = .ready true stdin) :
    Linked A input { s with
      ctrl := .next stdin
      written := s.written ++ s.toClient.take MAX_BUF_SIZE
      toClient := s.toClient.drop MAX_BUF_SIZE } := by
  have hunsent : s.unsent = s.stdin := by rw [Pair.unsent, hctrl]; rfl
  have hload := h.load
  have hplace := h.place
  have hprinted := h.printed
  rw [hctrl] at hplace hprinted
  refine ⟨?_, ?_, h.held, h.closed, h.fin, h.room, ?_, ?_, ?_⟩
  · have hnext : ∀ b, (ClientCtrl.next b).left = [] := fun b => by cases b <;> rfl
    simp only [Pair.unsent, hnext, List.nil_append]
    exact hunsent ▸ h.inv
  · rw [List.append_assoc, List.take_append_drop]
    exact h.out
  · simp only [List.length_append]
    omega
  · cases stdin with
    | false => exact .select
    | true =>
      cases hplace with
      | cfd _ hw =>
        refine .stdin (hw rfl) ?_
        have hlen := h.length
        have hheld := h.held
        have hroom := h.room
        rw [hunsent] at hlen
        simp only [List.length_append, List.length_take]
        omega
  · cases stdin with
    | false => exact hprinted
    | true => exact hprinted

theorem linked_eof (h : Linked A input s) (hctrl : s.ctrl = .ready false true) (hnil : s.stdin = []) :
    Linked A input
      { s with ctrl := .select, watched := false, printed := s.printed ++ ["do, shutdown\n"] } := by
  have hunsent : s.unsent = s.stdin := by rw [Pair.unsent, hctrl]; rfl
  have hplace := h.place
  have hprinted := h.printed
  rw [hctrl] at hplace hprinted
  cases hplace with
  | stdin hw _ =>
    rw [hw] at hprinted
    exact ⟨hunsent ▸ h.inv, h.out, h.held, fun hc => ⟨rfl, (h.closed hc).2⟩, fun _ => hnil, h.room, h.load, .select,
      congrArg (· ++ ["do, shutdown\n"]) hprinted⟩

theorem linked_input {cnt : Nat} (h : Linked A input s) (hctrl : s.ctrl = .ready false true) (hpos : 0 < cnt)
    (hbuf : cnt ≤ MAX_BUF_SIZE) (hlen : cnt ≤ s.stdin.length) :
    Linked A input { s with ctrl := .writing (s.stdin.take cnt), stdin := s.stdin.drop cnt } := by
  have hunsent : s.unsent = s.stdin := by rw [Pair.unsent, hctrl]; rfl
  have hplace := h.place
  have hprinted := h.printed
  rw [hctrl] at hplace hprinted
  cases hplace with
  | stdin hw hload =>
    have hwatched : s.watched ≠ false := fun hf => Bool.noConfusion (hw.symm.trans hf)
    refine ⟨?_, h.out, h.held, h.closed, fun hf => absurd hf hwatched, h.room, ?_, .writing (take_ne_nil hpos hlen) hw,
      hprinted⟩
    · simp only [Pair.unsent, ClientCtrl.left, List.take_append_drop]
      exact hunsent ▸ h.inv
    · simp only [List.length_drop]
      omega

theorem linked_write {left : List UInt8} {cnt : Nat} (h : Linked A input s) (hctrl : s.ctrl = .writing left)
    (hle : cnt ≤ left.length) (hroom : s.echo.input.length + cnt ≤ A) :
    Linked A input { s with ctrl := .send (left.drop cnt), echo := more (left.take cnt) s.echo } := by
  have hplace := h.place
  have hprinted := h.printed
  rw [hctrl] at hplace hprinted
  cases hplace with
  | writing hne hw =>
    have hopen : StrCli.closed s.echo ≠ true := fun hc => Bool.noConfusion (hw.symm.trans (h.closed hc).1)
    refine ⟨?_, h.out, h.held, fun hc => absurd hc hopen, h.fin, ?_, h.load, ?_,
      hprinted.trans (said_send s.watched _).symm⟩
    · obtain ⟨es, hinv, hes⟩ := h.inv
      have hmore : more (left.drop cnt ++ s.stdin) (more (left.take cnt) s.echo) = more s.unsent s.echo := by
        simp only [more, Pair.unsent, hctrl, ClientCtrl.left, List.append_assoc]
        rw [← List.append_assoc (left.take cnt), List.take_append_drop]
      refine ⟨es, ?_, hes⟩
      simp only [Pair.unsent, send_left]
      exact hmore ▸ hinv
    · simp only [more, List.length_append, List.length_take, Nat.min_eq_left hle]
      exact hroom
    · unfold ClientCtrl.send
      split
      next => exact .select
      next hnil => exact .writing hnil hw

theorem step_of_closed (hc : closed e = true) (a : EchoAct) : e.step a = none := by
  unfold closed at hc
  split at hc
  next hctrl => cases a <;> simp only [Echo.step, hctrl]
  next => cases hc

/-- A step of the server, as one of the server that has the whole stream before it. -/
theorem Linked.served {a : EchoAct} (h : Linked A input s) (hlets : s.lets B a = true) (hs : s.echo.step a = some f) :
    Served (more s.unsent s.echo) (more s.unsent f) a ∧
      ∃ es, Inv input es (more s.unsent f) ∧ ∀ a ∈ es, ∃ n, a.answer = .cnt n := by
  obtain ⟨es, hinv, hes⟩ := h.inv
  have hall : (∃ n, a.answer = .cnt n) → ∀ b ∈ es ++ [a], ∃ n, b.answer = .cnt n := by
    intro ha b hb
    rcases List.mem_append.1 hb with hb | hb
    · exact hes b hb
    · exact List.mem_singleton.1 hb ▸ ha
  cases a with
  | read ans =>
    cases ans with
    | cnt n =>
      have hend : n = 0 → s.unsent = [] := by
        rintro rfl
        exact h.unsent_nil (by simpa [Pair.lets] using hlets)
      have hstep := step_more hs ⟨⟨n, rfl⟩, fun he => hend (by cases he; rfl)⟩
      exact ⟨served_read hinv hstep, es ++ [.read (.cnt n)], inv_read hinv hstep, hall ⟨n, rfl⟩⟩
    | failed e => cases hlets
  | write ans =>
    cases ans with
    | cnt n =>
      have hpos : 0 < n := (by simpa [Pair.lets] using hlets : 0 < n ∧ _).1
      have hne : Answer.cnt n ≠ .cnt 0 := fun he => Nat.ne_of_gt hpos (Answer.cnt.inj he)
      have hstep : (more s.unsent s.echo).step (.write (.cnt n)) = some (more s.unsent f) :=
        step_more hs ⟨⟨n, rfl⟩, nofun⟩
      exact ⟨served_write hpos hstep, es ++ [.write (.cnt n)], inv_write hinv hne hstep, hall ⟨n, rfl⟩⟩
    | failed e => cases hlets

theorem linked_server {a : EchoAct} (h : Linked A input s) (hlets : s.lets B a = true) (hs : s.echo.step a = some f) :
    Linked A input { s with echo := f, toClient := s.toClient ++ f.out.drop s.echo.out.length } := by
  obtain ⟨hserved, hinv⟩ := h.served hlets hs
  have hopen : StrCli.closed s.echo ≠ true := fun hc => Option.some_ne_none f (hs.symm.trans (step_of_closed hc a))
  have hplace : Place A input { s with echo := f, toClient := s.toClient ++ f.out.drop s.echo.out.length } s.ctrl := by
    have hplace := h.place
    generalize s.ctrl = ctrl at hplace ⊢
    cases hplace with
    | select => exact .select
    | cfd hr hw =>
      refine .cfd ?_ hw
      have hne : s.toClient ≠ [] := by simpa [Pair.readable, hopen] using hr
      simp [Pair.readable, hne]
    | stdin hw hload => exact .stdin hw hload
    | writing hne hw => exact .writing hne hw
    | returned _ hc => exact absurd hc hopen
  have hsame : f.out = s.echo.out → f.out = s.written ++ (s.toClient ++ f.out.drop s.echo.out.length) := by
    intro hout
    rw [hout, List.drop_length, List.append_nil]
    exact h.out
  have hroom := h.room
  cases hserved with
  | byte hin hheld hle hout hrank hopen' =>
    refine ⟨hinv, hsame hout, hle, fun hc => absurd (hc.symm.trans hopen') Bool.noConfusion, h.fin, ?_, h.load, hplace,
      h.printed⟩
    simp only [more, List.length_append] at hin
    dsimp only
    omega
  | eof hin hin' hheld hout hrank =>
    have hw : s.watched = false := by simpa [Pair.lets] using hlets
    have hnil : f.input = [] := (List.append_eq_nil_iff.1 hin').1
    refine ⟨hinv, hsame hout, Nat.le_trans (Nat.le_of_eq hheld) h.held, fun _ => ⟨hw, hnil⟩, h.fin, ?_, h.load, hplace,
      h.printed⟩
    dsimp only
    rw [hnil]
    exact Nat.zero_le A
  | @sent n bs hin hout hlen hheld hrank hopen' =>
    have hin : f.input = s.echo.input := List.append_cancel_right hin
    have hout : f.out = s.echo.out ++ bs := hout
    have hheld : StrCli.held f + n = StrCli.held s.echo := hheld
    refine ⟨hinv, ?_, ?_, fun hc => absurd (hc.symm.trans hopen') Bool.noConfusion, h.fin, ?_, h.load, hplace,
      h.printed⟩
    · rw [hout, List.drop_left, h.out, List.append_assoc]
    · exact Nat.le_trans (hheld ▸ Nat.le_add_right _ n) h.held
    · exact hin ▸ hroom

theorem linked_step (s : Pair) (a : Act) (t : Pair) (h : Linked A input s) (hs : s.step A B a = some t) :
    Linked A input t := by
  cases step_moves hs with
  | select hctrl hw hr => exact linked_select h hctrl hw hr
  | read hctrl _ => exact linked_read h hctrl
  | fin hctrl hnil hc =>
    have hunsent : s.unsent = s.stdin := by rw [Pair.unsent, hctrl]; rfl
    have hprinted := h.printed
    rw [hctrl] at hprinted
    exact ⟨hunsent ▸ h.inv, h.out, h.held, h.closed, h.fin, h.room, h.load, .returned hnil hc,
      congrArg (· ++ ["get FIN\n"]) hprinted⟩
  | eof hctrl hnil => exact linked_eof h hctrl hnil
  | input hctrl hpos hbuf hlen => exact linked_input h hctrl hpos hbuf hlen
  | write hctrl _ hle hroom => exact linked_write h hctrl hle hroom
  | server hlets hserve => exact linked_server h hlets hserve

/-! ## One of the two can go on -/

theorem Linked.left_pos {l : Count} (h : Linked A input s) (hctrl : s.echo.ctrl = .write l) : 0 < l.left := by
  obtain ⟨es, hinv, _⟩ := h.inv
  cases hinv with
  | write hctrl' hleft _ _ _ =>
    cases hctrl'.symm.trans hctrl
    exact hleft
  | line hctrl' _ _ _ => exact EchoCtrl.noConfusion (hctrl.symm.trans hctrl')
  | left hctrl' _ => exact EchoCtrl.noConfusion (hctrl.symm.trans hctrl')
  | exited hctrl' _ _ => exact EchoCtrl.noConfusion (hctrl.symm.trans hctrl')

/-- The server waits for the client only when it has nothing to read, or no room to write. -/
theorem Linked.server_ready (h : Linked A input s) (hopen : StrCli.closed s.echo = false)
    (hin : s.echo.input ≠ [] ∨ s.watched = false) (hroom : 0 < StrCli.held s.echo → s.toClient.length < B) :
    ∃ a, (s.step A B a).isSome := by
  cases hctrl : s.echo.ctrl with
  | line index =>
    cases hinput : s.echo.input with
    | nil =>
      have hw : s.watched = false := hin.resolve_left (not_not.2 hinput)
      exact ⟨.server (.read (.cnt 0)), by simp [Pair.step, Pair.lets, hw, Echo.step, hctrl, readLine, hinput]⟩
    | cons ch input =>
      exact ⟨.server (.read (.cnt 1)), by simp [Pair.step, Pair.lets, Echo.step, hctrl, readLine, hinput]⟩
  | write l =>
    have hleft : 0 < l.left := h.left_pos hctrl
    have hsize : (Answer.cnt 1).size ≤ l.left := hleft
    have hone : s.toClient.length + 1 ≤ B := hroom (by simpa only [StrCli.held, hctrl] using hleft)
    exact ⟨.server (.write (.cnt 1)), by simp [Pair.step, Pair.lets, hone, Echo.step, hctrl, Library.writeCount, hsize]⟩
  | left cnt => simp [StrCli.closed, hctrl] at hopen
  | exited headStr => exact absurd hctrl (h.ctrl_ne headStr)

/-- **No deadlock**: until the client has returned, one of the two can go on. -/
theorem Linked.progress (h : Linked A input s) (hA : 0 < A) (hB : LINE_SIZE + MAX_BUF_SIZE ≤ B + 1)
    (hne : s.ctrl ≠ .returned) : ∃ a, (s.step A B a).isSome := by
  have hplace := h.place
  have hBpos : 0 < B := by
    unfold LINE_SIZE MAX_BUF_SIZE at hB
    omega
  generalize hctrl : s.ctrl = ctrl at hplace
  cases hplace with
  | select =>
    cases hw : s.watched with
    | true => exact ⟨.select true, by simp [Pair.step, hctrl, hw]⟩
    | false =>
      cases hr : s.readable with
      | true => exact ⟨.select false, by simp [Pair.step, hctrl, hr]⟩
      | false =>
        unfold Pair.readable at hr
        obtain ⟨hnil, hopen⟩ := Bool.or_eq_false_iff.1 hr
        have hnil : s.toClient = [] := by simpa using hnil
        exact h.server_ready hopen (.inr hw) fun _ => hnil ▸ hBpos
  | @cfd stdin hr hw =>
    by_cases hnil : s.toClient = []
    · have hc : StrCli.closed s.echo = true := by simpa [Pair.readable, hnil] using hr
      exact ⟨.readCfd, by simp [Pair.step, hctrl, hnil, hc]⟩
    · exact ⟨.readCfd, by simp [Pair.step, hctrl, hnil]⟩
  | stdin hw hload =>
    by_cases hnil : s.stdin = []
    · exact ⟨.readStdin 0, by simp [Pair.step, hctrl, hnil]⟩
    · have hlen : 1 ≤ s.stdin.length := List.length_pos_iff.2 hnil
      exact ⟨.readStdin 1, by simp [Pair.step, hctrl, hlen, MAX_BUF_SIZE]⟩
  | @writing left hleft hw =>
    have hone : 1 ≤ left.length := List.length_pos_iff.2 hleft
    by_cases hroom : s.echo.input.length + 1 ≤ A
    · exact ⟨.write 1, by simp [Pair.step, hctrl, hone, hroom]⟩
    · have hopen : StrCli.closed s.echo = false :=
        Bool.eq_false_iff.2 fun hc => Bool.noConfusion (hw.symm.trans (h.closed hc).1)
      have hin : s.echo.input ≠ [] := List.ne_nil_of_length_pos (by omega)
      -- both directions full would be more than the client can have sent
      refine h.server_ready hopen (.inl hin) fun hheld => ?_
      have hlen := h.length
      have hload := h.load
      have hunsent : s.unsent = left ++ s.stdin := by rw [Pair.unsent, hctrl]; rfl
      rw [hunsent, List.length_append] at hlen
      omega
  | returned _ _ => exact absurd hctrl hne

/-! ## Every step does some of the work -/

/-- How often the client can change its call before the next byte. -/
def ClientCtrl.rank : ClientCtrl → Nat
  | .select => 4
  | .ready cfd stdin => 1 + cfd.toNat + stdin.toNat
  | .writing _ => 4
  | .returned => 0

theorem send_rank (left : List UInt8) : (ClientCtrl.send left).rank = 4 := by
  unfold ClientCtrl.send
  split <;> rfl

/-- What is left to do: a byte has the more steps before it, the earlier it is on its way. -/
def Pair.work (s : Pair) : Nat :=
  13 * s.stdin.length + 9 * s.ctrl.left.length + 8 * s.echo.input.length + 7 * held s.echo + 5 * s.toClient.length +
    5 * s.watched.toNat + s.ctrl.rank + rank s.echo

theorem work_step (s : Pair) (a : Act) (t : Pair) (h : Linked A input s) (hs : s.step A B a = some t) :
    t.work < s.work := by
  cases step_moves hs with
  | @select stdin hctrl hw hr =>
    have hready : (ClientCtrl.ready s.readable stdin).rank < 4 := by
      cases s.readable <;> cases stdin <;> decide
    simp only [Pair.work, hctrl, ClientCtrl.left, ClientCtrl.rank] at hready ⊢
    omega
  | @read stdin hctrl hne =>
    have hpos : 0 < s.toClient.length := List.length_pos_iff.2 hne
    have hleft : (ClientCtrl.next stdin).left = (ClientCtrl.ready true stdin).left := by cases stdin <;> rfl
    have hrank : (ClientCtrl.next stdin).rank ≤ (ClientCtrl.ready true stdin).rank + 2 := by cases stdin <;> decide
    have hbuf : 0 < MAX_BUF_SIZE := Nat.zero_lt_succ _
    simp only [Pair.work, hctrl, hleft, List.length_drop]
    omega
  | fin hctrl _ _ =>
    simp only [Pair.work, hctrl, ClientCtrl.left, ClientCtrl.rank]
    omega
  | eof hctrl hnil =>
    have hplace := h.place
    rw [hctrl] at hplace
    cases hplace with
    | stdin hw _ =>
      simp only [Pair.work, hctrl, hw, ClientCtrl.left, ClientCtrl.rank, Bool.toNat_true, Bool.toNat_false]
      omega
  | input hctrl hpos hbuf hlen =>
    simp only [Pair.work, hctrl, ClientCtrl.left, ClientCtrl.rank, List.length_take, List.length_drop, List.length_nil,
      Bool.toNat_true, Bool.toNat_false]
    omega
  | @write left cnt hctrl hpos hle hroom =>
    have hrest : left.length = (left.drop cnt).length + cnt := by
      rw [List.length_drop]
      omega
    have hleft : (ClientCtrl.writing left).left = left := rfl
    have hwriting : (ClientCtrl.writing left).rank = 4 := rfl
    have hheld : held (more (left.take cnt) s.echo) = held s.echo := rfl
    have hrank : rank (more (left.take cnt) s.echo) = rank s.echo := rfl
    have hinput : (more (left.take cnt) s.echo).input.length = s.echo.input.length + cnt := by
      simp only [more, List.length_append, List.length_take, Nat.min_eq_left hle]
    simp only [Pair.work, hctrl, hheld, hrank, hinput, send_left, send_rank, hleft, hwriting]
    omega
  | @server a f hlets hserve =>
    obtain ⟨hserved, _⟩ := h.served hlets hserve
    cases hserved with
    | byte hin hheld _ hout hrank _ =>
      have hin := hin
      simp only [more, List.length_append] at hin
      have hout : f.out = s.echo.out := hout
      have hheld : held f = held s.echo + 1 := hheld
      have hrank : rank f ≤ rank s.echo := hrank
      simp only [Pair.work, hout, List.drop_length, List.append_nil]
      omega
    | eof hin hin' hheld hout hrank =>
      have hin : s.echo.input = [] := (List.append_eq_nil_iff.1 hin).1
      have hin' : f.input = [] := (List.append_eq_nil_iff.1 hin').1
      have hout : f.out = s.echo.out := hout
      have hheld : held f = held s.echo := hheld
      have hrank : rank f < rank s.echo := hrank
      simp only [Pair.work, hout, hin, hin', hheld, List.drop_length, List.append_nil]
      omega
    | @sent n bs hin hout hlen hheld hrank _ =>
      have hin : f.input = s.echo.input := List.append_cancel_right hin
      have hout : f.out = s.echo.out ++ bs := hout
      have hheld : held f + n = held s.echo := hheld
      have hrank : rank f ≤ rank s.echo + 1 := hrank
      have hpos : 0 < n := (by simpa [Pair.lets] using hlets : 0 < n ∧ _).1
      simp only [Pair.work, hin, hout, List.drop_left, List.length_append, hlen]
      omega

/-- **The client completes**: whatever comes when, a run is no longer than thirteen steps for a byte; it goes on until
the client returns, and then the client has written its standard input, and printed its two lines. -/
theorem str_cli_completes {as : List Act} (hfits : Fits input) (hA : 0 < A) (hB : LINE_SIZE + MAX_BUF_SIZE ≤ B + 1)
    (hr : Steps.run (Pair.step A B) (.start buf input) as = some t) :
    t.written <+: input ∧ as.length ≤ 13 * input.length + 11 ∧
      (t.ctrl = .returned → t.written = input ∧ t.printed = ["do, shutdown\n", "get FIN\n"]) ∧
      (t.ctrl ≠ .returned → ∃ a, (t.step A B a).isSome) := by
  have hstart : Linked A input (.start buf input) := linked_start hfits
  have h : Linked A input t := Steps.run_inv linked_step hstart hr
  refine ⟨?_, ?_, fun hctrl => ?_, h.progress hA hB⟩
  · obtain ⟨es, hinv, _⟩ := h.inv
    have hout : t.echo.out <+: input := hinv.spec.le
    exact (h.out ▸ List.prefix_append t.written t.toClient).trans hout
  · have hle := Steps.run_countP_le (c := fun _ => true) linked_step work_step hstart hr
    have hwork : (Pair.start buf input).work = 13 * input.length + 11 := rfl
    rw [List.countP_true, hwork] at hle
    omega
  · have hplace := h.place
    have hprinted := h.printed
    rw [hctrl] at hplace hprinted
    cases hplace with
    | returned hnil hc =>
      rw [(h.closed hc).1] at hprinted
      refine ⟨?_, hprinted⟩
      obtain ⟨es, hinv, _⟩ := h.inv
      unfold StrCli.closed at hc
      split at hc
      next cnt hleft =>
        have hout : t.echo.out = input := hinv.spec.left cnt hleft
        rwa [h.out, hnil, List.append_nil] at hout
      next => cases hc

/-- One line, through one byte of room to the server; the end of the input is seen before the end of the line. -/
def strCliRun : List Act :=
  [.select true, .readStdin 2, .write 1, .server (.read (.cnt 1)), .write 1, .server (.read (.cnt 1)),
    .server (.write (.cnt 1)), .select true, .readCfd, .readStdin 0, .server (.write (.cnt 1)), .select false, .readCfd,
    .server (.read (.cnt 0)), .select false, .readCfd]

theorem str_cli_completes_oneLine : ∃ t,
    Steps.run (Pair.step 1 2046) (.start (fun _ => 0) [104, 10]) strCliRun = some t ∧
    t.ctrl = .returned ∧ (t.written = [104, 10] ∧ t.printed = ["do, shutdown\n", "get FIN\n"]) ∧
      strCliRun.length ≤ 13 * 2 + 11 := by
  have hfits : Fits [104, 10] := by
    unfold Fits
    decide
  have hr : Steps.run (Pair.step 1 2046) (.start (fun _ => 0) [104, 10]) strCliRun = some _ := rfl
  have hall := str_cli_completes hfits Nat.zero_lt_one (Nat.le_refl _) hr
  exact ⟨_, hr, rfl, hall.2.2.1 rfl, hall.2.1⟩

end SystemFunc.StrCli
