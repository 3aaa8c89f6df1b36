import SystemFunc.Lib.Progress
import SystemFunc.Trigger.Defs

/-!
# The edge-triggered echo does not stall

- `At`: what is written, held and unread at each place, and that the connection is armed while it waits;
- `Inv.settled`: where the server stops, nothing is left to do;
- `work_server`: each step of the server does some of the work;
- `echo_never_stalls`: with either trigger and either way of reading, what has come is written as soon as there is
  room.
-/

namespace SystemFunc.Trigger

open Buffer Readiness

variable {cfg : Config} {s t : State} {a : Act} {as : List Act} {cnt totalCnt : Nat} {buf : Nat → UInt8}
  {stream : List UInt8} {eof : Bool} {room : Nat}

/-! ## The invariant -/

/-- What the connection holds, for each place that the server can be at. -/
inductive At (cfg : Config) (s : State) : Ctrl → Prop
  | listening (hin : s.epollout = false) (hzero : s.bufLen = 0) (hout : s.out = s.stream.take s.got)
      (harmed : s.watch.Armed s.readable) : At cfg s .wait
  | holding (hin : s.epollout = true) (hpos : 0 < s.bufLen) (hlevel : s.watch.edge = false)
      (hsplit : s.stream.take s.got = s.out ++ slice s.buf s.wIndex s.bufLen)
      (harmed : s.watch.Armed (0 < s.room)) : At cfg s .wait
  | read (hloop : cfg.loop = false) (hin : s.epollout = false) (hout : s.out = s.stream.take s.got)
      (hread : s.readable = true) : At cfg s .read
  | reading {totalCnt : Nat} (hloop : cfg.loop = true) (hin : s.epollout = false)
      (hsplit : s.stream.take s.got = s.out ++ slice s.buf 0 totalCnt) (hread : totalCnt = 0 → s.readable = true) :
      At cfg s (.reading totalCnt)
  | write (hin : s.epollout = true) (hpos : 0 < s.bufLen) (hlevel : s.watch.edge = false)
      (hsplit : s.stream.take s.got = s.out ++ slice s.buf s.wIndex s.bufLen) (hroom : 0 < s.room)
      (hqueued : s.watch.queued = true) : At cfg s .write
  | closed (heof : s.eof = true) (hout : s.out <+: s.stream) (hplain : cfg.loop = false → s.out = s.stream) :
      At cfg s .closed
  | undefined (hloop : cfg.loop = true) (hout : s.out <+: s.stream)
      (hlong : s.out.length + MAX_SEGMENT_LENGTH < s.stream.length) : At cfg s .undefined

structure Inv (cfg : Config) (s : State) : Prop where
  got_le : s.got ≤ s.stream.length
  at_ctrl : At cfg s s.ctrl

theorem At.out_le {ctrl : Ctrl} (h : At cfg s ctrl) : s.out <+: s.stream := by
  cases h with
  | listening _ _ hout _ => exact hout ▸ List.take_prefix _ _
  | holding _ _ _ hsplit _ => exact (hsplit ▸ List.prefix_append _ _).trans (List.take_prefix s.got s.stream)
  | read _ _ hout _ => exact hout ▸ List.take_prefix _ _
  | reading _ _ hsplit _ => exact (hsplit ▸ List.prefix_append _ _).trans (List.take_prefix s.got s.stream)
  | write _ _ _ hsplit _ _ => exact (hsplit ▸ List.prefix_append _ _).trans (List.take_prefix s.got s.stream)
  | closed _ hout _ => exact hout
  | undefined _ hout _ => exact hout

theorem pending_of_in (hin : s.epollout = false) : s.pending = s.readable := by
  rw [State.pending, hin]
  rfl

theorem pending_of_out (hout : s.epollout = true) : s.pending = decide (0 < s.room) := by
  rw [State.pending, hout]
  rfl

theorem inv_start : Inv cfg (.start cfg buf stream eof room) where
  got_le := Nat.zero_le _
  at_ctrl := .listening rfl rfl rfl fun hp => hp

/-- Bytes come, or the end of the stream. -/
theorem Inv.told (h : Inv cfg s) (heof : s.eof = false) (bs : List UInt8) (e : Bool) :
    Inv cfg { s with stream := s.stream ++ bs, eof := e, watch := s.tell false } := by
  have htake : (s.stream ++ bs).take s.got = s.stream.take s.got := List.take_append_of_le_length h.got_le
  have htold : ∀ hin : s.epollout = true, s.tell false = s.watch := fun hin =>
    if_neg fun he => Bool.noConfusion (hin.symm.trans he)
  have hread : s.readable = true →
      ({ s with stream := s.stream ++ bs, eof := e, watch := s.tell false } : State).readable = true := by
    intro hr
    simp only [State.readable, heof, Bool.or_false, decide_eq_true_eq] at hr
    simp only [State.readable, List.length_append, Bool.or_eq_true, decide_eq_true_eq]
    exact .inl (Nat.lt_add_right _ hr)
  refine ⟨Nat.le_trans h.got_le (by simp), ?_⟩
  have hat := h.at_ctrl
  dsimp only
  generalize s.ctrl = ctrl at hat ⊢
  cases hat with
  | listening hin hzero hout harmed =>
    have htell : s.tell false = s.watch.notify := if_pos hin
    exact .listening hin hzero (hout.trans htake.symm) (htell ▸ armed_notify)
  | holding hin hpos hlevel hsplit harmed =>
    exact .holding hin hpos ((htold hin).symm ▸ hlevel) (htake.trans hsplit) ((htold hin).symm ▸ harmed)
  | read hloop hin hout hr => exact .read hloop hin (hout.trans htake.symm) (hread hr)
  | reading hloop hin hsplit hr => exact .reading hloop hin (htake.trans hsplit) fun h0 => hread (hr h0)
  | write hin hpos hlevel hsplit hroom hqueued =>
    exact .write hin hpos ((htold hin).symm ▸ hlevel) (htake.trans hsplit) hroom ((htold hin).symm ▸ hqueued)
  | closed heof' _ _ => exact absurd (heof'.symm.trans heof) Bool.noConfusion
  | undefined hloop hout hlong =>
    refine .undefined hloop (hout.trans (List.prefix_append _ _)) ?_
    rw [List.length_append]
    exact Nat.lt_add_right _ hlong

/-- The client takes bytes. -/
theorem Inv.taken (h : Inv cfg s) (cnt : Nat) :
    Inv cfg { s with room := s.room + cnt, watch := s.tell true } := by
  have htold : ∀ hin : s.epollout = false, s.tell true = s.watch := fun hin =>
    if_neg fun he => Bool.noConfusion (he.symm.trans hin)
  refine ⟨h.got_le, ?_⟩
  have hat := h.at_ctrl
  dsimp only
  generalize s.ctrl = ctrl at hat ⊢
  cases hat with
  | listening hin hzero hout harmed =>
    exact .listening hin hzero hout ((htold hin).symm ▸ harmed)
  | holding hin hpos hlevel hsplit harmed =>
    have htell : s.tell true = s.watch.notify := if_pos hin
    exact .holding hin hpos (htell ▸ hlevel) hsplit (htell ▸ armed_notify)
  | read hloop hin hout hr => exact .read hloop hin hout hr
  | reading hloop hin hsplit hr => exact .reading hloop hin hsplit hr
  | write hin hpos hlevel hsplit hroom hqueued =>
    have htell : s.tell true = s.watch.notify := if_pos hin
    exact .write hin hpos (htell ▸ hlevel) hsplit (Nat.lt_add_right _ hroom) (htell ▸ rfl)
  | closed heof hout hplain => exact .closed heof hout hplain
  | undefined hloop hout hlong => exact .undefined hloop hout hlong

/-- `epoll_wait` reports the connection, and its handler is called. -/
theorem Inv.report (h : Inv cfg s) (hctrl : s.ctrl = .wait) (hp : s.pending = true) :
    Inv cfg { s with ctrl := cfg.handler s.epollout, watch := s.watch.wait true } := by
  refine ⟨h.got_le, ?_⟩
  have hat := h.at_ctrl
  rw [hctrl] at hat
  cases hat with
  | listening hin hzero hout harmed =>
    have hread : s.readable = true := (pending_of_in hin).symm.trans hp
    cases hloop : cfg.loop with
    | true =>
      have hhandler : cfg.handler s.epollout = .reading 0 := by simp [Config.handler, hin, hloop]
      rw [hhandler]
      exact .reading hloop hin (by rw [slice_zero, List.append_nil]; exact hout.symm) fun _ => hread
    | false =>
      have hhandler : cfg.handler s.epollout = .read := by simp [Config.handler, hin, hloop]
      rw [hhandler]
      exact .read hloop hin hout hread
  | holding hin hpos hlevel hsplit harmed =>
    have hhandler : cfg.handler s.epollout = .write := by simp [Config.handler, hin]
    have hroom : 0 < s.room := of_decide_eq_true ((pending_of_out hin).symm.trans hp)
    rw [hhandler]
    exact .write hin hpos hlevel hsplit hroom (wait_queued_of_level hlevel rfl)

/-- Bytes of the stream behind those in the buffer. -/
theorem take_add_next (hle : s.got + cnt ≤ s.stream.length) {held : List UInt8} {i : Nat}
    (hsplit : s.stream.take s.got = s.out ++ held) (hheld : slice s.buf i totalCnt = held) :
    s.stream.take (s.got + cnt) = s.out ++ slice (store s.buf (i + totalCnt) (s.next cnt)) i (totalCnt + cnt) := by
  have hlen : (s.next cnt).length = cnt := by
    rw [State.next, List.length_take, List.length_drop]
    omega
  have hstore := @slice_store _ s.buf i totalCnt (s.next cnt)
  rw [hlen, hheld] at hstore
  rw [hstore, List.take_add, hsplit, List.append_assoc]
  rfl

/-- `DoRead` has read some of what was there. -/
theorem Inv.read (h : Inv cfg s) (hctrl : s.ctrl = .read) (hpos : 0 < cnt) (hle : s.got + cnt ≤ s.stream.length) :
    Inv cfg (s.doRead cnt) := by
  have hat := h.at_ctrl
  rw [hctrl] at hat
  cases hat with
  | read _ _ hout _ =>
    have hnext : s.stream.take (s.got + cnt) = s.out ++ slice (store s.buf (0 + 0) (s.next cnt)) 0 (0 + cnt) :=
      take_add_next hle (hout.symm.trans (List.append_nil _).symm) rfl
    rw [Nat.zero_add, Nat.zero_add] at hnext
    exact ⟨hle, .holding rfl hpos rfl hnext (armed_modify false)⟩

/-- `DoReadLoop` has read some more; it does not look at the size of the buffer. -/
theorem Inv.pass (h : Inv cfg s) (hctrl : s.ctrl = .reading totalCnt) (hpos : 0 < cnt)
    (hle : s.got + cnt ≤ s.stream.length) : Inv cfg (s.readPass totalCnt cnt) := by
  have hat := h.at_ctrl
  rw [hctrl] at hat
  cases hat with
  | reading hloop hin hsplit _ =>
    refine ⟨hle, ?_⟩
    unfold State.readPass
    dsimp only
    split
    next hfits =>
      have hnext := take_add_next hle hsplit rfl
      rw [Nat.zero_add] at hnext
      exact .reading hloop hin hnext fun h0 => absurd h0 (Nat.ne_of_gt (Nat.add_pos_right totalCnt hpos))
    next hlong =>
      have hlen := congrArg List.length hsplit
      rw [List.length_append, slice_length, List.length_take, Nat.min_eq_left h.got_le] at hlen
      have hprefix : s.out <+: s.stream := (hsplit ▸ List.prefix_append _ _).trans (List.take_prefix s.got s.stream)
      refine .undefined hloop hprefix ?_
      dsimp only
      omega

/-- `DoReadLoop` has read all that was there. -/
theorem Inv.readEnd (h : Inv cfg s) (hctrl : s.ctrl = .reading totalCnt) (hread : s.readable = false) :
    Inv cfg (s.readEnd totalCnt) := by
  have hat := h.at_ctrl
  rw [hctrl] at hat
  cases hat with
  | reading _ _ hsplit hr =>
    have hpos : 0 < totalCnt := Nat.pos_of_ne_zero fun h0 => Bool.noConfusion ((hr h0).symm.trans hread)
    exact ⟨h.got_le, .holding rfl hpos rfl hsplit (armed_modify false)⟩

/-- `DoWrite` goes on with the rest, or back to reading. -/
theorem Inv.write (h : Inv cfg s) (hctrl : s.ctrl = .write) (hle : cnt ≤ s.bufLen) : Inv cfg (s.doWrite cfg cnt) := by
  have hat := h.at_ctrl
  rw [hctrl] at hat
  cases hat with
  | write hin hpos hlevel hsplit hroom hqueued =>
    unfold State.doWrite
    dsimp only
    split
    next hall =>
      have hcnt : cnt = s.bufLen := by omega
      refine ⟨h.got_le, .listening rfl (Nat.le_zero.1 hall) ?_ (armed_modify cfg.edge)⟩
      exact hcnt ▸ hsplit.symm
    next hmore =>
      refine ⟨h.got_le, .holding hin (Nat.pos_of_ne_zero fun h0 => hmore (Nat.le_of_eq h0)) hlevel ?_
        (armed_of_queued hqueued)⟩
      dsimp only
      rw [hsplit, List.append_assoc, ← slice_add, Nat.add_sub_cancel' hle]

theorem Inv.close (h : Inv cfg s) (hctrl : s.ctrl = .read ∨ ∃ totalCnt, s.ctrl = .reading totalCnt)
    (heof : s.eof = true) (hall : s.got = s.stream.length) : Inv cfg { s with ctrl := .closed } := by
  have hat := h.at_ctrl
  refine ⟨h.got_le, .closed heof hat.out_le fun hloop => ?_⟩
  rcases hctrl with hctrl | ⟨totalCnt, hctrl⟩
  · rw [hctrl] at hat
    cases hat with
    | read _ _ hout _ => exact hout.trans (List.take_of_length_le (Nat.le_of_eq hall.symm))
  · rw [hctrl] at hat
    cases hat with
    | reading hloop' _ _ _ => exact absurd (hloop'.symm.trans hloop) Bool.noConfusion

theorem inv_step (s : State) (a : Act) (t : State) (h : Inv cfg s) (hs : s.step cfg a = some t) : Inv cfg t := by
  cases step_moves hs with
  | arrive heof => exact heof ▸ h.told heof _ s.eof
  | fin heof =>
    have htold := h.told heof [] true
    rw [List.append_nil] at htold
    exact htold
  | take => exact h.taken _
  | report hctrl _ hp => exact h.report hctrl hp
  | spurious hctrl _ hp =>
    have hat := h.at_ctrl
    rw [hctrl] at hat
    refine ⟨h.got_le, ?_⟩
    cases hat with
    | listening hin hzero hout _ =>
      exact .listening hin hzero hout (armed_of_not ((pending_of_in hin).symm.trans hp))
    | holding hin hpos hlevel hsplit _ =>
      exact .holding hin hpos hlevel hsplit (armed_of_not ((pending_of_out hin).symm.trans hp))
  | close hctrl heof hall => exact h.close hctrl heof hall
  | read hctrl hpos hle => exact h.read hctrl hpos hle
  | pass hctrl hpos hle => exact h.pass hctrl hpos hle
  | readFails hctrl hread =>
    have hat := h.at_ctrl
    rw [hctrl] at hat
    cases hat with
    | read _ _ _ hr => exact absurd (hr.symm.trans hread) Bool.noConfusion
  | readEnd hctrl hread => exact h.readEnd hctrl hread
  | writeFails hctrl hroom _ =>
    have hat := h.at_ctrl
    rw [hctrl] at hat
    cases hat with
    | write _ _ _ _ hpos _ => exact absurd hroom (Nat.ne_of_gt hpos)
  | write hctrl hle _ _ => exact h.write hctrl hle

/-! ## The server has work to do, or none is left -/

/-- A step of the server. -/
def Act.server : Act → Bool
  | .arrive _ | .fin | .take _ => false
  | _ => true

/-- What a `read` does where it does not wait. -/
theorem read_ready (h : s.got ≤ s.stream.length) (hctrl : s.ctrl = .read ∨ ∃ totalCnt, s.ctrl = .reading totalCnt)
    (hread : s.readable = true) : ∃ cnt, (s.step cfg (.read cnt)).isSome := by
  by_cases hmore : s.got + 1 ≤ s.stream.length
  · refine ⟨1, ?_⟩
    rcases hctrl with hctrl | ⟨totalCnt, hctrl⟩ <;> simp [State.step, hctrl, hmore, BUF_SIZE]
  · have hall : s.got = s.stream.length := Nat.le_antisymm h (Nat.le_of_lt_succ (Nat.lt_of_not_le hmore))
    have heof : s.eof = true := by simpa [State.readable, hall] using hread
    refine ⟨0, ?_⟩
    rcases hctrl with hctrl | ⟨totalCnt, hctrl⟩ <;> simp [State.step, hctrl, hall, heof]

/-- Where the server stops. -/
inductive Settled (s : State) : Prop
  | idle (hctrl : s.ctrl = .wait) (hin : s.epollout = false) (hout : s.out = s.stream)
  | full (hctrl : s.ctrl = .wait) (hin : s.epollout = true) (hroom : s.room = 0)
  | closed (hctrl : s.ctrl = .closed)
  | undefined (hctrl : s.ctrl = .undefined)

/-- **No wake-up is lost**: the server stops only where nothing is left to do. -/
theorem Inv.settled (h : Inv cfg s) (hs : ∀ a, a.server = true → s.step cfg a = none) : Settled s := by
  have hno : ∀ a, a.server = true → ¬(s.step cfg a).isSome = true := fun a ha hsome => by
    rw [hs a ha] at hsome
    cases hsome
  have hwait : s.ctrl = .wait → s.watch.queued = true → False := fun hctrl hqueued =>
    hno .wait rfl (by simp [State.step, hctrl, hqueued])
  have hreading : (s.ctrl = .read ∨ ∃ totalCnt, s.ctrl = .reading totalCnt) → s.readable = true → False := by
    intro hctrl hread
    obtain ⟨cnt, hsome⟩ := read_ready h.got_le hctrl hread
    exact hno (.read cnt) rfl hsome
  have hat := h.at_ctrl
  generalize hctrl : s.ctrl = ctrl at hat
  cases hat with
  | listening hin _ hout harmed =>
    have hread : s.readable = false := Bool.eq_false_iff.2 fun hr => hwait hctrl (harmed hr)
    have hall : s.stream.length ≤ s.got := by
      simpa [State.readable] using (Bool.or_eq_false_iff.1 hread).1
    exact .idle hctrl hin (hout.trans (List.take_of_length_le hall))
  | holding hin _ _ _ harmed =>
    have hroom : ¬0 < s.room := fun hr => hwait hctrl (harmed (decide_eq_true hr))
    exact .full hctrl hin (Nat.eq_zero_of_not_pos hroom)
  | read _ _ _ hread => exact (hreading (.inl hctrl) hread).elim
  | @reading totalCnt _ _ _ _ =>
    cases hread : s.readable with
    | true => exact (hreading (.inr ⟨totalCnt, hctrl⟩) hread).elim
    | false => exact (hno .again rfl (by simp [State.step, hctrl, hread])).elim
  | write _ hpos _ _ hroom _ =>
    have hone : 1 ≤ min s.bufLen MAX_WRITE_BYTE := Nat.le_min.2 ⟨hpos, by decide⟩
    have hone' : 1 ≤ s.room := hroom
    exact (hno (.write 1) rfl (by simp [State.step, hctrl, hone, hone'])).elim
  | closed _ _ _ => exact .closed hctrl
  | undefined _ _ _ => exact .undefined hctrl

/-! ## How many steps the server makes -/

/-- The steps from a place to the next `epoll_wait` for bytes; each byte that is held can take four. -/
def Ctrl.price (bufLen : Nat) : Ctrl → Nat
  | .wait => 4 * bufLen + 2
  | .read => 1
  | .reading totalCnt => if totalCnt = 0 then 1 else 4 * totalCnt + 5
  | .write => 4 * bufLen + 1
  | _ => 0

def State.work (s : State) : Nat :=
  10 * (s.stream.length - s.got) + s.watch.queued.toNat + s.ctrl.price s.bufLen

theorem price_reading_pos (bufLen totalCnt : Nat) : 4 * totalCnt + 1 ≤ (Ctrl.reading totalCnt).price bufLen := by
  simp only [Ctrl.price]
  split <;> omega

theorem price_reading_le (bufLen totalCnt : Nat) : (Ctrl.reading totalCnt).price bufLen ≤ 4 * totalCnt + 5 := by
  simp only [Ctrl.price]
  split <;> omega

/-- What the client does adds to it. -/
theorem work_client (hs : Moves cfg s a t) (ha : a.server = false) : t.work ≤ s.work + 11 := by
  have htell : ∀ b, (s.tell b).queued.toNat ≤ 1 := fun b => Bool.toNat_le _
  cases hs with
  | arrive heof =>
    have htell := htell false
    simp only [State.work, List.length_append, List.length_singleton]
    omega
  | fin heof =>
    have htell := htell false
    simp only [State.work]
    omega
  | take =>
    have htell := htell true
    simp only [State.work]
    omega
  | report => cases ha
  | spurious => cases ha
  | close => cases ha
  | read => cases ha
  | pass => cases ha
  | readFails => cases ha
  | readEnd => cases ha
  | writeFails => cases ha
  | write => cases ha

theorem work_read (hctrl : s.ctrl = .read) (hpos : 0 < cnt) (hle : s.got + cnt ≤ s.stream.length) :
    (s.doRead cnt).work < s.work := by
  have hqueued := Bool.toNat_le (s.doRead cnt).watch.queued
  have hwork : (s.doRead cnt).work =
    10 * (s.stream.length - (s.got + cnt)) + (s.doRead cnt).watch.queued.toNat + (4 * cnt + 2) := rfl
  have hprice : s.ctrl.price s.bufLen = 1 := by rw [hctrl]; rfl
  rw [hwork, State.work, hprice]
  omega

theorem work_pass (hctrl : s.ctrl = .reading totalCnt) (hpos : 0 < cnt) (hle : s.got + cnt ≤ s.stream.length) :
    (s.readPass totalCnt cnt).work < s.work := by
  have hpass : (s.readPass totalCnt cnt).ctrl.price s.bufLen ≤ 4 * (totalCnt + cnt) + 5 := by
    unfold State.readPass
    dsimp only
    split
    next => exact price_reading_le s.bufLen (totalCnt + cnt)
    next => exact Nat.zero_le _
  have hwork : (s.readPass totalCnt cnt).work =
    10 * (s.stream.length - (s.got + cnt)) + s.watch.queued.toNat + (s.readPass totalCnt cnt).ctrl.price s.bufLen := rfl
  have hprice := price_reading_pos s.bufLen totalCnt
  rw [← hctrl] at hprice
  rw [hwork, State.work]
  omega

theorem work_readEnd (hctrl : s.ctrl = .reading totalCnt) (hne : totalCnt ≠ 0) :
    (s.readEnd totalCnt).work < s.work := by
  have hqueued := Bool.toNat_le (s.readEnd totalCnt).watch.queued
  have hwork : (s.readEnd totalCnt).work =
    10 * (s.stream.length - s.got) + (s.readEnd totalCnt).watch.queued.toNat + (4 * totalCnt + 2) := rfl
  have hprice : s.ctrl.price s.bufLen = 4 * totalCnt + 5 := by rw [hctrl]; exact if_neg hne
  rw [hwork, State.work, hprice]
  omega

theorem work_write (hctrl : s.ctrl = .write) (hpos : 0 < cnt) (hle : cnt ≤ s.bufLen) :
    (s.doWrite cfg cnt).work < s.work := by
  have hqueued := Bool.toNat_le (s.doWrite cfg cnt).watch.queued
  have hwork : (s.doWrite cfg cnt).work =
      10 * (s.stream.length - s.got) + (s.doWrite cfg cnt).watch.queued.toNat + (4 * (s.bufLen - cnt) + 2) := by
    unfold State.doWrite
    dsimp only
    split <;> rfl
  have hprice : s.ctrl.price s.bufLen = 4 * s.bufLen + 1 := by rw [hctrl]; rfl
  rw [hwork, State.work, hprice]
  omega

/-- **Every step of the server does some of it.** -/
theorem work_server (h : Inv cfg s) (hs : Moves cfg s a t) (ha : a.server = true) : t.work < s.work := by
  have hat := h.at_ctrl
  cases hs with
  | arrive => cases ha
  | fin => cases ha
  | take => cases ha
  | report hctrl hqueued hp =>
    have hwait : (s.watch.wait true).queued.toNat ≤ 1 := Bool.toNat_le _
    have hprice : (cfg.handler s.epollout).price s.bufLen < s.ctrl.price s.bufLen := by
      rw [hctrl]
      unfold Config.handler
      split
      next => exact Nat.lt_succ_self _
      next => split <;> exact Nat.lt_add_left _ Nat.one_lt_two
    simp only [State.work, hqueued, Bool.toNat_true]
    omega
  | spurious hctrl hqueued _ =>
    have hwait : (s.watch.wait false).queued = false := rfl
    simp only [State.work, hctrl, hqueued, hwait, Bool.toNat_true, Bool.toNat_false]
    omega
  | close hctrl _ _ =>
    have hprice : 1 ≤ s.ctrl.price s.bufLen := by
      rcases hctrl with hctrl | ⟨totalCnt, hctrl⟩
      · rw [hctrl]
        exact Nat.le_refl 1
      · rw [hctrl]
        exact Nat.le_trans (Nat.le_add_left 1 _) (price_reading_pos s.bufLen totalCnt)
    have hclosed : Ctrl.closed.price s.bufLen = 0 := rfl
    simp only [State.work, hclosed]
    omega
  | read hctrl hpos hle => exact work_read hctrl hpos hle
  | pass hctrl hpos hle => exact work_pass hctrl hpos hle
  | readFails hctrl hread =>
    rw [hctrl] at hat
    cases hat with
    | read _ _ _ hr => exact absurd (hr.symm.trans hread) Bool.noConfusion
  | @readEnd totalCnt hctrl hread =>
    rw [hctrl] at hat
    cases hat with
    | reading _ _ _ hr => exact work_readEnd hctrl fun h0 => Bool.noConfusion ((hr h0).symm.trans hread)
  | writeFails hctrl hroom _ =>
    rw [hctrl] at hat
    cases hat with
    | write _ _ _ _ hpos _ => exact absurd hroom (Nat.ne_of_gt hpos)
  | write hctrl hle _ hpos =>
    rw [hctrl] at hat
    cases hat with
    | write _ hlen _ _ _ _ => exact work_write hctrl (hpos hlen) hle

theorem work_step (s : State) (a : Act) (t : State) (h : Inv cfg s) (hs : s.step cfg a = some t) :
    t.work + a.server.toNat ≤ s.work + 11 * (!a.server).toNat := by
  cases ha : a.server with
  | true => exact work_server h (step_moves hs) ha
  | false => exact work_client (step_moves hs) ha

/-! ## The echo -/

/-- What the server has written, how many steps it has made, and where it stops. -/
structure EchoSpec (cfg : Config) (stream : List UInt8) (as : List Act) (t : State) : Prop where
  le : t.out <+: t.stream
  exited : ∀ headStr, t.ctrl ≠ .exited headStr
  steps : as.countP Act.server ≤ 11 * as.countP (fun a => !a.server) + (10 * stream.length + 3)
  settled : (∀ a, a.server = true → t.step cfg a = none) → Settled t
  closed : t.ctrl = .closed → t.eof = true ∧ (cfg.loop = false → t.out = t.stream)
  undefined : t.ctrl = .undefined → cfg.loop = true ∧ t.out.length + MAX_SEGMENT_LENGTH < t.stream.length

/-- **With either trigger and either way of reading**: the server stops only where everything that has come is written,
or where there is no room, or behind the end of the stream; without the loop it has then written the stream. With the
loop it drops what it read together with the end of the stream, and writes behind its buffer when too much has come. -/
theorem echo_never_stalls (hr : Steps.run (State.step cfg) (.start cfg buf stream eof room) as = some t) :
    EchoSpec cfg stream as t := by
  have h : Inv cfg t := Steps.run_inv inv_step inv_start hr
  have hat := h.at_ctrl
  refine ⟨hat.out_le, fun headStr he => ?_, ?_, h.settled, fun hc => ?_, fun hc => ?_⟩
  · rw [he] at hat
    cases hat
  · have hle := Steps.run_countP_le_mul (c := Act.server) (d := fun a => !a.server) inv_step work_step inv_start hr
    have hqueued := Bool.toNat_le (State.start cfg buf stream eof room).watch.queued
    have hwork : (State.start cfg buf stream eof room).work ≤ 10 * stream.length + 3 := by
      unfold State.work
      exact Nat.add_le_add_right (Nat.add_le_add_left hqueued _) 2
    omega
  · rw [hc] at hat
    cases hat with
    | closed heof _ hplain => exact ⟨heof, hplain⟩
  · rw [hc] at hat
    cases hat with
    | undefined hloop _ hlong => exact ⟨hloop, hlong⟩

/-- A byte that comes while another is held; the edge-triggered connection is told of it by `EventMod`. -/
def echoRun : List Act :=
  [.wait, .read 1, .arrive 105, .wait, .write 1, .wait, .read 1, .fin, .wait, .write 1, .wait, .read 0]

theorem echo_never_stalls_heldByte : ∃ t,
    Steps.run (State.step ⟨true, false⟩) (.start ⟨true, false⟩ (fun _ => 0) [104] false 2) echoRun = some t ∧
    t.ctrl = .closed ∧ t.out = [104, 105] ∧ EchoSpec ⟨true, false⟩ [104] echoRun t := by
  have hr : Steps.run (State.step ⟨true, false⟩) (.start ⟨true, false⟩ (fun _ => 0) [104] false 2) echoRun = some _ :=
    rfl
  exact ⟨_, hr, rfl, rfl, echo_never_stalls hr⟩

end SystemFunc.Trigger
