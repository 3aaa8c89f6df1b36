import SystemFunc.Reactor.Sound

/-!
# The bytes of one burst

`DoReadLoop` reads until `EAGAIN` or the end of the stream, each time `100` bytes at most to `buf + totalCnt`, and does
not look at `totalCnt`. In a call, whatever is read and whatever arrives in between, `totalCnt` is the number of bytes
that the reads of this call have returned (`callStep`). So the bytes are stored inside `buf` exactly when all reads of
the call together return `MAX_SEGMENT_LENGTH` bytes at most (`burst_in_buf_iff`).
-/

namespace SystemFunc.Reactor

variable {s t : State} {a : Act} {as : List Act}

/-- The number of bytes that a `read` returns. -/
def Act.readCnt : Act → Nat
  | .read n => n
  | _ => 0

/-- The results of `read`, and what arrives from the clients. -/
def Act.inCall : Act → Bool
  | .read _ | .readEagain | .readEintr | .readZero | .fail | .arrive _ _ | .peerClose _ => true
  | _ => false

/-- `totalCnt` before a `read`. -/
def Ctrl.totalCnt : Ctrl → Option Nat
  | .handler _ _ (.reading totalCnt) _ => some totalCnt
  | _ => none

/-- The indices of `buf` at which a step stores. -/
def State.stored (s : State) : Act → List Nat
  | .read n => (s.ctrl.totalCnt.map fun totalCnt => List.range' totalCnt n).getD []
  | _ => []

/-- What is stored is stored in `buf`. -/
def InBuf (s : State) (a : Act) : Prop := ∀ k ∈ s.stored a, k < MAX_SEGMENT_LENGTH

theorem inBuf_of_readCnt (h : a.readCnt = 0) : InBuf s a := by
  intro k hk
  cases a with
  | read n =>
    obtain rfl : n = 0 := h
    cases hctrl : s.ctrl.totalCnt <;> simp [State.stored, hctrl] at hk
  | _ => cases hk

theorem inBuf_read {totalCnt n : Nat} (hctrl : s.ctrl.totalCnt = some totalCnt) (hn : 1 ≤ n) :
    InBuf s (.read n) ↔ totalCnt + n ≤ MAX_SEGMENT_LENGTH := by
  simp only [InBuf, State.stored, hctrl, Option.map_some, Option.getD_some, List.mem_range'_1]
  constructor
  · intro h
    have hlast := h (totalCnt + n - 1) (by omega)
    omega
  · intro h k hk
    omega

/-! ## One step of a call -/

/-- What a step of a call does to `totalCnt`: bytes are stored and counted; bytes are stored behind `buf`; or nothing
is stored, and the loop is left or not. -/
inductive CallStep (k : Nat) (a : Act) (ctrl : Ctrl) : Prop
  | fits {n : Nat} (hact : a = .read n) (hn : 1 ≤ n) (hle : k + n ≤ MAX_SEGMENT_LENGTH)
      (hctrl : ctrl.totalCnt = some (k + n))
  | behind {n : Nat} (hact : a = .read n) (hn : 1 ≤ n) (hlt : MAX_SEGMENT_LENGTH < k + n)
      (hctrl : ctrl.totalCnt = none)
  | other (hcnt : a.readCnt = 0) (hctrl : ctrl.totalCnt = some k ∨ ctrl.totalCnt = none)

theorem totalCnt_eq {k : Nat} : s.ctrl.totalCnt = some k ↔ ∃ i fd evs, s.ctrl = .handler i fd (.reading k) evs := by
  unfold Ctrl.totalCnt
  split
  next i fd totalCnt evs hctrl =>
    simp only [Option.some.injEq, hctrl, Ctrl.handler.injEq, Doing.reading.injEq]
    exact ⟨fun h => ⟨i, fd, evs, rfl, rfl, h, rfl⟩, fun ⟨_, _, _, _, _, h, _⟩ => h⟩
  next hne => simpa using fun i fd evs h => hne i fd k evs h

theorem callStep (h : Sound s) {k : Nat} (hctrl : s.ctrl.totalCnt = some k) (ha : a.inCall = true)
    (hs : step s a = some t) : CallStep k a t.ctrl := by
  obtain ⟨i, fd, evs, hctrl'⟩ := totalCnt_eq.1 hctrl
  cases a with
  | arrive c bytes =>
    simp only [step, Option.ite_none_right_eq_some, Option.some.injEq] at hs
    exact .other rfl (.inl (hs.2 ▸ hctrl))
  | peerClose c =>
    simp only [step, Option.ite_none_right_eq_some, Option.some.injEq] at hs
    exact .other rfl (.inl (hs.2 ▸ hctrl))
  | read n =>
    simp only [step, hctrl'] at hs
    split at hs
    · split at hs
      next hn =>
        split at hs
        next hle =>
          cases hs
          have hlen : ((s.conns _).pending.take n).length = n := List.length_take_of_le hn.2.2
          refine .fits rfl hn.1 hle ?_
          rw [State.doRead, hlen]
          rfl
        next hgt =>
          cases hs
          exact .behind rfl hn.1 (Nat.lt_of_not_le hgt) rfl
      next => cases hs
    · cases hs
  | readEagain =>
    simp only [step, hctrl'] at hs
    split at hs
    · simp only [Option.ite_none_right_eq_some, Option.some.injEq] at hs
      exact .other rfl (.inr (hs.2 ▸ rfl))
    · cases hs
  | readEintr =>
    simp only [step, hctrl', Option.some.injEq] at hs
    exact .other rfl (.inl (hs ▸ hctrl))
  | readZero =>
    obtain ⟨c, totalCnt, evs', -, -, -, rfl⟩ := h.readZero hs
    exact .other rfl (.inr rfl)
  | fail =>
    simp only [step, hctrl', Ctrl.failure, Option.map_some, Option.some.injEq] at hs
    exact .other rfl (.inr (hs ▸ rfl))
  | _ => cases ha

/-- Outside the loop nothing is read, and a call does not start again. -/
theorem step_outside (hctrl : s.ctrl.totalCnt = none) (ha : a.inCall = true) (hs : step s a = some t) :
    a.readCnt = 0 ∧ t.ctrl.totalCnt = none := by
  have hne : ∀ i fd totalCnt evs, s.ctrl ≠ .handler i fd (.reading totalCnt) evs := by
    intro i fd totalCnt evs he
    rw [he] at hctrl
    cases hctrl
  cases a with
  | arrive c bytes =>
    simp only [step, Option.ite_none_right_eq_some, Option.some.injEq] at hs
    exact ⟨rfl, hs.2 ▸ hctrl⟩
  | peerClose c =>
    simp only [step, Option.ite_none_right_eq_some, Option.some.injEq] at hs
    exact ⟨rfl, hs.2 ▸ hctrl⟩
  | fail =>
    obtain ⟨headStr, -, rfl⟩ := Option.map_eq_some_iff.1 hs
    exact ⟨rfl, rfl⟩
  | read _ | readEagain | readEintr | readZero =>
    simp only [step] at hs
    cases hs
  | _ => cases ha

/-! ## A call -/

/-- The number of bytes that the reads of a list of actions return. -/
def readTotal : List Act → Nat
  | [] => 0
  | a :: as => a.readCnt + readTotal as

@[simp] theorem readTotal_nil : readTotal [] = 0 := rfl

@[simp] theorem readTotal_cons : readTotal (a :: as) = a.readCnt + readTotal as := rfl

theorem readTotal_outside (hctrl : s.ctrl.totalCnt = none) (hcall : ∀ a ∈ as, a.inCall = true)
    (hr : Steps.run step s as = some t) : readTotal as = 0 ∧ Steps.Meets step InBuf s as := by
  induction as generalizing s with
  | nil => exact ⟨rfl, trivial⟩
  | cons a as ih =>
    obtain ⟨u, hu, ht⟩ := Steps.run_cons.1 hr
    obtain ⟨hcnt, hout⟩ := step_outside hctrl (hcall a List.mem_cons_self) hu
    obtain ⟨htotal, hmeets⟩ := ih hout (fun b hb => hcall b (List.mem_cons_of_mem a hb)) ht
    refine ⟨by rw [readTotal_cons, hcnt, htotal], fun u' hu' => ?_⟩
    cases hu.symm.trans hu'
    exact ⟨inBuf_of_readCnt hcnt, hmeets⟩

/-- From `totalCnt` on, the rest of the call stays inside `buf` if the bytes that it reads fit behind those. -/
theorem meets_inBuf_iff {k : Nat} (h : Sound s) (hctrl : s.ctrl.totalCnt = some k) (hk : k ≤ MAX_SEGMENT_LENGTH)
    (hcall : ∀ a ∈ as, a.inCall = true) (hr : Steps.run step s as = some t) :
    Steps.Meets step InBuf s as ↔ k + readTotal as ≤ MAX_SEGMENT_LENGTH := by
  induction as generalizing s k with
  | nil => simpa [Steps.Meets] using hk
  | cons a as ih =>
    obtain ⟨u, hu, ht⟩ := Steps.run_cons.1 hr
    have hsound : Sound u := (h.move hu).sound h
    have hcall' : ∀ b ∈ as, b.inCall = true := fun b hb => hcall b (List.mem_cons_of_mem a hb)
    have hmeets : Steps.Meets step InBuf s (a :: as) ↔ InBuf s a ∧ Steps.Meets step InBuf u as := by
      simp [Steps.Meets, hu]
    rw [hmeets, readTotal_cons]
    cases callStep h hctrl (hcall a List.mem_cons_self) hu with
    | @fits n hact hn hle hctrl' =>
      subst hact
      have hin : InBuf s (.read n) := (inBuf_read hctrl hn).2 hle
      rw [and_iff_right hin, ih hsound hctrl' hle hcall' ht, Act.readCnt, Nat.add_assoc]
    | @behind n hact hn hlt hctrl' =>
      subst hact
      have hout : ¬InBuf s (.read n) := fun hin => Nat.not_le_of_lt hlt ((inBuf_read hctrl hn).1 hin)
      have hcnt : (Act.read n).readCnt = n := rfl
      exact ⟨fun hm => absurd hm.1 hout, fun hle => by omega⟩
    | other hcnt hctrl' =>
      rw [and_iff_right (inBuf_of_readCnt hcnt), hcnt, Nat.zero_add]
      rcases hctrl' with hctrl' | hctrl'
      · exact ih hsound hctrl' hk hcall' ht
      · obtain ⟨htotal, hm⟩ := readTotal_outside hctrl' hcall' ht
        exact iff_of_true hm (by omega)

/-- **The burst stays in the buffer**: in a call of `DoReadLoop`, from any reachable state and for everything that
`read` can answer, bytes are only stored inside `buf` exactly when the reads of the call return no more than fit
there. -/
theorem burst_in_buf_iff (h : Steps.Reach Init step s) (hctrl : s.ctrl.totalCnt = some 0)
    (hcall : ∀ a ∈ as, a.inCall = true) (hr : Steps.run step s as = some t) :
    Steps.Meets step InBuf s as ↔ readTotal as ≤ MAX_SEGMENT_LENGTH := by
  rw [meets_inBuf_iff (sound_reach h) hctrl (Nat.zero_le _) hcall hr, Nat.zero_add]

/-! ## A fast client -/

/-- A client is accepted that has sent `pending`, and its `DoReadLoop` is called. -/
def burstRun (pending : List UInt8) : List Act :=
  timeoutLoop 0 ++ ([.epollWait [3], .dispatch 0, .accept 5 16 pending false 0, .dispatch 0] ++
    (timeoutLoop 1 ++ [.epollWait [5], .dispatch 0]))

theorem burstRun_runs (pending : List UInt8) : ∃ s, Steps.run step startState (burstRun pending) = some s ∧
    s.ctrl = .handler 0 5 (.reading 0) [] ∧ s.fds 5 = some (.conn 0) ∧ (s.conns 0).pending = pending := by
  obtain ⟨s, hs, hctrl, hlast, t, ht, hfacts⟩ : ∃ s, Steps.run step { startState with ctrl := .wait }
      [.epollWait [3], .dispatch 0, .accept 5 16 pending false 0, .dispatch 0] = some s ∧ s.ctrl = .top ∧
        (∀ i, (s.nodes i).lastAccess = 0) ∧
        ∃ t, Steps.run step { s with ctrl := .wait } [.epollWait [5], .dispatch 0] = some t ∧
          t.ctrl = .handler 0 5 (.reading 0) [] ∧ t.fds 5 = some (.conn 0) ∧ (t.conns 0).pending = pending :=
    ⟨_, rfl, rfl,
      lastAccess_update (lastAccess_update (lastAccess_update startState_lastAccess _ rfl) 0 rfl) 0 rfl,
      _, rfl, rfl, rfl, rfl⟩
  refine ⟨t, Steps.run_append.2 ⟨_, run_timeoutLoop rfl fun i _ => ?_, ?_⟩, hfacts⟩
  · simp [startState_lastAccess, EVNET_NODE_LIVE_TIMESTAMP]
  · refine Steps.run_append.2 ⟨s, hs, Steps.run_append.2 ⟨_, run_timeoutLoop hctrl fun i _ => ?_, ht⟩⟩
    simp [hlast, EVNET_NODE_LIVE_TIMESTAMP]

/-- A `read` of `100` bytes. -/
theorem step_hundred {i fd c k : Nat} {evs : List Pending} (hctrl : s.ctrl = .handler i fd (.reading k) evs)
    (hfd : s.fds fd = some (.conn c)) (hlen : 100 ≤ (s.conns c).pending.length) (hfits : k + 100 ≤ MAX_SEGMENT_LENGTH) :
    ∃ u, step s (.read 100) = some u ∧ u.ctrl = .handler i fd (.reading (k + 100)) evs ∧ u.fds fd = some (.conn c) ∧
      (u.conns c).pending.length = (s.conns c).pending.length - 100 := by
  have hread : 1 ≤ 100 ∧ 100 ≤ 100 ∧ 100 ≤ (s.conns c).pending.length := ⟨by decide, by decide, hlen⟩
  have htake : ((s.conns c).pending.take 100).length = 100 := List.length_take_of_le hlen
  have hstep : step s (.read 100) = some (s.doRead i fd k ((s.conns c).pending.take 100) evs) := by
    simp only [step, hctrl, hfd]
    rw [if_pos hread, if_pos hfits]
  refine ⟨_, hstep, ?_, ?_, ?_⟩
  · rw [State.doRead, htake]
  · simp [State.doRead, State.onConn, State.setNode, hfd]
  · simp [State.doRead, State.onConn, State.setNode, hfd, htake]

/-- As long as enough is pending, each `read` returns `100` bytes. -/
theorem run_reads {i fd c k m : Nat} {evs : List Pending} (hctrl : s.ctrl = .handler i fd (.reading k) evs)
    (hfd : s.fds fd = some (.conn c)) (hlen : 100 * m ≤ (s.conns c).pending.length)
    (hfits : k + 100 * m ≤ MAX_SEGMENT_LENGTH) :
    ∃ t, Steps.run step s (List.replicate m (.read 100)) = some t ∧
      t.ctrl = .handler i fd (.reading (k + 100 * m)) evs ∧ t.fds fd = some (.conn c) ∧
      (t.conns c).pending.length = (s.conns c).pending.length - 100 * m := by
  induction m generalizing s k with
  | zero => exact ⟨s, rfl, hctrl, hfd, rfl⟩
  | succ m ih =>
    obtain ⟨u, hu, hctrl', hfd', hlen'⟩ := step_hundred hctrl hfd (by omega) (by omega)
    obtain ⟨t, ht, hctrl'', hfd'', hlen''⟩ := ih hctrl' hfd' (by omega) (by omega)
    refine ⟨t, Steps.run_cons.2 ⟨u, hu, ht⟩, ?_, hfd'', by omega⟩
    rw [hctrl'', Nat.add_assoc, Nat.mul_succ, Nat.add_comm 100]

theorem readTotal_replicate {m n : Nat} : readTotal (List.replicate m (.read n)) = m * n := by
  induction m with
  | zero => exact (Nat.zero_mul n).symm
  | succ m ih => rw [List.replicate_succ, readTotal_cons, ih, Act.readCnt, Nat.succ_mul, Nat.add_comm]

theorem inCall_replicate {m n : Nat} : ∀ a ∈ List.replicate m (Act.read n), a.inCall = true := by
  intro a ha
  rw [List.eq_of_mem_replicate ha]
  rfl

theorem burst_in_buf_hundred : ∃ s, Steps.Reach Init step s ∧ s.ctrl.totalCnt = some 0 ∧
    (Steps.Meets step InBuf s (List.replicate 1 (.read 100)) ↔
      readTotal (List.replicate 1 (.read 100)) ≤ MAX_SEGMENT_LENGTH) := by
  obtain ⟨s, hs, hctrl, hfd, hpending⟩ := burstRun_runs (List.replicate 100 0)
  have hr : Steps.Reach Init step s := ⟨startState, _, startState_init, hs⟩
  have hstart : s.ctrl.totalCnt = some 0 := by rw [hctrl]; rfl
  have hlen : (s.conns 0).pending.length = 100 := by rw [hpending, List.length_replicate]
  obtain ⟨t, ht, -⟩ := run_reads (m := 1) hctrl hfd (by omega) (by decide)
  exact ⟨s, hr, hstart, burst_in_buf_iff hr hstart inCall_replicate ht⟩

/-- `32800` bytes are pending when `DoReadLoop` is called, and each `read` returns `100` of them. -/
theorem burst_behind_buf : ∃ s t as, Steps.Reach Init step s ∧ s.ctrl.totalCnt = some 0 ∧
    (∀ a ∈ as, a.inCall = true) ∧ Steps.run step s as = some t ∧ ¬Steps.Meets step InBuf s as := by
  obtain ⟨s, hs, hctrl, hfd, hpending⟩ := burstRun_runs (List.replicate 32800 0)
  have hlen : (s.conns 0).pending.length = 32800 := by rw [hpending, List.length_replicate]
  have hr : Steps.Reach Init step s := ⟨startState, _, startState_init, hs⟩
  have hstart : s.ctrl.totalCnt = some 0 := by rw [hctrl]; rfl
  obtain ⟨u, hu, huctrl, hufd, hulen⟩ := run_reads (m := 327) hctrl hfd (by omega) (by decide)
  have hlast : step u (.read 100) = some { u with ctrl := .undefined } := by
    simp only [step, huctrl, hufd]
    rw [if_pos (by omega), if_neg (by decide)]
  have hrun : Steps.run step s (List.replicate 328 (.read 100)) = some { u with ctrl := .undefined } := by
    rw [List.replicate_succ', Steps.run_append]
    exact ⟨u, hu, Steps.run_cons.2 ⟨_, hlast, rfl⟩⟩
  refine ⟨s, _, _, hr, hstart, inCall_replicate, hrun, fun hm => ?_⟩
  have htotal := (meets_inBuf_iff (sound_reach hr) hstart (Nat.zero_le _) inCall_replicate hrun).1 hm
  rw [readTotal_replicate] at htotal
  exact absurd htotal (by decide)

end SystemFunc.Reactor
