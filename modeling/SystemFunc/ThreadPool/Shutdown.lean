import SystemFunc.ThreadPool.Account

/-!
# Shutting down

**`shutdown_final`**: once the flag is set, runs only let workers leave (`Drained`), and once a pass has asked all the
workers to leave, the pending exits are the workers that are left (`closed_step`).

The control thread returns when there are no workers left. It looks for this before it wakes the callers that wait for
a free slot, so that the pass that gets the signal can return without having woken them; `abandons` is that case.
**`nobody_left_iff`**: a run leaves nobody behind a returned control thread exactly when no pass of it is such a pass.
`abandoned` is what a run with one leaves.
-/

namespace SystemFunc.ThreadPool

open CondVar Steps

variable {τ : Type} {R : BusyRate} {s s' : Pool τ}

/-! ## The flag is final -/

/-- Nothing but exits has happened since `s`. -/
structure Drained (s t : Pool τ) : Prop where
  shutdownFlag : t.tp.shutdownFlag = true
  taskQueue : t.tp.taskQueue = s.tp.taskQueue
  added : t.added = s.added
  taken : t.taken = s.taken
  workers : t.workers.length = s.workers.length
  cur_le : t.tp.curThreadCnt ≤ s.tp.curThreadCnt

theorem Drained.refl (h : s.tp.shutdownFlag = true) : Drained s s := ⟨h, rfl, rfl, rfl, rfl, Nat.le_refl _⟩

theorem Drained.trans {t : Pool τ} (h : Drained s s') (h' : Drained s' t) : Drained s t where
  shutdownFlag := h'.shutdownFlag
  taskQueue := h'.taskQueue.trans h.taskQueue
  added := h'.added.trans h.added
  taken := h'.taken.trans h.taken
  workers := h'.workers.trans h.workers
  cur_le := Nat.le_trans h'.cur_le h.cur_le

/-- A step under the flag. -/
theorem drained_step {a : Act τ} (ha : Account s.tp s.workers) (hs : s.tp.shutdownFlag = true)
    (hstep : step R s a = some s') : Drained s s' := by
  have hrun : s.tp.shutdownFlag ≠ false := by rw [hs]; nofun
  cases step_moves hstep with
  | again => exact ⟨hs, rfl, rfl, rfl, rfl, Nat.le_refl _⟩
  | quit => exact ⟨rfl, rfl, rfl, rfl, rfl, Nat.le_refl _⟩
  | ctrlReturn => exact ⟨hs, rfl, rfl, rfl, rfl, Nat.le_refl _⟩
  | tick _ _ hr =>
    have ht := tick_ticked hr
    obtain ⟨new, -, hw, hnew⟩ := ht.workers
    obtain ⟨rfl, hcur, -⟩ := hnew hs
    rw [List.append_nil] at hw
    exact ⟨ht.shutdownFlag.trans hs, ht.taskQueue, ht.added, ht.taken, hw.length_eq.symm, Nat.le_of_eq hcur⟩
  | sleep _ _ _ hs' => exact absurd hs' hrun
  | @leave i pick w idx hw hl =>
    have hcur := ha.leave_cur idx.toNat hw hl
    exact ⟨hs, rfl, rfl, rfl, List.length_set .., Nat.le_of_succ_le (Nat.le_of_eq hcur)⟩
  | take _ _ hx => exact absurd (mustExit_eq_false.1 hx).1 hrun
  | done => exact ⟨hs, rfl, rfl, rfl, List.length_set .., Nat.le_refl _⟩
  | call task => cases task <;> exact ⟨hs, rfl, rfl, rfl, rfl, Nat.le_refl _⟩
  | addWait _ _ _ hs' => exact absurd hs' hrun
  | addShutdown => exact ⟨hs, rfl, rfl, rfl, rfl, Nat.le_refl _⟩
  | addPut _ _ _ hs' => exact absurd hs' hrun
  | spuriousWorker hw => exact ⟨hs, rfl, rfl, rfl, (signal_wakes hw).length_eq.symm, Nat.le_refl _⟩
  | spuriousCaller => exact ⟨hs, rfl, rfl, rfl, rfl, Nat.le_refl _⟩

/-- The workers that are left are asked to leave, and no others. -/
structure Closed (s : Pool τ) : Prop where
  account : Account s.tp s.workers
  shutdownFlag : s.tp.shutdownFlag = true
  wait_eq : s.tp.waitExitThreadCnt = s.tp.curThreadCnt

theorem closed_step {a : Act τ} (h : Closed s) (hstep : step R s a = some s') : Closed s' := by
  have hd := drained_step h.account h.shutdownFlag hstep
  refine ⟨account_step h.account hstep, hd.shutdownFlag, ?_⟩
  cases step_moves hstep with
  | tick _ _ hr =>
    obtain ⟨new, -, -, hnew⟩ := (tick_ticked hr).workers
    obtain ⟨-, hcur, hwait⟩ := hnew h.shutdownFlag
    exact hwait.trans hcur.symm
  | @leave i pick w idx hw hl =>
    have hpos := h.account.cur_pos (List.mem_of_getElem? hw) (Worker.live_of_looking hl)
    have hne : s.tp.waitExitThreadCnt ≠ 0 := by rw [h.wait_eq]; exact Nat.ne_of_gt hpos
    apply Nat.add_right_cancel (m := 1)
    calc (leave s i w idx.toNat).tp.waitExitThreadCnt + 1
      _ = s.tp.waitExitThreadCnt := h.account.leave_wait i idx.toNat w hne
      _ = s.tp.curThreadCnt := h.wait_eq
      _ = (leave s i w idx.toNat).tp.curThreadCnt + 1 := (h.account.leave_cur idx.toNat hw hl).symm
  | call task => cases task <;> exact h.wait_eq
  | _ => exact h.wait_eq

/-- A pass under the flag either returns or asks all the workers to leave. -/
theorem closed_of_tick {creates : List (Except Nat Nat)} (ha : Account s.tp s.workers)
    (hs : s.tp.shutdownFlag = true) (hstep : step R s (.tick creates) = some s') (hret : s'.ctrl ≠ .returned) :
    Closed s' := by
  refine ⟨account_step ha hstep, (drained_step ha hs hstep).shutdownFlag, ?_⟩
  cases step_moves hstep with
  | ctrlReturn => exact absurd rfl hret
  | tick _ _ hr =>
    obtain ⟨new, -, -, hnew⟩ := (tick_ticked hr).workers
    obtain ⟨-, hcur, hwait⟩ := hnew hs
    exact hwait.trans hcur.symm

/-- **A shutdown is final**: from a state with the flag on, every run keeps the flag, the queue and the workers that
there are, and `cur_thread_cnt` only falls. After a pass that goes on, `wait_exit_thread_cnt` and `cur_thread_cnt` are
equal in every state. -/
theorem shutdown_final (h : Reach Init (step R) s) (hs : s.tp.shutdownFlag = true) :
    (∀ as t, run (step R) s as = some t → Drained s t) ∧
      ∀ creates s₁, step R s (.tick creates) = some s₁ → s₁.ctrl ≠ .returned →
        ∀ as t, run (step R) s₁ as = some t → t.tp.waitExitThreadCnt = t.tp.curThreadCnt := by
  have ha := account_reach h
  constructor
  · intro as t hr
    have hP : Account t.tp t.workers ∧ Drained s t := by
      refine run_inv (P := fun t : Pool τ => Account t.tp t.workers ∧ Drained s t) ?_ ⟨ha, .refl hs⟩ hr
      rintro u a v ⟨hau, hdu⟩ huv
      exact ⟨account_step hau huv, hdu.trans (drained_step hau hdu.shutdownFlag huv)⟩
    exact hP.2
  · intro creates s₁ htick hret as t hr
    exact (run_inv (fun _ _ _ => closed_step) (closed_of_tick ha hs htick hret) hr).wait_eq

/-- The crowded pool after `SIGQUIT`, when it has been asked to leave. -/
def closing : Pool Nat := { crowded with tp := { crowded.tp with shutdownFlag := true }, ctrl := .checking true }

theorem shutdown_final_closing :
    (∀ as t, run (step ieeeRate) closing as = some t → Drained closing t) ∧
      ∀ creates s₁, step ieeeRate closing (.tick creates) = some s₁ → s₁.ctrl ≠ .returned →
        ∀ as t, run (step ieeeRate) s₁ as = some t → t.tp.waitExitThreadCnt = t.tp.curThreadCnt :=
  shutdown_final (crowded_reach.run [.signal .quit] rfl) rfl

/-! ## The return of the control thread -/

/-- When the control thread has returned, no worker is alive and no caller is blocked without a wakeup. -/
def NobodyLeft (s : Pool τ) : Prop :=
  s.ctrl = .returned → (∀ w ∈ s.workers, w.live = false) ∧ ∀ c ∈ s.callers, c.blocked = false

instance (s : Pool τ) : Decidable (NobodyLeft s) :=
  inferInstanceAs (Decidable (_ → (∀ w ∈ s.workers, w.live = false) ∧ ∀ c ∈ s.callers, c.blocked = false))

/-- The pass that has got `SIGQUIT` finds no workers, while a caller is blocked. -/
def abandons (s : Pool τ) : Act τ → Bool
  | .tick _ => s.ctrl = .checking true && s.tp.curThreadCnt = 0 && s.callers.any Caller.blocked
  | _ => false

theorem abandons_tick {creates : List (Except Nat Nat)} : abandons s (.tick creates) = true ↔
    s.ctrl = .checking true ∧ s.tp.curThreadCnt = 0 ∧ ∃ c ∈ s.callers, c.blocked = true := by
  simp only [abandons, Bool.and_eq_true, decide_eq_true_eq, List.any_eq_true, and_assoc]

/-- What the passes of the control thread have done for the callers. -/
structure Passed (s : Pool τ) : Prop where
  account : Account s.tp s.workers
  flag : s.ctrl = .checking true ∨ s.ctrl = .returned → s.tp.shutdownFlag = true
  empty : s.ctrl = .returned → s.tp.curThreadCnt = 0
  /-- After the pass that got the signal, nobody waits for a free slot. -/
  woken : s.tp.shutdownFlag = true → s.ctrl ≠ .checking true → s.ctrl ≠ .returned →
    ∀ c ∈ s.callers, c.blocked = false

/-- Under the flag nobody starts to wait. -/
theorem unblocked_step {a : Act τ} (hs : s.tp.shutdownFlag = true) (h : ∀ c ∈ s.callers, c.blocked = false)
    (hstep : step R s a = some s') : ∀ c ∈ s'.callers, c.blocked = false := by
  have hwakes : ∀ {callers}, queueNotFull.Wakes s.callers callers → ∀ c ∈ callers, Caller.blocked c = false :=
    fun hw => hw.forall (fun _ _ _ => rfl) h
  have hset : ∀ {i c ret}, ∀ c' ∈ (setCaller s i c (.returned ret)).callers, c'.blocked = false :=
    forall_mem_set h rfl
  cases step_moves hstep with
  | tick _ _ hr =>
    rw [(tick_ticked hr).callers, if_pos hs]
    exact hwakes broadcast_wakes
  | take _ _ _ _ _ hsig => exact hwakes (signal_wakes hsig)
  | call task => exact forall_call h (fun _ => rfl) task
  | addWait _ _ _ hs' => rw [hs] at hs'; cases hs'
  | addShutdown => exact hset
  | addPut => exact hset
  | spuriousCaller hsig => exact hwakes (signal_wakes hsig)
  | _ => exact h

/-- The sections of the other threads. -/
theorem Passed.keep {a : Act τ} (h : Passed s) (hctrl : s'.ctrl = s.ctrl)
    (hflag : s'.tp.shutdownFlag = s.tp.shutdownFlag) (hstep : step R s a = some s') : Passed s' where
  account := account_step h.account hstep
  flag := by rw [hctrl, hflag]; exact h.flag
  empty := by
    intro hret
    rw [hctrl] at hret
    have hle := (drained_step h.account (h.flag (.inr hret)) hstep).cur_le
    rw [h.empty hret] at hle
    exact Nat.le_zero.1 hle
  woken := by
    rw [hctrl, hflag]
    exact fun hs hq hr => unblocked_step hs (h.woken hs hq hr) hstep

theorem passed_step {a : Act τ} (h : Passed s) (hstep : step R s a = some s') : Passed s' := by
  have ha := account_step h.account hstep
  cases step_moves hstep with
  | again hc => exact ⟨ha, nofun, nofun, fun hs _ _ => h.woken hs (by rw [hc]; nofun) (by rw [hc]; nofun)⟩
  | quit => exact ⟨ha, fun _ => rfl, nofun, fun _ hq _ => absurd rfl hq⟩
  | ctrlReturn _ hs h0 => exact ⟨ha, fun _ => hs, fun _ => h0, fun _ _ hr => absurd rfl hr⟩
  | tick _ _ hr =>
    have ht := tick_ticked hr
    refine ⟨ha, nofun, nofun, fun hs _ _ => ?_⟩
    rw [ht.shutdownFlag] at hs
    rw [ht.callers, if_pos hs]
    exact fun c hc => broadcast_blocked hc
  | call task => cases task <;> exact h.keep rfl rfl hstep
  | _ => exact h.keep rfl rfl hstep

/-- Only the pass described by `abandons` leaves somebody behind. -/
theorem nobodyLeft_step {a : Act τ} (h : Passed s) (hn : NobodyLeft s) (hc : abandons s a = false)
    (hstep : step R s a = some s') : NobodyLeft s' := by
  have h' := passed_step h hstep
  intro hret
  refine ⟨fun w hw => h'.account.not_live (h'.empty hret) hw, ?_⟩
  by_cases hwas : s.ctrl = .returned
  · exact unblocked_step (h.flag (.inr hwas)) (hn hwas).2 hstep
  · cases step_moves hstep with
    | @ctrlReturn gotSig creates hctrl hs h0 =>
      cases gotSig with
      | false => exact h.woken hs (by rw [hctrl]; nofun) hwas
      | true =>
        intro c hmem
        apply Bool.eq_false_iff.2
        intro hb
        rw [abandons_tick.2 ⟨hctrl, h0, c, hmem, hb⟩] at hc
        cases hc
    | call task => cases task <;> exact absurd hret hwas
    | again => cases hret
    | quit => cases hret
    | tick => cases hret
    | _ => exact absurd hret hwas

/-- Such a pass always does. -/
theorem abandons_step {a : Act τ} (h : Passed s) (hn : NobodyLeft s') (hstep : step R s a = some s') :
    abandons s a = false := by
  apply Bool.eq_false_iff.2
  intro hc
  cases step_moves hstep with
  | ctrlReturn =>
    obtain ⟨-, -, c, hmem, hb⟩ := abandons_tick.1 hc
    rw [(hn rfl).2 c hmem] at hb
    cases hb
  | tick hctrl hno =>
    obtain ⟨hq, h0, -⟩ := abandons_tick.1 hc
    exact hno ⟨h.flag (.inl hq), h0⟩
  | _ => cases hc

/-- **A run leaves nobody behind a returned control thread exactly when no pass of it finds no workers right after
`SIGQUIT` while a caller is blocked**, whatever the busy rate is. -/
theorem nobody_left_iff (h : Init s) (as : List (Act τ)) :
    Along (step R) NobodyLeft s as ↔ Meets (step R) (fun s a => abandons s a = false) s as := by
  have hctrl := h.started.ctrl
  have hpassed : Passed s := by
    refine ⟨(account_init h).choose_spec.account, ?_, ?_, ?_⟩
    · rw [hctrl]; nofun
    · rw [hctrl]; nofun
    · rw [h.started.running]; nofun
  refine along_iff_meets (I := Passed) (fun _ _ _ => passed_step)
    (fun _ _ _ hi hp hc ht => nobodyLeft_step hi hp hc ht) (fun _ _ _ hi _ hp' ht => abandons_step hi hp' ht) hpassed ?_
  intro hret
  rw [hctrl] at hret
  cases hret

/-- Two passes after `SIGQUIT`: the first one wakes the callers, the second one returns. -/
def quitRun : List (Act Nat) :=
  crowdRun ++ [.signal .quit, .tick [], .done 0, .work 0 none, .signal .again, .tick [], .add 3 none, .add 4 none]

theorem nobody_left_quitRun : Along (step ieeeRate) NobodyLeft (smallPool 1) quitRun :=
  (nobody_left_iff smallPool_one quitRun).2 (by decide)

/-- The worker leaves between the two sections of the pass that gets `SIGQUIT`. -/
def abandonRun : List (Act Nat) := [.signal .quit, .done 0, .work 0 none, .tick []]

def abandoned : Pool Nat where
  tp := {
    taskQueue := { head := 0, rear := 1, maxSize := 2, curSize := 1, plist := [some 102, some 101] }
    tidList := [0]
    minThreadCnt := 1
    maxThreadCnt := 1
    curThreadCnt := 0
    actThreadCnt := 0
    waitExitThreadCnt := 0
    shutdownFlag := true }
  ctrl := .returned
  workers := [{ tid := 7, pc := .gone }]
  callers := [{ task := 100, pc := .returned threadPoolSuccess }, { task := 101, pc := .returned threadPoolSuccess },
    { task := 102, pc := .returned threadPoolSuccess }, { task := 103, pc := .woken }, { task := 104, pc := .wait }]
  added := [100, 101, 102]
  taken := [100, 101]

theorem caller_abandoned : ¬∀ s : Pool Nat, Reach Init (step ieeeRate) s → NobodyLeft s := by
  intro h
  have hreach : Reach Init (step ieeeRate) abandoned := crowded_reach.run abandonRun rfl
  exact absurd (h abandoned hreach) (by decide)

end SystemFunc.ThreadPool
