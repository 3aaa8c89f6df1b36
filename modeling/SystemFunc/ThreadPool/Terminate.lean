import SystemFunc.Lib.Progress
import SystemFunc.ThreadPool.Shutdown
import SystemFunc.ThreadPool.Tasks

/-!
# The end of a shutdown

Once the flag is set and a pass of the control thread has woken everybody, nobody goes to sleep again (`Swept`): each
worker that runs a task finishes it and each worker leaves, each caller returns, and all of them can always do so. The
control thread returns when there are no workers left.

- `shutdown_terminates`: how many sections a run still has, that nobody is stuck in it, and that it can be completed;
- `destroyable`: what `thread_pool_destroy` finds behind the return of the control thread.
-/

namespace SystemFunc.ThreadPool

open CondVar Steps

variable {τ : Type} {R : BusyRate} {s s' : Pool τ}

/-! ## Awake -/

/-- The flag is set, and nobody waits. -/
structure Swept (s : Pool τ) : Prop where
  passed : Passed s
  shutdownFlag : s.tp.shutdownFlag = true
  workers : ∀ w ∈ s.workers, w.asleep = false
  callers : ∀ c ∈ s.callers, c.blocked = false

theorem swept_step {a : Act τ} (h : Swept s) (hstep : step R s a = some s') : Swept s' := by
  refine ⟨passed_step h.passed hstep, (drained_step h.passed.account h.shutdownFlag hstep).shutdownFlag, ?_,
    unblocked_step h.shutdownFlag h.callers hstep⟩
  have hwakes : ∀ {ws}, queueNotEmpty.Wakes s.workers ws → ∀ w ∈ ws, Worker.asleep w = false :=
    fun hw => hw.forall (fun _ _ _ => rfl) h.workers
  cases step_moves hstep with
  | tick _ _ hr =>
    obtain ⟨new, -, hw, hnew⟩ := (tick_ticked hr).workers
    obtain ⟨rfl, -, -⟩ := hnew h.shutdownFlag
    rw [List.append_nil] at hw
    exact hwakes hw
  | sleep _ _ _ hs =>
    rw [h.shutdownFlag] at hs
    cases hs
  | leave => exact forall_mem_set h.workers rfl
  | take => exact forall_mem_set h.workers rfl
  | done => exact forall_mem_set h.workers rfl
  | call task => cases task <;> exact h.workers
  | addPut _ _ _ hs =>
    rw [h.shutdownFlag] at hs
    cases hs
  | spuriousWorker hw => exact hwakes (signal_wakes hw)
  | _ => exact h.workers

/-- A pass under the flag that goes on wakes everybody. -/
theorem swept_of_tick {creates : List (Except Nat Nat)} (h : Passed s) (hs : s.tp.shutdownFlag = true)
    (hstep : step R s (.tick creates) = some s') (hret : s'.ctrl ≠ .returned) : Swept s' := by
  have hpassed := passed_step h hstep
  have hflag := (drained_step h.account hs hstep).shutdownFlag
  cases step_moves hstep with
  | ctrlReturn => exact absurd rfl hret
  | @tick gotSig _ s₁ _ hno hr =>
    refine ⟨hpassed, hflag, ?_, ?_⟩
    · obtain ⟨tidList, cur, wait, new, -, hshut, -⟩ := resize_frame hr
      have hne : s.tp.curThreadCnt ≠ 0 := fun h0 => hno ⟨hs, h0⟩
      rw [hshut hs, drain_of_shutdown hs]
      unfold wakeWorkers
      rw [if_pos hne]
      exact fun w hw => broadcast_blocked hw
    · have ht := tick_ticked hr
      rw [ht.callers, if_pos hs]
      exact fun c hc => broadcast_blocked hc

theorem passed_reach (h : Reach Init (step R) s) : Passed s := by
  refine h.inv (fun s hinit => ?_) fun _ _ _ => passed_step
  have hctrl := hinit.started.ctrl
  refine ⟨(account_init hinit).choose_spec.account, ?_, ?_, ?_⟩
  · rw [hctrl]; nofun
  · rw [hctrl]; nofun
  · rw [hinit.started.running]; nofun

/-! ## What is left to do -/

/-- The sections of the workers. -/
def Act.isWork : Act τ → Bool
  | .work .. | .done _ => true
  | _ => false

/-- The sections of the callers. -/
def Act.isAdd : Act τ → Bool
  | .add .. => true
  | _ => false

/-- The calls that take the lock. -/
def Act.isCall : Act τ → Bool
  | .call (some _) => true
  | _ => false

def Caller.pending (c : Caller τ) : Bool := match c.pc with | .returned _ => false | _ => true

/-- One section for each worker, and one for each task that runs. -/
def workLeft (s : Pool τ) : Nat := s.tp.curThreadCnt + s.tp.actThreadCnt

/-- One section for each call. -/
def addLeft (s : Pool τ) : Nat := s.callers.countP Caller.pending

theorem workLeft_step {a : Act τ} (ha : Account s.tp s.workers) (hs : s.tp.shutdownFlag = true)
    (hstep : step R s a = some s') : workLeft s' + a.isWork.toNat = workLeft s := by
  cases step_moves hstep with
  | tick _ _ hr =>
    have ht := tick_ticked hr
    obtain ⟨new, -, -, hnew⟩ := ht.workers
    obtain ⟨-, hcur, -⟩ := hnew hs
    show _ + _ + 0 = _
    rw [hcur, ht.actThreadCnt]
    rfl
  | sleep _ _ _ hs' =>
    rw [hs] at hs'
    cases hs'
  | @leave i pick w idx hw hl =>
    have hcur := ha.leave_cur idx.toNat hw hl
    show (leave s i w idx.toNat).tp.curThreadCnt + s.tp.actThreadCnt + 1 = s.tp.curThreadCnt + s.tp.actThreadCnt
    omega
  | take _ _ hx =>
    rw [(mustExit_eq_false.1 hx).1] at hs
    cases hs
  | @done i w task hw hr =>
    have hpos := ha.act_pos (List.mem_of_getElem? hw) (by simp [Worker.busy, hr])
    have hact : u32 ((s.tp.actThreadCnt : Int) - 1) = s.tp.actThreadCnt - 1 :=
      u32_pred hpos (Nat.lt_of_le_of_lt ha.act_le ha.cur_lt)
    show s.tp.curThreadCnt + u32 ((s.tp.actThreadCnt : Int) - 1) + 1 = s.tp.curThreadCnt + s.tp.actThreadCnt
    omega
  | call task => cases task <;> rfl
  | addPut _ _ _ hs' =>
    rw [hs] at hs'
    cases hs'
  | _ => rfl

theorem addLeft_step {a : Act τ} (hs : s.tp.shutdownFlag = true) (hstep : step R s a = some s') :
    addLeft s' + a.isAdd.toNat = addLeft s + a.isCall.toNat := by
  have hwakes : ∀ {callers}, queueNotFull.Wakes s.callers callers →
      callers.countP Caller.pending = s.callers.countP Caller.pending := by
    intro callers hw
    exact hw.countP_eq fun c hb => by simp [Caller.pending, queueNotFull, Caller.pc_of_blocked hb]
  cases step_moves hstep with
  | tick _ _ hr =>
    unfold addLeft
    rw [(tick_ticked hr).callers, if_pos hs, hwakes broadcast_wakes]
    rfl
  | take _ _ hx =>
    rw [(mustExit_eq_false.1 hx).1] at hs
    cases hs
  | call task =>
    cases task with
    | none => rfl
    | some task =>
      show (s.callers ++ [_]).countP _ + 0 = _ + 1
      rw [List.countP_append]
      rfl
  | addWait _ _ _ hs' =>
    rw [hs] at hs'
    cases hs'
  | @addShutdown i pick c hcl hl =>
    have hpending : c.pending = true := by
      obtain hpc | hpc := hl <;> simp [Caller.pending, hpc]
    have hcount := countP_set_add Caller.pending hcl { c with pc := .returned threadPoolSuccess }
    rw [hpending] at hcount
    exact hcount
  | addPut _ _ _ hs' =>
    rw [hs] at hs'
    cases hs'
  | spuriousCaller hsig =>
    show _ + 0 = _ + 0
    exact congrArg (· + 0) (hwakes (signal_wakes hsig))
  | _ => rfl

/-! ## Nobody is stuck -/

theorem step_of_act {a : Act τ} (h : act R s a = .ok s') : step R s a = some s' := by rw [step, h]; rfl

/-- A worker that looks at the flag leaves. -/
theorem work_leaves (ha : Account s.tp s.workers) (hs : s.tp.shutdownFlag = true) {i : Nat} {w : Worker τ}
    (hw : s.workers[i]? = some w) (hl : w.looking) (pick : Option Nat) :
    ∃ idx, step R s (.work i pick) = some (leave s i w idx) := by
  obtain ⟨idx, hf, -⟩ := ha.findTidIdx_ok (List.mem_of_getElem? hw) (Worker.live_of_looking hl)
  have hexit : mustExit s.tp = true := mustExit_eq_true.2 (.inl hs)
  have hstay : mustWait s.tp = false := by simp [mustWait, hs]
  have hleave : afterLoop s i w pick = .ok (leave s i w idx) := by
    have hok : (if (idx : Int) = -1 then .error (Stop.exit EINVAL "work_thread_handler(FindTidIdx)")
        else .ok (leave s i w (idx : Int).toNat)) = Except.ok (leave s i w idx) := if_neg (by omega)
    rw [afterLoop, if_pos hexit, hf]
    exact hok
  refine ⟨idx, step_of_act ?_⟩
  show workSection s i pick = _
  rw [workSection, hw]
  obtain hpc | hpc := hl
  · simp only [hpc, hstay, Bool.false_eq_true, if_false]
    exact hleave
  · simp only [hpc, hexit, if_true]
    exact hleave

/-- A worker can always go on. -/
theorem Swept.work (h : Swept s) {i : Nat} {w : Worker τ} (hw : s.workers[i]? = some w) (hl : w.live = true) :
    ∃ a, a.isWork = true ∧ (step R s a).isSome := by
  have hasleep := h.workers w (List.mem_of_getElem? hw)
  have hleaves : w.looking → ∃ a : Act τ, a.isWork = true ∧ (step R s a).isSome := by
    intro hlook
    obtain ⟨idx, hstep⟩ := work_leaves (R := R) h.passed.account h.shutdownFlag hw hlook none
    exact ⟨.work i none, rfl, by rw [hstep]; rfl⟩
  cases hpc : w.pc with
  | top => exact hleaves (.inl hpc)
  | woken => exact hleaves (.inr hpc)
  | wait => simp [Worker.asleep, hpc] at hasleep
  | run task => exact ⟨.done i, rfl, by simp [step, act, doneSection, hw, hpc, Except.toOption]⟩
  | gone => simp [Worker.live, hpc] at hl

/-- A caller can always return. -/
theorem Swept.add (h : Swept s) {i : Nat} {c : Caller τ} (hcl : s.callers[i]? = some c) (hp : c.pending = true) :
    step R s (.add i none) = some (setCaller s i c (.returned threadPoolSuccess)) := by
  have hblocked := h.callers c (List.mem_of_getElem? hcl)
  have hl : c.pc = .enter ∨ c.pc = .woken := by
    cases hpc : c.pc with
    | enter => exact .inl rfl
    | woken => exact .inr rfl
    | wait => simp [Caller.blocked, hpc] at hblocked
    | returned ret => simp [Caller.pending, hpc] at hp
  refine step_of_act ?_
  show addSection s i none = _
  simp [addSection, hcl, hl, h.shutdownFlag]

/-- The pass after the last worker has left returns, and no earlier one does. -/
theorem tick_returns_iff (hs : s.tp.shutdownFlag = true) {creates : List (Except Nat Nat)}
    (hstep : step R s (.tick creates) = some s') : s'.ctrl = .returned ↔ s.tp.curThreadCnt = 0 := by
  cases step_moves hstep with
  | ctrlReturn _ _ h0 => exact ⟨fun _ => h0, fun _ => rfl⟩
  | tick _ hno => exact ⟨nofun, fun h0 => absurd ⟨hs, h0⟩ hno⟩

/-! ## The end -/

/-- The control thread and the workers are gone, and every call has returned. -/
def Ended (s : Pool τ) : Prop :=
  s.ctrl = .returned ∧ (∀ w ∈ s.workers, w.live = false) ∧ ∀ c ∈ s.callers, c.pending = false

def CtrlPc.left : CtrlPc → Nat
  | .sleeping => 2
  | .checking _ => 1
  | .returned => 0

/-- The control thread goes on to its return when the workers are gone. -/
theorem ctrl_returns (hs : s.tp.shutdownFlag = true) (h0 : s.tp.curThreadCnt = 0) (hctrl : s.ctrl ≠ .returned) :
    ∃ a s', step R s a = some s' ∧ workLeft s' = workLeft s ∧ addLeft s' = addLeft s ∧
      s'.ctrl.left < s.ctrl.left := by
  cases hc : s.ctrl with
  | sleeping => exact ⟨.signal .again, { s with ctrl := .checking false }, by simp [step, act, signalSection, hc,
      Except.toOption], rfl, rfl, Nat.lt_succ_self 1⟩
  | checking gotSig => exact ⟨.tick [], { s with ctrl := .returned }, by simp [step, act, tickSection, hc, hs, h0,
      Except.toOption], rfl, rfl, Nat.zero_lt_one⟩
  | returned => exact absurd hc hctrl

theorem ctrl_of_section {a : Act τ} (ha : a.isWork = true ∨ a.isAdd = true) (hstep : step R s a = some s') :
    s'.ctrl = s.ctrl := by
  cases step_moves hstep with
  | again | quit | ctrlReturn | tick => simp [Act.isWork, Act.isAdd] at ha
  | call task => simp [Act.isWork, Act.isAdd] at ha
  | _ => rfl

/-- A pool that has not ended has a section that brings it closer to its end. -/
theorem Swept.next (h : Swept s) (hend : ¬Ended s) : ∃ a s', step R s a = some s' ∧
    workLeft s' + addLeft s' + s'.ctrl.left < workLeft s + addLeft s + s.ctrl.left := by
  by_cases hw : ∀ w ∈ s.workers, w.live = false
  · by_cases hc : ∀ c ∈ s.callers, c.pending = false
    · have h0 : s.tp.curThreadCnt = 0 := by
        rw [← h.passed.account.live, List.countP_eq_zero]
        exact fun w hmem hl => by rw [hw w hmem] at hl; cases hl
      obtain ⟨a, s', hstep, hwork, hadd, hlt⟩ := ctrl_returns (R := R) h.shutdownFlag h0 fun hctrl => hend ⟨hctrl, hw, hc⟩
      exact ⟨a, s', hstep, by omega⟩
    · obtain ⟨c, hmem, hp⟩ := not_forall₂.1 hc
      obtain ⟨i, hi⟩ := List.mem_iff_getElem?.1 hmem
      have hstep := h.add (R := R) hi (Bool.of_not_eq_false hp)
      have hwork := workLeft_step h.passed.account h.shutdownFlag hstep
      have hadd := addLeft_step h.shutdownFlag hstep
      have hctrl := ctrl_of_section (.inr rfl) hstep
      refine ⟨_, _, hstep, ?_⟩
      rw [hctrl]
      simp only [Act.isWork, Act.isAdd, Act.isCall, Bool.toNat_true, Bool.toNat_false] at hwork hadd
      omega
  · obtain ⟨w, hmem, hl⟩ := not_forall₂.1 hw
    obtain ⟨i, hi⟩ := List.mem_iff_getElem?.1 hmem
    obtain ⟨a, ha, hsome⟩ := h.work (R := R) hi (Bool.of_not_eq_false hl)
    obtain ⟨s', hstep⟩ := Option.isSome_iff_exists.1 hsome
    have hwork := workLeft_step h.passed.account h.shutdownFlag hstep
    have hadd := addLeft_step h.shutdownFlag hstep
    have hctrl := ctrl_of_section (.inl ha) hstep
    have hno : a.isAdd = false ∧ a.isCall = false := by
      cases a <;> first | exact ⟨rfl, rfl⟩ | cases ha
    refine ⟨a, s', hstep, ?_⟩
    rw [hctrl]
    rw [ha, Bool.toNat_true] at hwork
    rw [hno.1, hno.2, Bool.toNat_false] at hadd
    omega

/-- **A shutdown terminates.** From the first pass under the flag that goes on, a run has one section for each worker
and one for each task that runs, one for each call, and only passes of the control thread besides. In all its states each
worker and each caller that is left can go on; the control thread returns in the pass that finds no workers; and
the run can be continued to the end. -/
theorem shutdown_terminates (h : Reach Init (step R) s) (hs : s.tp.shutdownFlag = true)
    {creates : List (Except Nat Nat)} {s₁ t : Pool τ} (htick : step R s (.tick creates) = some s₁)
    (hret : s₁.ctrl ≠ .returned) {as : List (Act τ)} (hr : run (step R) s₁ as = some t) :
    workLeft t + as.countP Act.isWork = workLeft s ∧
      addLeft t + as.countP Act.isAdd = addLeft s + as.countP Act.isCall ∧
      (∀ (i : Nat) (w : Worker τ), t.workers[i]? = some w → w.live = true → ∃ a, a.isWork = true ∧ (step R t a).isSome) ∧
      (∀ (i : Nat) (c : Caller τ), t.callers[i]? = some c → c.pending = true → (step R t (.add i none)).isSome) ∧
      (∀ creates u, step R t (.tick creates) = some u → (u.ctrl = .returned ↔ t.tp.curThreadCnt = 0)) ∧
      ∃ bs u, run (step R) t bs = some u ∧ Ended u := by
  have hpassed := passed_reach h
  have hswept₁ := swept_of_tick hpassed hs htick hret
  have hkeep : ∀ (s : Pool τ) a t, Swept s → step R s a = some t → Swept t := fun _ _ _ => swept_step
  have hswept := run_inv hkeep hswept₁ hr
  have hwork := run_countP_eq (c := Act.isWork) (d := fun _ => false) (f := workLeft) hkeep
    (fun s a t hsw ht => workLeft_step hsw.passed.account hsw.shutdownFlag ht) hswept₁ hr
  have hadd := run_countP_eq (c := Act.isAdd) (d := Act.isCall) (f := addLeft) hkeep
    (fun s a t hsw ht => addLeft_step hsw.shutdownFlag ht) hswept₁ hr
  have hwork₁ := workLeft_step hpassed.account hs htick
  have hadd₁ := addLeft_step hs htick
  refine ⟨?_, ?_, fun i w hw hl => hswept.work hw hl, fun i c hc hp => ?_,
    fun creates u hu => tick_returns_iff hswept.shutdownFlag hu, ?_⟩
  · rw [hwork, ← hwork₁, List.countP_false]
    rfl
  · rw [hadd]
    exact congrArg (· + _) hadd₁
  · rw [hswept.add hc hp]
    rfl
  · exact exists_run_final (F := Ended) (f := fun s => workLeft s + addLeft s + s.ctrl.left) hkeep
      (fun s hsw hend => hsw.next hend) hswept

/-- The crowded pool: its worker runs a task, one call waits and two are about to look at the queue. -/
theorem shutdown_terminates_closing : ∃ bs u,
    run (step ieeeRate) ({ closing with
      tp := { closing.tp with waitExitThreadCnt := 1 }
      ctrl := .sleeping
      callers := queueNotFull.broadcast closing.callers } : Pool Nat) bs = some u ∧ Ended u :=
  have htick : step ieeeRate closing (.tick []) = some _ := rfl
  (shutdown_terminates (crowded_reach.run [.signal .quit] rfl) rfl htick nofun (Steps.run_nil _)).2.2.2.2.2

/-! ## `thread_pool_destroy` -/

/-- What is there when the control thread has returned stays as it is. -/
structure Frozen (s t : Pool τ) : Prop where
  ctrl : t.ctrl = .returned
  tp : t.tp = s.tp
  workers : t.workers = s.workers
  added : t.added = s.added
  taken : t.taken = s.taken

theorem Frozen.trans {t : Pool τ} (h : Frozen s s') (h' : Frozen s' t) : Frozen s t where
  ctrl := h'.ctrl
  tp := h'.tp.trans h.tp
  workers := h'.workers.trans h.workers
  added := h'.added.trans h.added
  taken := h'.taken.trans h.taken

/-- What comes behind the return: a call is made, one that looks at the flag returns, one is woken from nowhere. -/
inductive Behind (s : Pool τ) : Act τ → Pool τ → Prop where
  | call (task : Option τ) : Behind s (.call task) (call s task)
  | add {i pick c} (hcl : s.callers[i]? = some c) (hl : c.looking) :
      Behind s (.add i pick) (setCaller s i c (.returned threadPoolSuccess))
  | spurious {i callers} (hc : queueNotFull.signal s.callers (some i) = some callers) :
      Behind s (.spuriousCaller i) { s with callers := callers }

theorem Behind.frozen {a : Act τ} (h : Behind s a s') (hret : s.ctrl = .returned) : Frozen s s' := by
  cases h with
  | call task => cases task <;> exact ⟨hret, rfl, rfl, rfl, rfl⟩
  | add => exact ⟨hret, rfl, rfl, rfl, rfl⟩
  | spurious => exact ⟨hret, rfl, rfl, rfl, rfl⟩

/-- The control thread returns when there are no workers, and the flag is set. -/
theorem Passed.gone (h : Passed s) (hret : s.ctrl = .returned) : ∀ w ∈ s.workers, w.live = false :=
  fun _ hw => h.account.not_live (h.empty hret) hw

theorem Passed.behind (h : Passed s) (hret : s.ctrl = .returned) {a : Act τ} (hstep : step R s a = some s') :
    Behind s a s' := by
  have hflag := h.flag (.inr hret)
  have hgone : ∀ {i : Nat} {w : Worker τ}, s.workers[i]? = some w → w.live = true → False := fun hw hl =>
    Bool.false_ne_true ((h.gone hret _ (List.mem_of_getElem? hw)).symm.trans hl)
  have hrun : s.tp.shutdownFlag ≠ false := by
    rw [hflag]
    nofun
  cases step_moves hstep with
  | again hc => cases hret.symm.trans hc
  | quit hc => cases hret.symm.trans hc
  | ctrlReturn hc => cases hret.symm.trans hc
  | tick hc => cases hret.symm.trans hc
  | sleep hw hl => exact (hgone hw (Worker.live_of_looking hl)).elim
  | leave hw hl => exact (hgone hw (Worker.live_of_looking hl)).elim
  | take hw hl => exact (hgone hw (Worker.live_of_looking hl)).elim
  | done hw hr => exact (hgone hw (by rw [Worker.live, hr])).elim
  | call task => exact .call task
  | addWait _ _ _ hs => exact absurd hs hrun
  | addShutdown hcl hl => exact .add hcl hl
  | addPut _ _ _ hs => exact absurd hs hrun
  | @spuriousWorker i workers hw =>
    obtain ⟨w, hi, hb, -⟩ := signal_some.1 hw
    exact (hgone hi (by rw [Worker.live, Worker.pc_of_blocked hb])).elim
  | spuriousCaller hc => exact .spurious hc

/-- The sections, but for a return of `pthread_cond_wait` that no signal is behind. -/
def Act.enters : Act τ → Bool
  | .call _ | .spuriousWorker _ | .spuriousCaller _ => false
  | _ => true

/-- Nobody takes the lock, but for such a return. -/
def Quiet (R : BusyRate) (s : Pool τ) : Prop := ∀ a : Act τ, a.enters = true → act R s a = .error .disabled

theorem Caller.looking_or {c : Caller τ} (hp : c.pending = true) : c.looking ∨ c.blocked = true := by
  cases hpc : c.pc with
  | enter => exact .inl (.inl hpc)
  | woken => exact .inl (.inr hpc)
  | wait => exact .inr (by rw [Caller.blocked, hpc])
  | returned ret => simp [Caller.pending, hpc] at hp

/-- A call that looks at the flag returns. -/
theorem add_returns (hs : s.tp.shutdownFlag = true) {i : Nat} {c : Caller τ} (hcl : s.callers[i]? = some c)
    (hl : c.looking) (pick : Option Nat) :
    act R s (.add i pick) = .ok (setCaller s i c (.returned threadPoolSuccess)) := by
  have hor : c.pc = .enter ∨ c.pc = .woken := hl
  show addSection s i pick = _
  simp [addSection, hcl, hor, hs]

/-- No section stops the process. -/
theorem Passed.disabled (h : Passed s) (hret : s.ctrl = .returned) {a : Act τ} {e : Stop}
    (hact : act R s a = .error e) : e = .disabled := by
  have hgone : ∀ {i : Nat} {w : Worker τ}, s.workers[i]? = some w → w.pc = .gone := by
    intro i w hw
    have hl := h.gone hret w (List.mem_of_getElem? hw)
    cases hpc : w.pc <;> simp [Worker.live, hpc] at hl ⊢
  cases a with
  | signal sig => simpa [act, signalSection, hret] using hact.symm
  | tick creates => simpa [act, tickSection, hret] using hact.symm
  | work i pick =>
    cases hw : s.workers[i]? with
    | none => simpa [act, workSection, hw] using hact.symm
    | some w => simpa [act, workSection, hw, hgone hw] using hact.symm
  | done i =>
    cases hw : s.workers[i]? with
    | none => simpa [act, doneSection, hw] using hact.symm
    | some w => simpa [act, doneSection, hw, hgone hw] using hact.symm
  | call task => cases hact
  | add i pick =>
    cases hcl : s.callers[i]? with
    | none => simpa [act, addSection, hcl] using hact.symm
    | some c =>
      by_cases hl : c.looking
      · cases (add_returns (R := R) (h.flag (.inr hret)) hcl hl pick).symm.trans hact
      · have hnot : ¬(c.pc = .enter ∨ c.pc = .woken) := hl
        simpa [act, addSection, hcl, hnot] using hact.symm
  | spuriousWorker i =>
    cases hsig : queueNotEmpty.signal s.workers (some i) with
    | none => simpa [act, hsig, answered] using hact.symm
    | some workers => simp [act, hsig, answered] at hact
  | spuriousCaller i =>
    cases hsig : queueNotFull.signal s.callers (some i) with
    | none => simpa [act, hsig, answered] using hact.symm
    | some callers => simp [act, hsig, answered] at hact

theorem Passed.quiet_iff (h : Passed s) (hret : s.ctrl = .returned) :
    Quiet R s ↔ ∀ c ∈ s.callers, c.pending = true → c.blocked = true := by
  constructor
  · intro hquiet c hmem hp
    obtain ⟨i, hi⟩ := List.mem_iff_getElem?.1 hmem
    refine (Caller.looking_or hp).resolve_left fun hl => ?_
    cases (add_returns (R := R) (h.flag (.inr hret)) hi hl none).symm.trans (hquiet (.add i none) rfl)
  · intro hblocked a ha
    cases hact : act R s a with
    | ok t =>
      cases h.behind hret (step_of_act hact) with
      | call task => cases ha
      | spurious hc => cases ha
      | @add i pick c hcl hl =>
        have hp : c.pending = true := by
          rcases hl with hpc | hpc <;> rw [Caller.pending, hpc]
        have hb := hblocked c (List.mem_of_getElem? hcl) hp
        rcases hl with hpc | hpc <;> rw [Caller.blocked, hpc] at hb <;> cases hb
    | error e => rw [h.disabled hret hact]

/-- What `thread_pool_destroy` finds in `t`, when the control thread has returned in `s`. -/
structure Destroyable (R : BusyRate) (s t : Pool τ) : Prop where
  /-- The record is as it was, and so is what the workers have run. -/
  frozen : Frozen s t
  gone : ∀ w ∈ t.workers, w.live = false
  /-- No slot of the array that is freed holds the id of a thread. -/
  tidList : ∀ tid ∈ t.tp.tidList, tid = 0
  /-- What is freed with the queue has been put in and not been taken out. -/
  tasks : t.added.map some = t.taken.map some ++ t.tp.taskQueue.items
  /-- Who takes the lock after all. -/
  behind : ∀ a u, step R t a = some u → Behind t a u
  safe : ∀ (a : Act τ) e, act R t a = .error e → e = .disabled
  quiet : Quiet R t ↔ ∀ c ∈ t.callers, c.pending = true → c.blocked = true
  /-- Where nobody has been abandoned, the end is what to wait for. -/
  ended : NobodyLeft s → (Quiet R t ↔ Ended t)

/-- **What `thread_pool_destroy` may rely on.** In every run from the return of the control thread, no thread of the pool
is there, and nothing writes to the record again; the lock is taken by calls of `thread_pool_add_task` only, once by each
of them, which returns at once. Nobody takes it, but for wakeups from nowhere, exactly where the calls that are left are
all blocked; with nobody abandoned that is where all calls have returned. -/
theorem destroyable (h : Reach Init (step R) s) (hret : s.ctrl = .returned) {t : Pool τ} {as : List (Act τ)}
    (hr : run (step R) s as = some t) :
    Destroyable R s t ∧ addLeft t + as.countP Act.isAdd = addLeft s + as.countP Act.isCall := by
  have hpassed := passed_reach h
  have hkeep : ∀ (u : Pool τ) a v, Passed u ∧ Frozen s u → step R u a = some v → Passed v ∧ Frozen s v := by
    rintro u a v ⟨hu, hsu⟩ huv
    exact ⟨passed_step hu huv, hsu.trans ((hu.behind hsu.ctrl huv).frozen hsu.ctrl)⟩
  have hstart : Passed s ∧ Frozen s s := ⟨hpassed, hret, rfl, rfl, rfl, rfl⟩
  obtain ⟨ht, hfrozen⟩ := run_inv hkeep hstart hr
  have hquiet := ht.quiet_iff (R := R) hfrozen.ctrl
  refine ⟨⟨hfrozen, ht.gone hfrozen.ctrl, fun tid hmem => ?_, ?_, fun a u => ht.behind hfrozen.ctrl,
    fun a e => ht.disabled hfrozen.ctrl, hquiet, fun hnobody => ?_⟩, ?_⟩
  · have hused := ht.account.used.trans (ht.empty hfrozen.ctrl)
    simpa using List.countP_eq_zero.1 hused tid hmem
  · exact (tasks_reach (h.run as hr)).order
  · have hfree : ∀ c ∈ t.callers, c.blocked = false := by
      refine (run_inv (P := fun u : Pool τ => (Passed u ∧ Frozen s u) ∧ ∀ c ∈ u.callers, c.blocked = false) ?_
        ⟨hstart, (hnobody hret).2⟩ hr).2
      rintro u a v ⟨hu, hcallers⟩ huv
      exact ⟨hkeep u a v hu huv, unblocked_step (hu.1.flag (.inr hu.2.ctrl)) hcallers huv⟩
    rw [hquiet]
    constructor
    · intro hblocked
      refine ⟨hfrozen.ctrl, ht.gone hfrozen.ctrl, fun c hmem => Bool.eq_false_iff.2 fun hp => ?_⟩
      exact Bool.false_ne_true ((hfree c hmem).symm.trans (hblocked c hmem hp))
    · rintro ⟨-, -, hreturned⟩ c hmem hp
      exact absurd hp (Bool.eq_false_iff.1 (hreturned c hmem))
  · exact run_countP_eq (c := Act.isAdd) (d := Act.isCall) (f := addLeft) hkeep
      (fun u a v hu ht => addLeft_step (hu.1.flag (.inr hu.2.ctrl)) ht) hstart hr

/-- A pool that has run nothing, at the return of its control thread. -/
def retired : Pool Nat :=
  { smallPool 1 with
    tp := { (smallPool 1).tp with tidList := [0], curThreadCnt := 0, shutdownFlag := true }
    ctrl := .returned
    workers := [{ tid := 7, pc := .gone }] }

theorem retired_reach : Reach Init (step ieeeRate) retired :=
  ⟨smallPool 1, [.signal .quit, .work 0 none, .tick []], smallPool_one, rfl⟩

/-- A call comes too late. -/
theorem destroyable_retired : ∃ t : Pool Nat,
    run (step ieeeRate) retired [.call (some 100), .add 0 none] = some t ∧ Ended t ∧
      Destroyable ieeeRate retired t := by
  have hrun : run (step ieeeRate) retired [.call (some 100), .add 0 none] =
      some { retired with callers := [{ task := 100, pc := .returned threadPoolSuccess }] } := rfl
  exact ⟨_, hrun, ⟨rfl, by decide, by decide⟩, (destroyable retired_reach rfl hrun).1⟩

end SystemFunc.ThreadPool
