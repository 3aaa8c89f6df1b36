import SystemFunc.ThreadPool.Tasks

/-!
# Wakeups

The callers that wait for a free slot lose no wakeup (`free_le_notified`): `FreeLeNotified` counts the free slots
against the callers that have been notified and not run since, and every section keeps it.

The workers that wait for a task can lose one. A wakeup for a new task can go to a worker that leaves instead of taking
the task, and a worker goes to sleep without looking at `wait_exit_thread_cnt`. `strands` describes the step that does
it: a worker leaves while a task is queued and all other workers are asleep. **`no_stranded_iff`**: a run leaves no task
behind sleeping workers exactly when it has no such step. `stranded` is what a run with one leaves.
-/

namespace SystemFunc.ThreadPool

open CondVar Steps

variable {τ : Type} {R : BusyRate} {s s' : Pool τ}

/-! ## The callers -/

/-- While a caller is blocked, the free slots are promised to callers that have been notified. -/
def FreeLeNotified (s : Pool τ) : Prop :=
  s.tp.shutdownFlag = false → (∃ c ∈ s.callers, c.blocked = true) →
    s.tp.taskQueue.maxSize - s.tp.taskQueue.curSize ≤ s.callers.countP Caller.notified

/-- A caller that moves to where it is not blocked leaves the blocked ones. -/
theorem blocked_of_set {callers : List (Caller τ)} {i : Nat} {c : Caller τ} (hc : c.blocked = false)
    (h : ∃ c' ∈ callers.set i c, c'.blocked = true) : ∃ c' ∈ callers, c'.blocked = true := by
  obtain ⟨c', hc', hb⟩ := h
  rcases List.mem_or_eq_of_mem_set hc' with hc' | rfl
  · exact ⟨c', hc', hb⟩
  · rw [hc] at hb; cases hb

theorem free_step {a : Act τ} (ht : Tasks s) (h : FreeLeNotified s) (hstep : step R s a = some s') :
    FreeLeNotified s' := by
  cases step_moves hstep with
  | again => exact h
  | quit => exact fun hs => nomatch hs
  | ctrlReturn => exact h
  | tick _ _ hr =>
    have ht := tick_ticked hr
    intro hs hb
    rw [ht.shutdownFlag] at hs
    rw [ht.callers, hs] at hb ⊢
    rw [ht.taskQueue]
    exact h hs hb
  | sleep => exact h
  | leave => exact h
  | @take i pick w task callers _ _ _ hne _ hsig =>
    intro hs hb
    have hex := (signal_wakes hsig).blocked hb
    have hnote : callers.countP Caller.notified = s.callers.countP Caller.notified + 1 :=
      signal_notifies (fun _ => rfl) (fun c hc => by simp [Caller.notified, Caller.pc_of_blocked hc]) hex hsig
    obtain ⟨-, hitems⟩ := ht.good.drop hne
    have hlen : s.tp.taskQueue.curSize = s.tp.taskQueue.drop.curSize + 1 := by
      rw [← QueueT.items_length, ← QueueT.items_length, hitems, List.length_cons]
    have hfree := h hs hex
    show s.tp.taskQueue.maxSize - s.tp.taskQueue.drop.curSize ≤ callers.countP Caller.notified
    omega
  | done => exact h
  | call task =>
    cases task with
    | none => exact h
    | some task =>
      intro hs hb
      show _ ≤ (s.callers ++ _).countP _
      rw [List.countP_append]
      refine Nat.le_trans (h hs ?_) (Nat.le_add_right _ _)
      obtain ⟨c, hc, hcb⟩ := hb
      rcases List.mem_append.1 hc with hc | hc
      · exact ⟨c, hc, hcb⟩
      · rw [List.mem_singleton.1 hc] at hcb; cases hcb
  | @addWait i pick c _ _ hf =>
    intro _ _
    rw [QueueT.items_length] at hf
    show s.tp.taskQueue.maxSize - s.tp.taskQueue.curSize ≤ _
    omega
  | addShutdown _ _ hs =>
    intro hs'
    rw [show s.tp.shutdownFlag = false from hs'] at hs
    cases hs
  | @addPut i pick c workers hcl hl hf =>
    intro hs hb
    have hfree := h hs (blocked_of_set rfl hb)
    have hcount := countP_set_add Caller.notified hcl { c with pc := .returned threadPoolSuccess }
    have hone : (Caller.notified c).toNat ≤ 1 := Bool.toNat_le _
    obtain ⟨-, hitems⟩ := ht.good.put hf c.task
    have hlen : (s.tp.taskQueue.put c.task).curSize = s.tp.taskQueue.curSize + 1 := by
      rw [← QueueT.items_length, ← QueueT.items_length, hitems, List.length_append, List.length_singleton]
    show s.tp.taskQueue.maxSize - (s.tp.taskQueue.put c.task).curSize ≤ (s.callers.set i _).countP _
    simp only [Caller.notified, Bool.toNat_false] at hcount hone hfree ⊢
    omega
  | spuriousWorker => exact h
  | @spuriousCaller i callers hsig =>
    intro hs hb
    have hw := signal_wakes hsig
    exact Nat.le_trans (h hs (hw.blocked hb)) (hw.countP_le fun _ _ _ => rfl)

/-- **No wakeup of a caller is lost.** -/
theorem free_le_notified (h : Reach Init (step R) s) (hs : s.tp.shutdownFlag = false)
    (hb : ∃ c ∈ s.callers, c.blocked = true) :
    s.tp.taskQueue.maxSize - s.tp.taskQueue.curSize ≤ s.callers.countP Caller.notified := by
  have hinv : Tasks s ∧ FreeLeNotified s := by
    refine h.inv (P := fun s : Pool τ => Tasks s ∧ FreeLeNotified s) (fun s hi => ⟨tasks_init hi, fun _ hb => ?_⟩)
      fun s a t hp ht => ⟨tasks_step hp.1 ht, free_step hp.1 hp.2 ht⟩
    rw [hi.started.callers] at hb
    exact nomatch hb
  exact hinv.2 hs hb

theorem free_le_notified_crowded :
    crowded.tp.taskQueue.maxSize - crowded.tp.taskQueue.curSize ≤ crowded.callers.countP Caller.notified :=
  free_le_notified crowded_reach rfl ⟨{ task := 104, pc := .wait }, by decide, rfl⟩

/-! ## The workers -/

/-- A live worker that is not blocked without a wakeup. -/
def Worker.awake (w : Worker τ) : Bool := w.live && !w.asleep

/-- A queued task is not left while all workers sleep. -/
def NoStranded (s : Pool τ) : Prop :=
  s.tp.shutdownFlag = false → s.tp.taskQueue.curSize ≠ 0 → (∃ w ∈ s.workers, w.live = true) →
    ∃ w ∈ s.workers, w.awake = true

instance (s : Pool τ) : Decidable (NoStranded s) :=
  inferInstanceAs (Decidable (_ → _ → (∃ w ∈ s.workers, w.live = true) → ∃ w ∈ s.workers, w.awake = true))

/-- Worker `i` takes part in a shrink, with a task queued and its colleagues, of whom there are some, all asleep. -/
def strands (s : Pool τ) : Act τ → Bool
  | .work i _ =>
    let others := s.workers.eraseIdx i
    !s.tp.shutdownFlag && s.tp.waitExitThreadCnt ≠ 0 && s.tp.taskQueue.curSize ≠ 0 &&
      others.any Worker.live && !others.any Worker.awake
  | _ => false

theorem strands_work {i : Nat} {pick : Option Nat} : strands s (.work i pick) = true ↔
    s.tp.shutdownFlag = false ∧ s.tp.waitExitThreadCnt ≠ 0 ∧ s.tp.taskQueue.curSize ≠ 0 ∧
      (∃ w ∈ s.workers.eraseIdx i, w.live = true) ∧ ¬∃ w ∈ s.workers.eraseIdx i, w.awake = true := by
  simp only [strands, Bool.and_eq_true, Bool.not_eq_true', decide_eq_true_eq, List.any_eq_true, ← Bool.not_eq_true,
    and_assoc]

theorem Worker.live_of_awake {w : Worker τ} (h : w.awake = true) : w.live = true := (Bool.and_eq_true_iff.1 h).1

theorem Worker.awake_of_live {w : Worker τ} (h : w.live = true) (hb : queueNotEmpty.blocked w = false) :
    w.awake = true := Bool.and_eq_true_iff.2 ⟨h, by rw [show w.asleep = false from hb]; rfl⟩

theorem Worker.wake_awake (w : Worker τ) : (queueNotEmpty.wake w).awake = true := rfl

/-- Wakeups make workers awake, and only live ones. -/
theorem awake_of_wakes {ws us : List (Worker τ)} (hw : queueNotEmpty.Wakes ws us) :
    (∃ w ∈ ws, w.awake = true) → ∃ w ∈ us, w.awake = true := by
  simp only [← List.countP_pos_iff]
  exact fun h => Nat.lt_of_lt_of_le h (hw.countP_le fun w _ _ => w.wake_awake)

theorem live_of_wakes {ws us : List (Worker τ)} (hw : queueNotEmpty.Wakes ws us) :
    (∃ w ∈ us, w.live = true) → ∃ w ∈ ws, w.live = true := by
  simp only [← List.countP_pos_iff]
  rw [hw.countP_eq fun w hb => by simp [Worker.live, queueNotEmpty, Worker.pc_of_blocked hb]]
  exact id

/-- A worker that is awake where it goes makes the others irrelevant. -/
theorem awake_of_set {ws : List (Worker τ)} {i : Nat} {w u : Worker τ} (hw : ws[i]? = some w)
    (hu : u.awake = true) : ∃ v ∈ ws.set i u, v.awake = true :=
  ⟨u, List.mem_set (List.getElem?_eq_some_iff.1 hw).1 u, hu⟩

/-- After worker `i` has left, the live ones are the others. -/
theorem exists_set_gone {ws : List (Worker τ)} {i : Nat} {w : Worker τ} (hw : ws[i]? = some w)
    {p : Worker τ → Bool} (hp : ∀ v, p v = true → v.live = true) :
    (∃ v ∈ ws.set i { w with pc := .gone }, p v = true) ↔ ∃ v ∈ ws.eraseIdx i, p v = true := by
  constructor
  · rintro ⟨v, hv, hpv⟩
    obtain ⟨j, hj⟩ := List.mem_iff_getElem?.1 hv
    have hne : i ≠ j := by
      rintro rfl
      rw [List.getElem?_set_self (List.getElem?_eq_some_iff.1 hw).1] at hj
      rw [← Option.some.inj hj] at hpv
      exact nomatch hp _ hpv
    rw [List.getElem?_set_ne hne] at hj
    exact ⟨v, List.mem_eraseIdx_iff_getElem?.2 ⟨j, hne.symm, hj⟩, hpv⟩
  · rintro ⟨v, hv, hpv⟩
    obtain ⟨j, hne, hj⟩ := List.mem_eraseIdx_iff_getElem?.1 hv
    exact ⟨v, List.mem_of_getElem? ((List.getElem?_set_ne hne.symm).trans hj), hpv⟩

/-- Only the exit described by `strands` strands a task. -/
theorem noStranded_step {a : Act τ} (h : NoStranded s) (hc : strands s a = false) (hstep : step R s a = some s') :
    NoStranded s' := by
  cases step_moves hstep with
  | again => exact h
  | quit => exact fun hs => nomatch hs
  | ctrlReturn => exact h
  | tick _ _ hr =>
    have ht := tick_ticked hr
    obtain ⟨new, htop, hw, -⟩ := ht.workers
    intro hs hq hl
    rw [ht.shutdownFlag] at hs
    rw [ht.taskQueue] at hq
    apply awake_of_wakes hw
    obtain ⟨w, hmem, hwl⟩ := live_of_wakes hw hl
    rcases List.mem_append.1 hmem with hmem | hmem
    · obtain ⟨v, hv, ha⟩ := h hs hq ⟨w, hmem, hwl⟩
      exact ⟨v, List.mem_append_left _ hv, ha⟩
    · exact ⟨w, List.mem_append_right _ hmem, by simp [Worker.awake, Worker.live, Worker.asleep, htop w hmem]⟩
  | sleep _ _ he => exact fun _ hq => absurd (QueueT.items_eq_nil.1 he) hq
  | @leave i pick w idx hw _ hx =>
    intro hs hq hl
    have hs' : s.tp.shutdownFlag = false := hs
    have hwait := wait_ne_zero_of_exit hx hs'
    refine (exists_set_gone hw fun v => Worker.live_of_awake).2 ?_
    by_contra hno
    have hlive := (exists_set_gone hw fun v hv => hv).1 hl
    rw [strands_work.2 ⟨hs', hwait, hq, hlive, hno⟩] at hc
    cases hc
  | take hw => exact fun _ _ _ => awake_of_set hw rfl
  | done hw => exact fun _ _ _ => awake_of_set hw rfl
  | call task => cases task <;> exact h
  | addWait => exact h
  | addShutdown => exact h
  | addPut _ _ _ _ hsig =>
    intro _ _ hl
    obtain ⟨w, hmem, hwl⟩ := live_of_wakes (signal_wakes hsig) hl
    rcases signal_cases hsig with ⟨j, v, hv, -, rfl⟩ | ⟨hno, rfl⟩
    · exact awake_of_set hv v.wake_awake
    · exact ⟨w, hmem, Worker.awake_of_live hwl (hno w hmem)⟩
  | spuriousWorker hsig =>
    intro _ _ _
    obtain ⟨v, hv, -, rfl⟩ := signal_some.1 hsig
    exact awake_of_set hv v.wake_awake
  | spuriousCaller => exact h

/-- That exit always strands a task. -/
theorem strands_step {a : Act τ} (h : NoStranded s') (hstep : step R s a = some s') : strands s a = false := by
  apply Bool.eq_false_iff.2
  intro hc
  cases step_moves hstep with
  | sleep _ _ he =>
    obtain ⟨-, -, hq, -⟩ := strands_work.1 hc
    exact hq (QueueT.items_eq_nil.1 he)
  | @leave i pick w idx hw =>
    obtain ⟨hs, -, hq, hlive, hno⟩ := strands_work.1 hc
    have hawake := h hs hq ((exists_set_gone hw fun v hv => hv).2 hlive)
    exact hno ((exists_set_gone hw fun v => Worker.live_of_awake).1 hawake)
  | take _ _ hx =>
    obtain ⟨-, hwait, -⟩ := strands_work.1 hc
    exact hwait (mustExit_eq_false.1 hx).2
  | _ => cases hc

/-- **A run leaves no task behind sleeping workers exactly when none of its steps is an exit that does**, whatever the
busy rate is. -/
theorem no_stranded_iff (h : Init s) (as : List (Act τ)) :
    Along (step R) NoStranded s as ↔ Meets (step R) (fun s a => strands s a = false) s as := by
  refine along_iff_meets (I := fun _ => True) (fun _ _ _ _ _ => trivial)
    (fun _ _ _ _ hp hc ht => noStranded_step hp hc ht) (fun _ _ _ _ _ hp ht => strands_step hp ht) trivial ?_
  exact fun _ hq => absurd (QueueT.items_eq_nil.1 h.started.items) hq

/-- A shrink that strands nothing: worker `8` sleeps, is woken by the pass and leaves, and `7` takes the next task. -/
def shrinkRun : List (Act Nat) :=
  expandRun ++
    [.work 1 none, .done 0, .signal .again, .tick [], .work 1 none, .call (some 101), .add 1 none, .work 0 none]

theorem no_stranded_shrinkRun : Along (step ieeeRate) NoStranded (smallPool 2) shrinkRun :=
  (no_stranded_iff smallPool_two shrinkRun).2 (by decide)

/-- The pass asks for one exit while both workers are awake. Both go to sleep, a caller wakes `7` for its task, and `7`
leaves. -/
def strandRun : List (Act Nat) :=
  [.done 0, .signal .again, .tick [], .work 0 none, .work 1 none, .call (some 101), .add 1 (some 0), .work 0 none]

def stranded : Pool Nat where
  tp := {
    taskQueue := { head := 1, rear := 2, maxSize := 4, curSize := 1, plist := [some 100, some 101, none, none] }
    tidList := [0, 8]
    minThreadCnt := 1
    maxThreadCnt := 2
    curThreadCnt := 1
    actThreadCnt := 0
    waitExitThreadCnt := 0
    shutdownFlag := false }
  ctrl := .sleeping
  workers := [{ tid := 7, pc := .gone }, { tid := 8, pc := .wait }]
  callers := [{ task := 100, pc := .returned threadPoolSuccess }, { task := 101, pc := .returned threadPoolSuccess }]
  added := [100, 101]
  taken := [100]

theorem task_stranded : ¬∀ s : Pool Nat, Reach Init (step ieeeRate) s → NoStranded s := by
  intro h
  have hreach : Reach Init (step ieeeRate) stranded := expanded_reach.run strandRun rfl
  exact absurd (h stranded hreach) (by decide)

end SystemFunc.ThreadPool
