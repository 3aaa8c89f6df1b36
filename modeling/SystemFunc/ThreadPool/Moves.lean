import SystemFunc.Queue.Refine
import SystemFunc.ThreadPool.System

/-!
# What a step of the pool can do

`Moves R s a s'` lists the outcomes of the sections, each with the branch conditions that lead to it, and `step_moves`
says that these are all. The loops of the control thread are taken apart by `resize_cases` and `expandLoop_inv`. The
proofs about runs use these and no section's code.
-/

namespace SystemFunc.ThreadPool

variable {τ : Type} {R : BusyRate} {s s' : Pool τ}

/-! ## The conditions -/

theorem mustWait_eq_true {tp : ThreadPoolT τ} :
    mustWait tp = true ↔ tp.taskQueue.items = [] ∧ tp.shutdownFlag = false := by
  simp only [mustWait, Bool.and_eq_true, decide_eq_true_eq, queueIsEmpty_ne_zero, Bool.not_eq_true']

theorem mustExit_eq_false {tp : ThreadPoolT τ} :
    mustExit tp = false ↔ tp.shutdownFlag = false ∧ tp.waitExitThreadCnt = 0 := by
  simp [mustExit]

theorem mustExit_eq_true {tp : ThreadPoolT τ} :
    mustExit tp = true ↔ tp.shutdownFlag = true ∨ tp.waitExitThreadCnt ≠ 0 := by
  simp [mustExit]

/-- A worker that leaves a pool that is not shutting down takes part in a shrink. -/
theorem wait_ne_zero_of_exit {tp : ThreadPoolT τ} (hx : mustExit tp = true) (hs : tp.shutdownFlag = false) :
    tp.waitExitThreadCnt ≠ 0 := by
  apply (mustExit_eq_true.1 hx).resolve_left
  intro hs'
  rw [hs] at hs'
  cases hs'

/-- Past the loop without a reason to leave, the queue is not empty. -/
theorem items_ne_nil_of_stay {tp : ThreadPoolT τ} (hx : mustExit tp = false) (hw : mustWait tp = false) :
    tp.taskQueue.items ≠ [] := by
  intro he
  rw [mustWait_eq_true.2 ⟨he, (mustExit_eq_false.1 hx).1⟩] at hw
  cases hw

/-- A new call is about to take the lock. -/
theorem forall_call {P : Caller τ → Prop} (h : ∀ c ∈ s.callers, P c) (hnew : ∀ task, P { task := task, pc := .enter })
    (task : Option τ) : ∀ c ∈ (call s task).callers, P c := by
  cases task with
  | none => exact h
  | some task => exact List.forall_mem_append.2 ⟨h, List.forall_mem_singleton.2 (hnew task)⟩

/-! ## The steps -/

/-- A worker that is about to look at the queue. -/
def Worker.looking (w : Worker τ) : Prop := w.pc = .top ∨ w.pc = .woken

/-- A caller that is about to look at the queue. -/
def Caller.looking (c : Caller τ) : Prop := c.pc = .enter ∨ c.pc = .woken

theorem Worker.pc_of_blocked {w : Worker τ} (h : queueNotEmpty.blocked w = true) : w.pc = .wait := by
  obtain ⟨tid, pc⟩ := w
  cases pc with
  | wait => rfl
  | _ => cases h

theorem Caller.pc_of_blocked {c : Caller τ} (h : queueNotFull.blocked c = true) : c.pc = .wait := by
  obtain ⟨task, pc⟩ := c
  cases pc with
  | wait => rfl
  | _ => cases h

/-- The outcomes of the sections. -/
inductive Moves (R : BusyRate) (s : Pool τ) : Act τ → Pool τ → Prop where
  | again (hc : s.ctrl = .sleeping) : Moves R s (.signal .again) { s with ctrl := .checking false }
  | quit (hc : s.ctrl = .sleeping) :
      Moves R s (.signal .quit) { s with tp := { s.tp with shutdownFlag := true }, ctrl := .checking true }
  | ctrlReturn {gotSig creates} (hc : s.ctrl = .checking gotSig) (hs : s.tp.shutdownFlag = true)
      (h0 : s.tp.curThreadCnt = 0) : Moves R s (.tick creates) { s with ctrl := .returned }
  | tick {gotSig creates s₁} (hc : s.ctrl = .checking gotSig)
      (hn : ¬(s.tp.shutdownFlag = true ∧ s.tp.curThreadCnt = 0)) (hr : resize R creates s = .ok s₁) :
      Moves R s (.tick creates) { wakeWorkers (drain s₁) with ctrl := .sleeping }
  | sleep {i pick w} (hw : s.workers[i]? = some w) (hl : w.looking) (he : s.tp.taskQueue.items = [])
      (hs : s.tp.shutdownFlag = false) : Moves R s (.work i pick) (sleep s i w)
  | leave {i pick w idx} (hw : s.workers[i]? = some w) (hl : w.looking) (hx : mustExit s.tp = true)
      (ht : w.pc = .top → mustWait s.tp = false) (hf : findTidIdx (some s.tp) w.tid = .ok idx) (hi : idx ≠ -1) :
      Moves R s (.work i pick) (leave s i w idx.toNat)
  | take {i pick w task callers} (hw : s.workers[i]? = some w) (hl : w.looking) (hx : mustExit s.tp = false)
      (hne : s.tp.taskQueue.items ≠ []) (ht : s.tp.taskQueue.plist.getD s.tp.taskQueue.head none = some task)
      (hs : queueNotFull.signal s.callers pick = some callers) :
      Moves R s (.work i pick) (take s i w s.tp.taskQueue.drop task callers)
  | done {i w task} (hw : s.workers[i]? = some w) (hr : w.pc = .run task) :
      Moves R s (.done i) { s with
        tp := { s.tp with actThreadCnt := u32 (s.tp.actThreadCnt - 1) }
        workers := s.workers.set i { w with pc := .top } }
  | call (task : Option τ) : Moves R s (.call task) (call s task)
  | addWait {i pick c} (hcl : s.callers[i]? = some c) (hl : c.looking)
      (hf : s.tp.taskQueue.maxSize ≤ s.tp.taskQueue.items.length) (hs : s.tp.shutdownFlag = false) :
      Moves R s (.add i pick) (setCaller s i c .wait)
  | addShutdown {i pick c} (hcl : s.callers[i]? = some c) (hl : c.looking) (hs : s.tp.shutdownFlag = true) :
      Moves R s (.add i pick) (setCaller s i c (.returned threadPoolSuccess))
  | addPut {i pick c workers} (hcl : s.callers[i]? = some c) (hl : c.looking)
      (hf : s.tp.taskQueue.items.length < s.tp.taskQueue.maxSize) (hs : s.tp.shutdownFlag = false)
      (hw : queueNotEmpty.signal s.workers pick = some workers) :
      Moves R s (.add i pick) { setCaller s i c (.returned threadPoolSuccess) with
        tp := { s.tp with taskQueue := s.tp.taskQueue.put c.task }
        workers := workers
        added := s.added ++ [c.task] }
  | spuriousWorker {i workers} (hw : queueNotEmpty.signal s.workers (some i) = some workers) :
      Moves R s (.spuriousWorker i) { s with workers := workers }
  | spuriousCaller {i callers} (hc : queueNotFull.signal s.callers (some i) = some callers) :
      Moves R s (.spuriousCaller i) { s with callers := callers }

theorem signalSection_moves {sig : SigAnswer} (h : signalSection s sig = .ok s') : Moves R s (.signal sig) s' := by
  unfold signalSection at h
  split at h
  · rename_i hc
    cases sig with
    | quit => cases h; exact .quit hc
    | again => cases h; exact .again hc
    | fail errno => cases h
  · cases h

theorem tickSection_moves {creates : List (Except Nat Nat)} (h : tickSection R creates s = .ok s') :
    Moves R s (.tick creates) s' := by
  unfold tickSection at h
  split at h
  · rename_i gotSig hc
    split at h
    · rename_i hs
      simp only [Bool.and_eq_true, decide_eq_true_eq, Nat.le_zero] at hs
      cases h
      exact .ctrlReturn hc hs.1 hs.2
    · rename_i hs
      simp only [Bool.and_eq_true, decide_eq_true_eq, Nat.le_zero] at hs
      obtain ⟨s₁, hr, he⟩ := bind_eq_ok.1 h
      cases he
      exact .tick hc hs hr
  · cases h

/-- Past the loop, the worker leaves or takes the task at the head. -/
theorem afterLoop_moves {i : Nat} {pick : Option Nat} {w : Worker τ} (hw : s.workers[i]? = some w) (hl : w.looking)
    (hp : mustWait s.tp = false ∨ w.pc = .woken ∧ mustExit s.tp = true) (h : afterLoop s i w pick = .ok s') :
    Moves R s (.work i pick) s' := by
  unfold afterLoop at h
  split at h
  · rename_i hx
    obtain ⟨idx, hf, he⟩ := bind_eq_ok.1 h
    split at he
    · cases he
    · rename_i hi
      cases he
      refine .leave hw hl hx (fun ht => hp.resolve_right ?_) hf hi
      rintro ⟨hwk, -⟩
      rw [ht] at hwk; cases hwk
  · rename_i hx
    have hx' : mustExit s.tp = false := Bool.eq_false_iff.2 hx
    have hne := items_ne_nil_of_stay hx' (hp.resolve_right fun hc => hx hc.2)
    rw [dequeue_nonempty hne] at h
    simp only [queueSuccess, one_ne_zero, ↓reduceIte] at h
    split at h
    · rename_i que task hq ht
      obtain ⟨callers, hc, he⟩ := bind_eq_ok.1 h
      rw [answered_eq_ok] at hc
      cases he
      cases hq
      exact .take hw hl hx' hne (Option.some.inj ht) hc
    · cases h

theorem workSection_moves {i : Nat} {pick : Option Nat} (h : workSection s i pick = .ok s') :
    Moves R s (.work i pick) s' := by
  unfold workSection at h
  split at h
  · cases h
  · rename_i w hw
    split at h
    · rename_i hpc
      split at h
      · rename_i hm
        obtain ⟨he, hs⟩ := mustWait_eq_true.1 hm
        cases h
        exact .sleep hw (.inl hpc) he hs
      · rename_i hm
        exact afterLoop_moves hw (.inl hpc) (.inl (Bool.eq_false_iff.2 hm)) h
    · rename_i hpc
      split at h
      · rename_i hx
        exact afterLoop_moves hw (.inr hpc) (.inr ⟨hpc, hx⟩) h
      · split at h
        · rename_i hm
          obtain ⟨he, hs⟩ := mustWait_eq_true.1 hm
          cases h
          exact .sleep hw (.inr hpc) he hs
        · rename_i hm
          exact afterLoop_moves hw (.inr hpc) (.inl (Bool.eq_false_iff.2 hm)) h
    · cases h

theorem doneSection_moves {i : Nat} (h : doneSection s i = .ok s') : Moves R s (.done i) s' := by
  unfold doneSection at h
  split at h
  · cases h
  · rename_i w hw
    split at h
    · rename_i task hr
      cases h
      exact .done hw hr
    · cases h

theorem addSection_moves {i : Nat} {pick : Option Nat} (h : addSection s i pick = .ok s') :
    Moves R s (.add i pick) s' := by
  unfold addSection at h
  split at h
  · cases h
  · rename_i c hcl
    split at h
    · rename_i hl
      split at h
      · rename_i hf
        simp only [Bool.and_eq_true, decide_eq_true_eq, Bool.not_eq_true', queueIsNotFull_eq_zero] at hf
        cases h
        exact .addWait hcl hl hf.1 hf.2
      · rename_i hf
        split at h
        · rename_i hs
          cases h
          exact .addShutdown hcl hl hs
        · rename_i hs
          have hs' : s.tp.shutdownFlag = false := Bool.eq_false_iff.2 hs
          have hlt : s.tp.taskQueue.items.length < s.tp.taskQueue.maxSize := by
            simp only [Bool.and_eq_true, decide_eq_true_eq, Bool.not_eq_true', queueIsNotFull_eq_zero, not_and] at hf
            exact Nat.lt_of_not_le fun hle => hf hle hs'
          rw [enqueue_not_full hlt] at h
          simp only [queueSuccess, one_ne_zero, ↓reduceIte] at h
          obtain ⟨workers, hw, he⟩ := bind_eq_ok.1 h
          rw [answered_eq_ok] at hw
          cases he
          exact .addPut hcl hl hlt hs' hw
    · cases h

/-- **The steps of the pool.** -/
theorem step_moves {a : Act τ} (h : step R s a = some s') : Moves R s a s' := by
  have hact : act R s a = .ok s' := by
    unfold step at h
    cases hc : act R s a with
    | error e => rw [hc] at h; cases h
    | ok u => rw [hc] at h; cases h; rfl
  cases a with
  | signal sig => exact signalSection_moves hact
  | tick creates => exact tickSection_moves hact
  | work i pick => exact workSection_moves hact
  | done i => exact doneSection_moves hact
  | call task => cases hact; exact .call task
  | add i pick => exact addSection_moves hact
  | spuriousWorker i =>
    obtain ⟨workers, hw, he⟩ := bind_eq_ok.1 hact
    cases he
    exact .spuriousWorker (answered_eq_ok.1 hw)
  | spuriousCaller i =>
    obtain ⟨callers, hc, he⟩ := bind_eq_ok.1 hact
    cases he
    exact .spuriousCaller (answered_eq_ok.1 hc)

/-! ## Resizing -/

theorem resize_cases {creates : List (Except Nat Nat)} {s₁ : Pool τ} (h : resize R creates s = .ok s₁) :
    s₁ = s ∧ (s.tp.shutdownFlag = true ∨ isNeedShrink R (some s.tp) = 0 ∨ shrinkStrategy s.tp ≤ 0) ∨
      s.tp.shutdownFlag = false ∧
        (isNeedExpand R (some s.tp) ≠ 0 ∧ expandLoop (expandStrategy s.tp).toNat creates s = .ok s₁ ∨
          isNeedExpand R (some s.tp) = 0 ∧ isNeedShrink R (some s.tp) ≠ 0 ∧ 0 < shrinkStrategy s.tp ∧
            s₁ = { s with tp := { s.tp with
              waitExitThreadCnt := u32 (s.tp.waitExitThreadCnt + shrinkStrategy s.tp) } }) := by
  unfold resize at h
  split at h
  · rename_i hs
    have hs' : s.tp.shutdownFlag = false := by simpa using hs
    split at h
    · rename_i he; exact .inr ⟨hs', .inl ⟨he, h⟩⟩
    · rename_i he
      split at h
      · rename_i hn
        dsimp only at h
        split at h
        · rename_i hpos; cases h; exact .inr ⟨hs', .inr ⟨not_not.1 he, hn, hpos, rfl⟩⟩
        · rename_i hpos; cases h; exact .inl ⟨rfl, .inr (.inr (Int.not_lt.1 hpos))⟩
      · rename_i hn; cases h; exact .inl ⟨rfl, .inr (.inl (not_not.1 hn))⟩
  · rename_i hs; cases h; exact .inl ⟨rfl, .inl (by simpa using hs)⟩

/-- What creating one worker in an unused slot keeps, the loop keeps. -/
theorem expandLoop_inv {P : Pool τ → Nat → Prop}
    (hspawn : ∀ s n idx tid, P s (n + 1) → getUnusedTidIdx (some s.tp) = .ok idx → idx ≠ -1 →
      fresh s.workers tid = true → P (spawn s idx.toNat tid) n)
    (hskip : ∀ s n, P s (n + 1) → getUnusedTidIdx (some s.tp) = .ok (-1) → P s n) :
    ∀ {n creates} {s s' : Pool τ}, P s n → expandLoop n creates s = .ok s' → P s' 0
  | 0, _, _, _, hP, h => by cases h; exact hP
  | n + 1, creates, s, s', hP, h => by
    obtain ⟨idx, hidx, h⟩ := bind_eq_ok.1 h
    split at h
    · rename_i he
      subst he
      exact expandLoop_inv hspawn hskip (hskip s n hP hidx) h
    · rename_i hne
      cases creates with
      | nil => cases h
      | cons answer creates =>
        cases answer with
        | error ret => cases h
        | ok tid =>
          dsimp only at h
          split at h
          · rename_i hf
            exact expandLoop_inv hspawn hskip (hspawn s n idx tid hP hidx hne hf) h
          · cases h

/-- The loop only adds workers, and with them slots and counts. -/
theorem expandLoop_frame {n : Nat} {creates : List (Except Nat Nat)} (h : expandLoop n creates s = .ok s') :
    ∃ tidList cur new, (∀ w ∈ new, Worker.pc w = .top) ∧
      s' = { s with
        tp := { s.tp with tidList := tidList, curThreadCnt := cur }
        workers := s.workers ++ new } := by
  refine expandLoop_inv (P := fun s' _ => ∃ tidList cur new, (∀ w ∈ new, Worker.pc w = .top) ∧
    s' = { s with tp := { s.tp with tidList := tidList, curThreadCnt := cur }, workers := s.workers ++ new })
    ?_ (fun _ _ hP _ => hP) ⟨s.tp.tidList, s.tp.curThreadCnt, [], by simp, by simp⟩ h
  rintro _ _ idx tid ⟨tidList, cur, new, htop, rfl⟩ - - -
  refine ⟨tidList.set idx.toNat tid, u32 (cur + 1), new ++ [⟨tid, .top⟩], ?_, by simp [spawn]⟩
  intro w hw
  rcases List.mem_append.1 hw with hw | hw
  · exact htop w hw
  · rw [List.mem_singleton.1 hw]

/-- What a pass of the control thread does to the pool, besides the counts of a pool that is not shutting down. -/
structure Ticked (s t : Pool τ) : Prop where
  taskQueue : t.tp.taskQueue = s.tp.taskQueue
  shutdownFlag : t.tp.shutdownFlag = s.tp.shutdownFlag
  minThreadCnt : t.tp.minThreadCnt = s.tp.minThreadCnt
  actThreadCnt : t.tp.actThreadCnt = s.tp.actThreadCnt
  added : t.added = s.added
  taken : t.taken = s.taken
  callers : t.callers = if s.tp.shutdownFlag then queueNotFull.broadcast s.callers else s.callers
  workers : ∃ new, (∀ w ∈ new, Worker.pc w = .top) ∧ queueNotEmpty.Wakes (s.workers ++ new) t.workers ∧
    (s.tp.shutdownFlag = true → new = [] ∧ t.tp.curThreadCnt = s.tp.curThreadCnt ∧
      t.tp.waitExitThreadCnt = s.tp.curThreadCnt)

theorem drain_of_running (h : s.tp.shutdownFlag = false) : drain s = s :=
  if_neg (by rw [h]; exact Bool.false_ne_true)

theorem drain_of_shutdown (h : s.tp.shutdownFlag = true) :
    drain s = { s with
      tp := { s.tp with waitExitThreadCnt := s.tp.curThreadCnt }
      callers := queueNotFull.broadcast s.callers } := if_pos h

theorem wakeWorkers_wakes (s : Pool τ) : queueNotEmpty.Wakes s.workers (wakeWorkers s).workers := by
  unfold wakeWorkers
  split
  · exact CondVar.broadcast_wakes
  · exact CondVar.wakes_refl

theorem wakeWorkers_eq (s : Pool τ) : wakeWorkers s = { s with workers := (wakeWorkers s).workers } := by
  unfold wakeWorkers
  split <;> rfl

/-- A pass keeps the shutdown request, and with one it creates nobody. -/
theorem resize_frame {creates : List (Except Nat Nat)} {s₁ : Pool τ} (h : resize R creates s = .ok s₁) :
    ∃ tidList cur wait new, (∀ w ∈ new, Worker.pc w = .top) ∧ (s.tp.shutdownFlag = true → s₁ = s) ∧
      s₁ = { s with
        tp := { s.tp with tidList := tidList, curThreadCnt := cur, waitExitThreadCnt := wait }
        workers := s.workers ++ new } := by
  rcases resize_cases h with ⟨rfl, -⟩ | ⟨hs, ⟨-, he⟩ | ⟨-, -, -, rfl⟩⟩
  · exact ⟨s₁.tp.tidList, s₁.tp.curThreadCnt, s₁.tp.waitExitThreadCnt, [], by simp, fun _ => rfl, by simp⟩
  · obtain ⟨tidList, cur, new, htop, rfl⟩ := expandLoop_frame he
    exact ⟨tidList, cur, s.tp.waitExitThreadCnt, new, htop, fun hs' => (by rw [hs] at hs'; cases hs'), rfl⟩
  · exact ⟨s.tp.tidList, s.tp.curThreadCnt, _, [], by simp, fun hs' => (by rw [hs] at hs'; cases hs'),
      by rw [List.append_nil]⟩

theorem tick_ticked {creates : List (Except Nat Nat)} {s₁ : Pool τ} (h : resize R creates s = .ok s₁) :
    Ticked s { wakeWorkers (drain s₁) with ctrl := .sleeping } := by
  obtain ⟨tidList, cur, wait, new, htop, hshut, he⟩ := resize_frame h
  have hwakes := wakeWorkers_wakes (drain s₁)
  rw [wakeWorkers_eq]
  cases hs : s.tp.shutdownFlag with
  | true =>
    obtain rfl := hshut hs
    rw [drain_of_shutdown hs] at hwakes ⊢
    exact ⟨rfl, rfl, rfl, rfl, rfl, rfl, by rw [hs]; rfl, [], by simp, by simpa using hwakes, fun _ => ⟨rfl, rfl, rfl⟩⟩
  | false =>
    have hs₁ : s₁.tp.shutdownFlag = false := by rw [he]; exact hs
    rw [drain_of_running hs₁] at hwakes ⊢
    subst he
    exact ⟨rfl, rfl, rfl, rfl, rfl, rfl, by rw [hs]; rfl, new, htop, hwakes, fun hs' => by rw [hs] at hs'; cases hs'⟩

/-! ## The start -/

/-- What creating one worker in the next slot keeps, the loop of `thread_pool_init` keeps. -/
theorem createLoop_inv {P : Pool τ → Nat → Nat → Prop}
    (hspawn : ∀ s left idx tid, P s (left + 1) idx → idx < s.tp.tidList.length → fresh s.workers tid = true →
      P (spawn s idx tid) left (idx + 1)) :
    ∀ {left idx creates} {s s' : Pool τ}, P s left idx → createLoop left idx creates s = .ok s' →
      ∃ idx', P s' 0 idx'
  | 0, idx, _, _, _, hP, h => by cases h; exact ⟨idx, hP⟩
  | left + 1, idx, creates, s, s', hP, h => by
    unfold createLoop at h
    split at h
    · rename_i hlt
      cases creates with
      | nil => cases h
      | cons answer creates =>
        cases answer with
        | error ret => cases h
        | ok tid =>
          dsimp only at h
          split at h
          · rename_i hf
            exact createLoop_inv hspawn (hspawn s left idx tid hP hlt hf) h
          · cases h
    · cases h

/-- `thread_pool_init` gets past its queue with an empty one of `2 * max_thread_cnt` cells, as an `unsigned int`. -/
theorem initQueue_ok {que que' : QueueT τ} {hi : Nat} {env : InitEnv τ hi} (h : initQueue que hi env = .ok que') :
    que'.Good ∧ que'.maxSize = u32 (2 * hi) ∧ que'.items = [] := by
  obtain ⟨-, -, h⟩ := bind_eq_ok.1 h
  obtain ⟨-, -, h⟩ := bind_eq_ok.1 h
  obtain ⟨-, -, h⟩ := bind_eq_ok.1 h
  cases hblock : env.queueBlock with
  | none =>
    have hfail : queueInit (some que) (u32 (2 * hi)) env.queueBlock = (queueFailed, some que) := by
      simp [queueInit, hblock]
    rw [hfail] at h
    cases h
  | some ptr =>
    rw [hblock] at h
    by_cases hpos : 0 < u32 (2 * (hi : Int))
    · obtain ⟨que'', hq, hrest⟩ := queueInit_good hpos (u32_lt _) que ptr
      rw [hq] at h
      cases h
      exact hrest
    · have hfail : queueInit (some que) (u32 (2 * hi)) (some ptr) = (queueFailed, some que) := if_pos (by omega)
      rw [hfail] at h
      cases h

theorem initThreads_ok {que : QueueT τ} {lo hi : Nat} {env : InitEnv τ hi} (h : initThreads que lo hi env = .ok s) :
    ∃ slots, tidSlots hi = some slots ∧ createLoop lo 0 env.creates (blank que slots lo hi) = .ok s := by
  obtain ⟨-, -, h⟩ := bind_eq_ok.1 h
  obtain ⟨-, -, h⟩ := bind_eq_ok.1 h
  cases hslots : tidSlots hi with
  | none => rw [hslots] at h; cases h
  | some slots =>
    cases hblock : env.tidBlock with
    | false => rw [hslots, hblock] at h; cases h
    | true => rw [hslots, hblock] at h; exact ⟨slots, rfl, h⟩

/-- When `thread_pool_init` returns, it has created `min_thread_cnt` workers in a blank pool with an empty queue. -/
theorem init_cases (h : Init s) :
    ∃ (que : QueueT τ) (slots minThreadCnt maxThreadCnt : Nat) (creates : List (Except Nat Nat)), que.Good ∧
      que.maxSize = u32 (2 * maxThreadCnt) ∧ que.items = [] ∧
      1 ≤ minThreadCnt ∧ minThreadCnt ≤ maxThreadCnt ∧ maxThreadCnt < 2 ^ 32 ∧
      tidSlots maxThreadCnt = some slots ∧
      createLoop minThreadCnt 0 creates (blank que slots minThreadCnt maxThreadCnt) = .ok s := by
  obtain ⟨tp, lo, hi, env, -, hmax, h⟩ := h
  cases tp with
  | none => cases h
  | some tp =>
    by_cases harg : lo ≤ 0 ∨ hi ≤ 0 ∨ lo > hi
    · have hexit : threadPoolInit (some tp) lo hi env = .error (.exit EINVAL "thread_pool_init error (argument)") :=
        if_pos harg
      rw [hexit] at h
      cases h
    · have hgo : threadPoolInit (some tp) lo hi env =
          (initQueue tp.taskQueue hi env >>= fun que => initThreads que lo hi env) := if_neg harg
      rw [hgo] at h
      obtain ⟨que, hq, h⟩ := bind_eq_ok.1 h
      obtain ⟨hg, hsize, hitems⟩ := initQueue_ok hq
      obtain ⟨slots, hslots, h⟩ := initThreads_ok h
      exact ⟨que, slots, lo, hi, env.creates, hg, hsize, hitems, by omega, by omega, hmax, hslots, h⟩

/-- Nothing has happened yet, besides creating threads. -/
structure Started (s : Pool τ) : Prop where
  good : s.tp.taskQueue.Good
  items : s.tp.taskQueue.items = []
  running : s.tp.shutdownFlag = false
  ctrl : s.ctrl = .sleeping
  callers : s.callers = []
  added : s.added = []
  taken : s.taken = []

theorem Init.started (h : Init s) : Started s := by
  obtain ⟨que, slots, lo, hi, creates, hg, -, hitems, -, -, -, -, hloop⟩ := init_cases h
  have hP := createLoop_inv (P := fun s _ _ => Started s) ?_ ?_ hloop
  · exact hP.choose_spec
  · rintro s left idx tid ⟨hg, hitems, hrun, hctrl, hcallers, hadded, htaken⟩ - -
    exact ⟨hg, hitems, hrun, hctrl, hcallers, hadded, htaken⟩
  · exact ⟨hg, hitems, rfl, rfl, rfl, rfl, rfl⟩

end SystemFunc.ThreadPool
