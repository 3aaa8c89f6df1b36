import SystemFunc.ThreadPool.Account

/-!
# The sizes that `thread_pool_init` computes

`int byte_cnt = max_thread_cnt * sizeof(pthread_t)` keeps the low 32 bits of the byte count, so that `malloc` is asked
for `max_thread_cnt` modulo `2^29` slots, or for a negative number of bytes, which it refuses (`tidSlots_eq`). The
capacity of the queue is `2 * max_thread_cnt` modulo `2^32`, and `queue_init` refuses `0`.

`threadPoolInit_sized_iff` says for which arguments the pool that is returned has the sizes that its record promises.
-/

namespace SystemFunc.ThreadPool

variable {τ : Type} {s : Pool τ} {lo hi : Nat}

/-- There is a slot for each thread, and the queue has the length that the record states for it. -/
structure SizedFor (maxThreadCnt : Nat) (s : Pool τ) : Prop where
  tidList : maxThreadCnt ≤ s.tp.tidList.length
  taskQueue : s.tp.taskQueue.maxSize = 2 * maxThreadCnt

/-- No product wraps, or one wraps so that its allocation is refused. -/
def SizesHold (maxThreadCnt : Nat) : Prop :=
  maxThreadCnt < 2 ^ 29 ∨ maxThreadCnt = 2 ^ 31 ∨ 2 ^ 28 ≤ maxThreadCnt % 2 ^ 29

theorem tidSlots_eq (hi : Nat) : tidSlots hi = if hi % 2 ^ 29 < 2 ^ 28 then some (hi % 2 ^ 29) else none := by
  unfold tidSlots
  by_cases hsmall : hi % 2 ^ 29 < 2 ^ 28
  · have hbytes : s32 ((hi : Int) * 8) = ((hi % 2 ^ 29 * 8 : Nat) : Int) := by
      unfold s32
      omega
    rw [hbytes, if_pos hsmall]
    dsimp only
    rw [if_neg (by omega), Int.toNat_natCast, Nat.mul_div_cancel _ (by decide)]
  · have hneg : s32 ((hi : Int) * 8) < 0 := by
      unfold s32
      omega
    rw [if_neg hsmall]
    exact if_pos hneg

/-! ## No step of the start is undefined -/

theorem checkRet_safe {ret : Nat} {headStr : String} : Safe (fun _ => True) (checkRet ret headStr) := by
  unfold checkRet
  split
  · exact safe_exit
  · trivial

theorem initQueue_safe {que : QueueT τ} {env : InitEnv τ hi} :
    Safe (fun que' => que'.maxSize = u32 (2 * hi)) (initQueue que hi env) := by
  cases h : initQueue que hi env with
  | ok que' => exact (initQueue_ok h).2.1
  | error e =>
    have hsafe : Safe (fun _ => True) (initQueue que hi env) := by
      refine checkRet_safe.bind fun _ _ => checkRet_safe.bind fun _ _ => checkRet_safe.bind fun _ _ => ?_
      split
      split
      · exact safe_exit
      · trivial
    rw [h] at hsafe
    exact hsafe

/-- Creating a worker changes neither the number of slots nor the queue, and none is created behind the last slot. -/
theorem createLoop_safe {left idx : Nat} {creates : List (Except Nat Nat)} (h : idx + left ≤ s.tp.tidList.length) :
    Safe (fun s' => s'.tp.tidList.length = s.tp.tidList.length ∧ s'.tp.taskQueue = s.tp.taskQueue)
      (createLoop left idx creates s) := by
  induction left generalizing idx creates s with
  | zero => exact ⟨rfl, rfl⟩
  | succ left ih =>
    unfold createLoop
    rw [if_pos (by omega)]
    cases creates with
    | nil => exact safe_disabled
    | cons answer creates =>
      cases answer with
      | error ret => exact safe_exit
      | ok tid =>
        dsimp only
        split
        · have hlen : (spawn s idx tid).tp.tidList.length = s.tp.tidList.length := List.length_set
          refine (ih (s := spawn s idx tid) (by omega)).mono fun s' hs' => ?_
          exact ⟨hs'.1.trans hlen, hs'.2⟩
        · exact safe_disabled

theorem threadPoolInit_eq {tp : ThreadPoolT τ} (hlo : 1 ≤ lo) (hle : lo ≤ hi) (env : InitEnv τ hi) :
    threadPoolInit (some tp) lo hi env = initQueue tp.taskQueue hi env >>= fun que => initThreads que lo hi env :=
  if_neg (by omega)

theorem threadPoolInit_sized (hlo : 1 ≤ lo) (hle : lo ≤ hi) (hmax : hi < 2 ^ 32) (h : SizesHold hi)
    (tp : ThreadPoolT τ) (env : InitEnv τ hi) : Safe (SizedFor hi) (threadPoolInit (some tp) lo hi env) := by
  rw [threadPoolInit_eq hlo hle]
  cases hq : initQueue tp.taskQueue hi env with
  | error e =>
    have hsafe : Safe _ (initQueue tp.taskQueue hi env) := initQueue_safe
    rw [hq] at hsafe
    exact hsafe
  | ok que =>
    obtain ⟨hgood, hsize, -⟩ := initQueue_ok hq
    refine checkRet_safe.bind fun _ _ => checkRet_safe.bind fun _ _ => ?_
    rw [tidSlots_eq]
    split
    next slots _ hslots _ =>
      split at hslots
      next hsmall =>
        cases hslots
        -- the queue is there, so that its size is not `0`
        have hpos := hgood.pos
        have hne : hi ≠ 2 ^ 31 := by
          rintro rfl
          rw [hsize] at hpos
          exact absurd hpos (by decide)
        have hwrap : hi % 2 ^ 29 = hi ∧ u32 (2 * hi) = 2 * hi := by
          unfold SizesHold at h
          unfold u32
          omega
        have hlen : (blank que (hi % 2 ^ 29) lo hi).tp.tidList.length = hi := List.length_replicate.trans hwrap.1
        have hroom : 0 + lo ≤ (blank que (hi % 2 ^ 29) lo hi).tp.tidList.length := by omega
        refine (createLoop_safe hroom).mono fun s hs => ⟨?_, ?_⟩
        · rw [hs.1, hlen]
        · rw [hs.2]
          exact hsize.trans hwrap.2
      next => cases hslots
    next => exact safe_exit

/-! ## When everything is granted -/

theorem initQueue_granted (que : QueueT τ) (creates : List (Except Nat Nat)) (h : 0 < u32 (2 * hi)) :
    ∃ que', initQueue que hi (granted hi creates) = .ok que' := by
  obtain ⟨que', hq, -⟩ := queueInit_good h (u32_lt _) que ⟨List.replicate _ none, List.length_replicate⟩
  refine ⟨que', ?_⟩
  have hinit : queueInit (some que) (u32 (2 * hi)) (granted hi creates).queueBlock = (queueSuccess, some que') := hq
  unfold initQueue
  rw [hinit]
  rfl

/-- With ids that nobody has, the loop ends when the workers are created, or behind the last slot. -/
theorem createLoop_new {left idx tid : Nat} (h0 : 0 < tid) (hids : ∀ w ∈ s.workers, w.tid < tid) :
    (∃ s', createLoop left idx ((List.range' tid left).map .ok) s = .ok s' ∧
      s'.tp.tidList.length = s.tp.tidList.length) ∨
    createLoop left idx ((List.range' tid left).map .ok) s = .error .undefined := by
  induction left generalizing idx tid s with
  | zero => exact .inl ⟨s, rfl, rfl⟩
  | succ left ih =>
    by_cases hlt : idx < s.tp.tidList.length
    · have hfresh : fresh s.workers tid = true := by
        have hne : ∀ w ∈ s.workers, w.tid ≠ tid := fun w hw => Nat.ne_of_lt (hids w hw)
        simpa [fresh, Nat.pos_iff_ne_zero.1 h0] using fun w hw => .inr (hne w hw)
      have hgo : createLoop (left + 1) idx ((List.range' tid (left + 1)).map .ok) s =
          createLoop left (idx + 1) ((List.range' (tid + 1) left).map .ok) (spawn s idx tid) := by
        simp [createLoop, List.range'_succ, hlt, hfresh]
      have hlen : (spawn s idx tid).tp.tidList.length = s.tp.tidList.length := List.length_set
      rw [hgo, ← hlen]
      refine ih (Nat.succ_pos tid) fun w hw => ?_
      rcases List.mem_append.1 hw with hw | hw
      · exact Nat.lt_succ_of_lt (hids w hw)
      · rw [List.mem_singleton.1 hw]
        exact Nat.lt_succ_self tid
    · exact .inr (if_neg hlt)

/-- Where the byte count wraps to a small one, the block is too small. -/
theorem threadPoolInit_undersized (hlo : 1 ≤ lo) (hle : lo ≤ hi) (hmax : hi < 2 ^ 32) (h : ¬SizesHold hi)
    (tp : ThreadPoolT τ) :
    ¬Safe (SizedFor hi) (threadPoolInit (some tp) lo hi (granted hi ((List.range' 1 lo).map .ok))) := by
  unfold SizesHold at h
  have hsmall : hi % 2 ^ 29 < 2 ^ 28 := by omega
  have hpos : 0 < u32 (2 * hi) := by
    unfold u32
    omega
  obtain ⟨que, hq⟩ := initQueue_granted tp.taskQueue ((List.range' 1 lo).map .ok) hpos
  have hgo : initThreads que lo hi (granted hi ((List.range' 1 lo).map .ok)) =
      createLoop lo 0 ((List.range' 1 lo).map .ok) (blank que (hi % 2 ^ 29) lo hi) := by
    unfold initThreads
    rw [tidSlots_eq, if_pos hsmall]
    rfl
  rw [threadPoolInit_eq hlo hle, hq, ok_bind, hgo]
  have hnone : ∀ w ∈ (blank que (hi % 2 ^ 29) lo hi).workers, w.tid < 1 := fun w hw => by cases hw
  rcases @createLoop_new _ _ lo 0 1 Nat.one_pos hnone with ⟨s, hs, hlen⟩ | hs
  · rw [hs]
    rintro ⟨hslots, -⟩
    rw [hlen] at hslots
    have hle' : hi ≤ hi % 2 ^ 29 := hslots.trans_eq List.length_replicate
    omega
  · rw [hs]
    exact fun hne => hne rfl

/-- **The sizes of the pool.** For arguments that pass the check of `thread_pool_init`, no worker is stored behind the
slots, and a pool that is returned has a slot for each thread and a queue of `2 * max_thread_cnt` cells, exactly
when `SizesHold`. -/
theorem threadPoolInit_sized_iff (hlo : 1 ≤ lo) (hle : lo ≤ hi) (hmax : hi < 2 ^ 32) :
    (∀ (tp : ThreadPoolT τ) (env : InitEnv τ hi), Safe (SizedFor hi) (threadPoolInit (some tp) lo hi env)) ↔
      SizesHold hi := by
  constructor
  · intro h
    by_contra hsizes
    exact threadPoolInit_undersized hlo hle hmax hsizes (blank (emptyQueue 0) 0 0 0).tp (h _ _)
  · exact fun h tp env => threadPoolInit_sized hlo hle hmax h tp env

theorem threadPoolInit_sized_iff_two :
    (∀ (tp : ThreadPoolT Nat) (env : InitEnv Nat 2), Safe (SizedFor 2) (threadPoolInit (some tp) 1 2 env)) ↔
      SizesHold 2 :=
  threadPoolInit_sized_iff (by decide) (by decide) (by decide)

/-- With one worker and `2^31 + 1` threads at most, the pool that is returned has one slot and a queue of two. -/
theorem threadPoolInit_wraps :
    ∃ (env : InitEnv Nat (2 ^ 31 + 1)) (s : Pool Nat),
      threadPoolInit (some (blank (emptyQueue 0) 0 0 0).tp) 1 (2 ^ 31 + 1) env = .ok s ∧
        s.tp.tidList.length = 1 ∧ s.tp.taskQueue.maxSize = 2 ∧ ¬SizedFor (2 ^ 31 + 1) s := by
  refine ⟨granted _ [.ok 7], spawn (blank (emptyQueue 2) 1 1 (2 ^ 31 + 1)) 0 7, rfl, rfl, rfl, ?_⟩
  rintro ⟨hslots, -⟩
  exact absurd hslots (by decide)

end SystemFunc.ThreadPool
