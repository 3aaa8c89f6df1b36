import SystemFunc.Lib.Steps
import SystemFunc.Lib.CondVar
import SystemFunc.ThreadPool.Defs

/-!
# The thread pool of `util/thread_pool/thread_pool.c`: threads and steps

The state of the running pool is the record together with its threads: the control thread, the workers that have been
created and the calls of `thread_pool_add_task` that have been made. Everything the threads share is touched under
`global_lock` only, so one step is one section from `pthread_mutex_lock` (or the return from `pthread_cond_wait`) to
`pthread_mutex_unlock` (or the next `pthread_cond_wait`), and the states are those in which the lock is free.

An action names the thread that gets the lock and everything that is open in its section: the answers of
`sigtimedwait` and `pthread_create`, and the thread that `pthread_cond_signal` wakes. `act` runs the section; it can
also end the process, be undefined, or not be possible (`Stop`). `added` and `taken` record the tasks put into
`task_queue` and taken from it, in the order of the sections; nothing looks at them.
-/

namespace SystemFunc.ThreadPool

variable {τ : Type}

/-! ## Threads -/

/-- Where a worker is: about to take the lock at the top of its loop, blocked in `pthread_cond_wait`, woken there and
about to take the lock again, running a task, or gone. -/
inductive WorkerPc (τ : Type) where
  | top
  | wait
  | woken
  | run (taskp : τ)
  | gone
  deriving DecidableEq

structure Worker (τ : Type) where
  tid : Nat
  pc : WorkerPc τ
  deriving DecidableEq

def Worker.live (w : Worker τ) : Bool := match w.pc with | .gone => false | _ => true
def Worker.busy (w : Worker τ) : Bool := match w.pc with | .run _ => true | _ => false
def Worker.asleep (w : Worker τ) : Bool := match w.pc with | .wait => true | _ => false

/-- Where a call of `thread_pool_add_task` is. -/
inductive CallerPc where
  | enter
  | wait
  | woken
  | returned (ret : Int)
  deriving DecidableEq

structure Caller (τ : Type) where
  task : τ
  pc : CallerPc
  deriving DecidableEq

def Caller.blocked (c : Caller τ) : Bool := match c.pc with | .wait => true | _ => false
def Caller.notified (c : Caller τ) : Bool := match c.pc with | .woken => true | _ => false

/-- Where the control thread is: before `sigtimedwait`, before the section that resizes the pool (having got `SIGQUIT`
in this pass or not), or returned. -/
inductive CtrlPc where
  | sleeping
  | checking (gotSig : Bool)
  | returned
  deriving DecidableEq

structure Pool (τ : Type) where
  tp : ThreadPoolT τ
  ctrl : CtrlPc
  workers : List (Worker τ)
  callers : List (Caller τ)
  added : List τ
  taken : List τ
  deriving DecidableEq

/-- `queue_not_empty`, on which the workers wait. -/
def queueNotEmpty : CondVar (Worker τ) where
  blocked := Worker.asleep
  wake w := { w with pc := .woken }
  wake_blocked _ := rfl

/-- `queue_not_full`, on which the callers wait. -/
def queueNotFull : CondVar (Caller τ) where
  blocked := Caller.blocked
  wake c := { c with pc := .woken }
  wake_blocked _ := rfl

/-! ## Creating a thread -/

/-- `pthread_create` answers an id that is not `0` and not that of a live thread. -/
def fresh (workers : List (Worker τ)) (tid : Nat) : Bool :=
  tid ≠ 0 && workers.all fun w => !w.live || w.tid ≠ tid

/-- A new worker in slot `idx`. -/
def spawn (s : Pool τ) (idx tid : Nat) : Pool τ :=
  { s with
    tp := { s.tp with tidList := s.tp.tidList.set idx tid, curThreadCnt := u32 (s.tp.curThreadCnt + 1) }
    workers := s.workers ++ [{ tid := tid, pc := .top }] }

/-! ## `ctrl_thread_handler` -/

/-- What `sigtimedwait` answers: `SIGQUIT`, `EAGAIN`, or another error. -/
inductive SigAnswer where
  | quit
  | again
  | fail (errno : Nat)
  deriving DecidableEq

/-- Lines 146 to 161. -/
def signalSection (s : Pool τ) (sig : SigAnswer) : Except Stop (Pool τ) :=
  if s.ctrl = .sleeping then
    match sig with
    | .fail errno => .error (.exit errno "ctrl_thread_handler(sigtimedwait)")
    | .again => .ok { s with ctrl := .checking false }
    | .quit => .ok { s with tp := { s.tp with shutdownFlag := true }, ctrl := .checking true }
  else .error .disabled

/-- The loop of lines 178 to 191; `creates` are the answers of `pthread_create`. -/
def expandLoop : Nat → List (Except Nat Nat) → Pool τ → Except Stop (Pool τ)
  | 0, _, s => .ok s
  | n + 1, creates, s => do
    let unusedIdx ← getUnusedTidIdx (some s.tp)
    if unusedIdx = -1 then expandLoop n creates s
    else match creates with
      | [] => .error .disabled
      | .error ret :: _ => .error (.exit ret "ctrl_thread_handler error (pthread_create)")
      | .ok tid :: creates =>
        if fresh s.workers tid then expandLoop n creates (spawn s unusedIdx.toNat tid) else .error .disabled

/-- Lines 171 to 201. -/
def resize (R : BusyRate) (creates : List (Except Nat Nat)) (s : Pool τ) : Except Stop (Pool τ) :=
  if !s.tp.shutdownFlag then
    if isNeedExpand R (some s.tp) ≠ 0 then expandLoop (expandStrategy s.tp).toNat creates s
    else if isNeedShrink R (some s.tp) ≠ 0 then
      let shrinkCnt := shrinkStrategy s.tp
      if shrinkCnt > 0 then
        .ok { s with tp := { s.tp with waitExitThreadCnt := u32 (s.tp.waitExitThreadCnt + shrinkCnt) } }
      else .ok s
    else .ok s
  else .ok s

/-- Lines 203 to 208. -/
def drain (s : Pool τ) : Pool τ :=
  if s.tp.shutdownFlag then
    { s with
      tp := { s.tp with waitExitThreadCnt := s.tp.curThreadCnt }
      callers := queueNotFull.broadcast s.callers }
  else s

/-- Lines 210 to 213. -/
def wakeWorkers (s : Pool τ) : Pool τ :=
  if s.tp.waitExitThreadCnt ≠ 0 then { s with workers := queueNotEmpty.broadcast s.workers } else s

/-- Lines 163 to 215. -/
def tickSection (R : BusyRate) (creates : List (Except Nat Nat)) (s : Pool τ) : Except Stop (Pool τ) :=
  match s.ctrl with
  | .checking _ =>
    if s.tp.shutdownFlag && s.tp.curThreadCnt ≤ 0 then .ok { s with ctrl := .returned }
    else do
      let s ← resize R creates s
      .ok { wakeWorkers (drain s) with ctrl := .sleeping }
  | _ => .error .disabled

/-! ## `work_thread_handler` -/

/-- The condition of the loop of line 235. -/
def mustWait (tp : ThreadPoolT τ) : Bool := queueIsEmpty (some tp.taskQueue) ≠ 0 && !tp.shutdownFlag

/-- The condition of lines 239 and 245. -/
def mustExit (tp : ThreadPoolT τ) : Bool := tp.shutdownFlag || tp.waitExitThreadCnt ≠ 0

def sleep (s : Pool τ) (i : Nat) (w : Worker τ) : Pool τ :=
  { s with workers := s.workers.set i { w with pc := .wait } }

/-- Lines 253 to 262. -/
def leave (s : Pool τ) (i : Nat) (w : Worker τ) (idx : Nat) : Pool τ :=
  { s with
    tp := { s.tp with
      tidList := s.tp.tidList.set idx 0
      waitExitThreadCnt :=
        if s.tp.waitExitThreadCnt ≠ 0 then u32 (s.tp.waitExitThreadCnt - 1) else s.tp.waitExitThreadCnt
      curThreadCnt := u32 (s.tp.curThreadCnt - 1) }
    workers := s.workers.set i { w with pc := .gone } }

/-- Lines 267 to 272, with the queue that `queue_dequeue` leaves and the callers that the signal leaves. -/
def take (s : Pool τ) (i : Nat) (w : Worker τ) (que : QueueT τ) (task : τ) (callers : List (Caller τ)) : Pool τ :=
  { s with
    tp := { s.tp with taskQueue := que, actThreadCnt := u32 (s.tp.actThreadCnt + 1) }
    workers := s.workers.set i { w with pc := .run task }
    callers := callers
    taken := s.taken ++ [task] }

/-- Lines 245 to 272. A `taskp` that is `NULL` is dereferenced by line 275. -/
def afterLoop (s : Pool τ) (i : Nat) (w : Worker τ) (pick : Option Nat) : Except Stop (Pool τ) :=
  if mustExit s.tp then do
    let idx ← findTidIdx (some s.tp) w.tid
    if idx = -1 then .error (.exit EINVAL "work_thread_handler(FindTidIdx)")
    else .ok (leave s i w idx.toNat)
  else
    match queueDequeue (some s.tp.taskQueue) (some none) with
    | (ret, que, taskp) =>
      if ret = 0 then .error (.exit EINVAL "work_thread_handler(queue_dequeue)")
      else match que, taskp with
        | some que, some (some task) => do
          let callers ← answered (queueNotFull.signal s.callers pick)
          .ok (take s i w que task callers)
        | _, _ => .error .undefined

/-- Lines 233 to 272, from the top or from the return of `pthread_cond_wait`. -/
def workSection (s : Pool τ) (i : Nat) (pick : Option Nat) : Except Stop (Pool τ) :=
  match s.workers[i]? with
  | none => .error .disabled
  | some w =>
    match w.pc with
    | .top => if mustWait s.tp then .ok (sleep s i w) else afterLoop s i w pick
    | .woken =>
      if mustExit s.tp then afterLoop s i w pick
      else if mustWait s.tp then .ok (sleep s i w)
      else afterLoop s i w pick
    | _ => .error .disabled

/-- Lines 283 to 285, when the task and its callback have run. -/
def doneSection (s : Pool τ) (i : Nat) : Except Stop (Pool τ) :=
  match s.workers[i]? with
  | none => .error .disabled
  | some w =>
    match w.pc with
    | .run _ => .ok { s with
        tp := { s.tp with actThreadCnt := u32 (s.tp.actThreadCnt - 1) }
        workers := s.workers.set i { w with pc := .top } }
    | _ => .error .disabled

/-! ## `thread_pool_add_task` -/

def threadPoolSuccess : Int := 1
def threadPoolFailed : Int := 0

/-- A call; one with a `NULL` task returns `THREAD_POOL_FAILED` at once. -/
def call (s : Pool τ) : Option τ → Pool τ
  | none => s
  | some task => { s with callers := s.callers ++ [{ task := task, pc := .enter }] }

def setCaller (s : Pool τ) (i : Nat) (c : Caller τ) (pc : CallerPc) : Pool τ :=
  { s with callers := s.callers.set i { c with pc := pc } }

/-- Lines 416 to 441. -/
def addSection (s : Pool τ) (i : Nat) (pick : Option Nat) : Except Stop (Pool τ) :=
  match s.callers[i]? with
  | none => .error .disabled
  | some c =>
    if c.pc = .enter ∨ c.pc = .woken then
      if queueIsNotFull (some s.tp.taskQueue) = 0 && !s.tp.shutdownFlag then .ok (setCaller s i c .wait)
      else if s.tp.shutdownFlag then .ok (setCaller s i c (.returned threadPoolSuccess))
      else
        match queueEnqueue (some s.tp.taskQueue) (some c.task) with
        | (ret, que) =>
          if ret = 0 then .ok (setCaller s i c (.returned threadPoolFailed))
          else do
            let workers ← answered (queueNotEmpty.signal s.workers pick)
            .ok { setCaller s i c (.returned threadPoolSuccess) with
              tp := { s.tp with taskQueue := que.getD s.tp.taskQueue }
              workers := workers
              added := s.added ++ [c.task] }
    else .error .disabled

/-! ## Steps -/

/-- Which thread gets the lock, and what is open in its section. -/
inductive Act (τ : Type) where
  | signal (sig : SigAnswer)
  | tick (creates : List (Except Nat Nat))
  | work (i : Nat) (pick : Option Nat)
  | done (i : Nat)
  | call (task : Option τ)
  | add (i : Nat) (pick : Option Nat)
  | spuriousWorker (i : Nat)
  | spuriousCaller (i : Nat)

def act (R : BusyRate) (s : Pool τ) : Act τ → Except Stop (Pool τ)
  | .signal sig => signalSection s sig
  | .tick creates => tickSection R creates s
  | .work i pick => workSection s i pick
  | .done i => doneSection s i
  | .call task => .ok (call s task)
  | .add i pick => addSection s i pick
  | .spuriousWorker i => do
    let workers ← answered (queueNotEmpty.signal s.workers (some i))
    .ok { s with workers := workers }
  | .spuriousCaller i => do
    let callers ← answered (queueNotFull.signal s.callers (some i))
    .ok { s with callers := callers }

def step (R : BusyRate) (s : Pool τ) (a : Act τ) : Option (Pool τ) := (act R s a).toOption

/-! ## `thread_pool_init` -/

/-- The number of slots in the block of `malloc(byte_cnt)`, where `int byte_cnt = max_thread_cnt * sizeof(pthread_t)`.
A negative `byte_cnt` asks for more than there can be. -/
def tidSlots (maxThreadCnt : Nat) : Option Nat :=
  let byteCnt := s32 (maxThreadCnt * 8)
  if byteCnt < 0 then none else some (byteCnt.toNat / 8)

/-- What the environment answers to `thread_pool_init`: error numbers, the block for the queue, whether there is a block
for the slots, and the threads. -/
structure InitEnv (τ : Type) (maxThreadCnt : Nat) where
  mutexInit : Nat
  condInitNotFull : Nat
  condInitNotEmpty : Nat
  queueBlock : Option (Block (Option τ) (u32 (2 * maxThreadCnt)))
  sigmask : Nat
  ctrlCreate : Nat
  tidBlock : Bool
  creates : List (Except Nat Nat)

/-- `if (ret) thread_pool_print_error(stderr, ret, headStr, EXIT_FAILURE)`. -/
def checkRet (ret : Nat) (headStr : String) : Except Stop Unit :=
  if ret ≠ 0 then .error (.exit ret headStr) else .ok ()

/-- The loop of lines 351 to 358; `left` threads are still to be created, from slot `idx` on. -/
def createLoop : (left idx : Nat) → List (Except Nat Nat) → Pool τ → Except Stop (Pool τ)
  | 0, _, _, s => .ok s
  | left + 1, idx, creates, s =>
    if idx < s.tp.tidList.length then
      match creates with
      | [] => .error .disabled
      | .error ret :: _ => .error (.exit ret "thread_pool_init error (pthread_create)")
      | .ok tid :: creates =>
        if fresh s.workers tid then createLoop left (idx + 1) creates (spawn s idx tid) else .error .disabled
    else .error .undefined

/-- The pool of lines 327 to 350, before the first worker. -/
def blank (que : QueueT τ) (slots minThreadCnt maxThreadCnt : Nat) : Pool τ where
  tp := {
    taskQueue := que
    tidList := List.replicate slots 0
    minThreadCnt := minThreadCnt
    maxThreadCnt := maxThreadCnt
    curThreadCnt := 0
    actThreadCnt := 0
    waitExitThreadCnt := 0
    shutdownFlag := false }
  ctrl := .sleeping
  workers := []
  callers := []
  added := []
  taken := []

/-- Lines 317 to 362 of `thread_pool_init`. -/
def initThreads (que : QueueT τ) (minThreadCnt maxThreadCnt : Nat) (env : InitEnv τ maxThreadCnt) :
    Except Stop (Pool τ) := do
  checkRet env.sigmask "thread_pool_init error (pthread_sigmask)"
  checkRet env.ctrlCreate "thread_pool_init error (pthread_create)"
  match tidSlots maxThreadCnt, env.tidBlock with
  | some slots, true => createLoop minThreadCnt 0 env.creates (blank que slots minThreadCnt maxThreadCnt)
  | _, _ => .error (.exit 0 "thread_pool_init error (malloc)")

/-- Lines 297 to 315. -/
def initQueue (que : QueueT τ) (maxThreadCnt : Nat) (env : InitEnv τ maxThreadCnt) : Except Stop (QueueT τ) := do
  checkRet env.mutexInit "thread_pool_init error (pthread_mutex_init)"
  checkRet env.condInitNotFull "thread_pool_init error (pthread_cond_init)"
  checkRet env.condInitNotEmpty "thread_pool_init error (pthread_cond_init)"
  match queueInit (some que) (u32 (2 * maxThreadCnt)) env.queueBlock with
  | (ret, que') =>
    if ret = 0 then .error (.exit ENOMEM "thread_pool_init error (queue_init)") else .ok (que'.getD que)

/-- `thread_pool_init`, up to its return. -/
def threadPoolInit (tp : Option (ThreadPoolT τ)) (minThreadCnt maxThreadCnt : Nat) (env : InitEnv τ maxThreadCnt) :
    Except Stop (Pool τ) :=
  match tp with
  | none => .error (.exit EINVAL "thread_pool_init error (argument)")
  | some tp =>
    if minThreadCnt ≤ 0 ∨ maxThreadCnt ≤ 0 ∨ minThreadCnt > maxThreadCnt then
      .error (.exit EINVAL "thread_pool_init error (argument)")
    else do
      let que ← initQueue tp.taskQueue maxThreadCnt env
      initThreads que minThreadCnt maxThreadCnt env

/-- The states in which `thread_pool_init` returns, for all `unsigned int` arguments. -/
def Init (s : Pool τ) : Prop :=
  ∃ tp minThreadCnt maxThreadCnt env, minThreadCnt < 2 ^ 32 ∧ maxThreadCnt < 2 ^ 32 ∧
    threadPoolInit tp minThreadCnt maxThreadCnt env = .ok s

/-! ## Small pools -/

/-- An environment that grants everything. -/
def granted (maxThreadCnt : Nat) (creates : List (Except Nat Nat)) : InitEnv τ maxThreadCnt where
  mutexInit := 0
  condInitNotFull := 0
  condInitNotEmpty := 0
  queueBlock := some ⟨List.replicate _ none, List.length_replicate⟩
  sigmask := 0
  ctrlCreate := 0
  tidBlock := true
  creates := creates

def emptyQueue (maxSize : Nat) : QueueT τ where
  head := 0
  rear := 0
  maxSize := maxSize
  curSize := 0
  plist := List.replicate maxSize none

/-- One worker, with the id `7`, and room for `maxThreadCnt`. -/
def smallPool (maxThreadCnt : Nat) : Pool Nat :=
  spawn (blank (emptyQueue (2 * maxThreadCnt)) maxThreadCnt 1 maxThreadCnt) 0 7

theorem smallPool_one : Init (smallPool 1) :=
  ⟨some (blank (emptyQueue 0) 0 0 0).tp, 1, 1, granted 1 [.ok 7], by decide, by decide, rfl⟩

theorem smallPool_two : Init (smallPool 2) :=
  ⟨some (blank (emptyQueue 0) 0 0 0).tp, 1, 2, granted 2 [.ok 7], by decide, by decide, rfl⟩

/-- Worker `7` takes the task `100`, and a pass creates worker `8`. -/
def expandRun : List (Act Nat) := [.call (some 100), .add 0 none, .work 0 none, .signal .again, .tick [.ok 8]]

def expanded : Pool Nat where
  tp := {
    taskQueue := { head := 1, rear := 1, maxSize := 4, curSize := 0, plist := [some 100, none, none, none] }
    tidList := [7, 8]
    minThreadCnt := 1
    maxThreadCnt := 2
    curThreadCnt := 2
    actThreadCnt := 1
    waitExitThreadCnt := 0
    shutdownFlag := false }
  ctrl := .sleeping
  workers := [{ tid := 7, pc := .run 100 }, { tid := 8, pc := .top }]
  callers := [{ task := 100, pc := .returned threadPoolSuccess }]
  added := [100]
  taken := [100]

theorem expanded_reach : Steps.Reach Init (step ieeeRate) expanded := ⟨smallPool 2, expandRun, smallPool_two, rfl⟩

/-- Two callers wait for a free slot, and worker `7` wakes one of them. -/
def crowdRun : List (Act Nat) :=
  [.call (some 100), .add 0 none, .work 0 none, .call (some 101), .call (some 102), .call (some 103), .call (some 104),
    .add 1 none, .add 2 none, .add 3 none, .add 4 none, .done 0, .work 0 (some 3)]

def crowded : Pool Nat where
  tp := {
    taskQueue := { head := 0, rear := 1, maxSize := 2, curSize := 1, plist := [some 102, some 101] }
    tidList := [7]
    minThreadCnt := 1
    maxThreadCnt := 1
    curThreadCnt := 1
    actThreadCnt := 1
    waitExitThreadCnt := 0
    shutdownFlag := false }
  ctrl := .sleeping
  workers := [{ tid := 7, pc := .run 101 }]
  callers := [{ task := 100, pc := .returned threadPoolSuccess }, { task := 101, pc := .returned threadPoolSuccess },
    { task := 102, pc := .returned threadPoolSuccess }, { task := 103, pc := .woken }, { task := 104, pc := .wait }]
  added := [100, 101, 102]
  taken := [100, 101]

theorem crowded_reach : Steps.Reach Init (step ieeeRate) crowded := ⟨smallPool 1, crowdRun, smallPool_one, rfl⟩

end SystemFunc.ThreadPool
