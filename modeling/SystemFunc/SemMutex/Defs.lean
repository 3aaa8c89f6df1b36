import Mathlib.Logic.Function.Basic
import SystemFunc.Lib.Steps

/-!
# The mutex of `process_func/IPC/POSIX_SEMAPHORE/semaphore_mutex.c`

A binary semaphore and the kernel tid of the thread that locked it. The threads `θ` call `sem_mutex_lock` and
`sem_mutex_unlock` at any time and in any order; each access to the semaphore or to `lwp` is one step, and the steps
of different threads interleave. `sem_wait` returns when it has decremented the semaphore (no signal handler interrupts
it), and `sem_getvalue` of an initialized semaphore does not fail.

A thread carries, besides its place in the two functions, whether it has passed `sem_wait` and not since executed
`sem_post` (`held`), whether it is inside a lock/unlock pair (`inPair`), and how many of its unlock calls returned
without `sem_post` although it held the lock (`ignored`). No step looks at these.
-/

namespace SystemFunc.SemMutex

/-- `struct sem_mutex_t`; `sem` is the value of the semaphore. -/
structure SemMutexT where
  sem : Nat
  lwp : Nat

/-- `sem_mutex_init`: `bzero`, then `sem_init(&sem_mutex->sem, 1, 1)`; the process exits when `sem_init` returns `-1`
or the argument is `NULL`. -/
def semMutexInit (semMutex : Option SemMutexT) (semInitRet : Int) : Option SemMutexT :=
  match semMutex with
  | none => none
  | some _ => if -1 = semInitRet then none else some { sem := 1, lwp := 0 }

/-- Where a thread is: outside, or about to execute the named statement. -/
inductive Pc where
  | out
  | lockWait
  | lockWrite
  | unlockGetvalue
  | unlockTest
  | unlockPost
  | unlockClear
  deriving DecidableEq

structure Thread where
  pc : Pc
  held : Bool
  inPair : Bool
  ignored : Nat

/-- `return` from `sem_mutex_unlock` before `sem_post`. -/
def Thread.giveUp (th : Thread) : Thread := { th with pc := .out, ignored := th.ignored + th.held.toNat }

/-- The next atomic step of a thread with kernel tid `gettid`. -/
def threadStep (gettid : Nat) (sm : SemMutexT) (th : Thread) : Option (SemMutexT × Thread) :=
  match th.pc with
  | .out => none
  -- sem_mutex_lock
  | .lockWait =>
    if 0 < sm.sem then some ({ sm with sem := sm.sem - 1 }, { th with pc := .lockWrite, held := true }) else none
  | .lockWrite => some ({ sm with lwp := gettid }, { th with pc := .out })
  -- sem_mutex_unlock
  | .unlockGetvalue => if sm.sem > 0 then some (sm, th.giveUp) else some (sm, { th with pc := .unlockTest })
  | .unlockTest => if gettid ≠ sm.lwp then some (sm, th.giveUp) else some (sm, { th with pc := .unlockPost })
  | .unlockPost => some ({ sm with sem := sm.sem + 1 }, { th with pc := .unlockClear, held := false })
  | .unlockClear => some ({ sm with lwp := 0 }, { th with pc := .out })

/-- Kernel tids: distinct and not `0`. -/
structure Tids (θ : Type*) where
  gettid : θ → Nat
  inj : Function.Injective gettid
  ne_zero : ∀ t, gettid t ≠ 0

structure State (θ : Type*) where
  sm : SemMutexT
  threads : θ → Thread

/-- What happens next: a thread calls one of the functions, or takes its next step. -/
inductive Act (θ : Type*) where
  | callLock (t : θ)
  | callUnlock (t : θ)
  | next (t : θ)

variable {θ : Type*} [DecidableEq θ] (T : Tids θ)

/-- Thread `t` moves. -/
def State.move (s : State θ) (t : θ) (sm : SemMutexT) (th : Thread) : State θ :=
  { sm := sm, threads := Function.update s.threads t th }

/-- What holds of the moved thread and of the others holds of all. -/
theorem State.forall_move {s : State θ} {t : θ} {sm : SemMutexT} {th : Thread} {P : θ → Thread → Prop} (ht : P t th)
    (ho : ∀ u, u ≠ t → P u (s.threads u)) : ∀ u, P u ((s.move t sm th).threads u) :=
  (Function.forall_update_iff _ P).2 ⟨ht, ho⟩

def step (s : State θ) : Act θ → Option (State θ)
  | .callLock t =>
    let th := s.threads t
    if th.pc = .out then some (s.move t s.sm { th with pc := .lockWait, inPair := true }) else none
  | .callUnlock t =>
    let th := s.threads t
    if th.pc = .out then some (s.move t s.sm { th with pc := .unlockGetvalue, inPair := false }) else none
  | .next t => (threadStep (T.gettid t) s.sm (s.threads t)).map fun r => s.move t r.1 r.2

theorem step_next {s s' : State θ} {t : θ} :
    step T s (.next t) = some s' ↔
      ∃ sm th, threadStep (T.gettid t) s.sm (s.threads t) = some (sm, th) ∧ s' = s.move t sm th := by
  simp only [step, Option.map_eq_some_iff, Prod.exists]
  constructor
  · rintro ⟨sm, th, h, rfl⟩; exact ⟨sm, th, h, rfl⟩
  · rintro ⟨sm, th, h, rfl⟩; exact ⟨sm, th, h, rfl⟩

/-- A call: the thread was outside and is now about to execute the first statement. -/
theorem step_call {s s' : State θ} {a : Act θ} (ha : ∀ t, a ≠ .next t) (h : step T s a = some s') :
    ∃ t pc b, (s.threads t).pc = .out ∧ (pc = .lockWait ∨ pc = .unlockGetvalue) ∧
      s' = s.move t s.sm { s.threads t with pc := pc, inPair := b } := by
  cases a with
  | callLock t =>
    simp only [step, Option.ite_none_right_eq_some, Option.some.injEq] at h
    exact ⟨t, _, _, h.1, .inl rfl, h.2.symm⟩
  | callUnlock t =>
    simp only [step, Option.ite_none_right_eq_some, Option.some.injEq] at h
    exact ⟨t, _, _, h.1, .inr rfl, h.2.symm⟩
  | next t => exact absurd rfl (ha t)

/-- After `sem_mutex_init`, with every thread outside. -/
def Init (s : State θ) : Prop :=
  (∃ sm₀ ret, semMutexInit (some sm₀) ret = some s.sm) ∧
    ∀ t, s.threads t = { pc := .out, held := false, inPair := false, ignored := 0 }

/-! ## Two threads -/

/-- Two threads, with the kernel tids `1` and `2`. -/
def twoTids : Tids (Fin 2) where
  gettid t := t.val + 1
  inj _ _ h := Fin.ext (Nat.add_right_cancel h)
  ne_zero _ := Nat.succ_ne_zero _

def twoStart : State (Fin 2) where
  sm := { sem := 1, lwp := 0 }
  threads _ := { pc := .out, held := false, inPair := false, ignored := 0 }

theorem twoStart_init : Init twoStart := ⟨⟨⟨7, 7⟩, 0, rfl⟩, fun _ => rfl⟩

/-- Thread `0` and then thread `1` lock and unlock. -/
def quietRun : List (Act (Fin 2)) :=
  [.callLock 0, .next 0, .next 0, .callUnlock 0, .next 0, .next 0, .next 0, .next 0,
    .callLock 1, .next 1, .next 1, .callUnlock 1, .next 1, .next 1, .next 1, .next 1]

/-- Thread `0` locks, thread `1` unlocks without having locked, and thread `0` unlocks up to `sem_post`. -/
def strayRun : List (Act (Fin 2)) :=
  [.callLock 0, .next 0, .next 0, .callUnlock 1, .next 1, .next 1, .callUnlock 0, .next 0, .next 0]

/-- Thread `0` locks and unlocks up to `sem_post`, thread `1` locks and writes `lwp`, thread `0` clears it, and
thread `1` unlocks. -/
def lateRun : List (Act (Fin 2)) :=
  [.callLock 0, .next 0, .next 0, .callUnlock 0, .next 0, .next 0, .next 0,
    .callLock 1, .next 1, .next 1, .next 0, .callUnlock 1, .next 1, .next 1]

end SystemFunc.SemMutex
