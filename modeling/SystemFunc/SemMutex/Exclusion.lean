import SystemFunc.Lib.Crowd
import SystemFunc.SemMutex.Defs

/-!
# Mutual exclusion, whatever the threads call

A thread that does not hold the lock cannot get past the two guards of `sem_mutex_unlock`: its tid is in `lwp` only
from its own write of it to its own `lwp = 0` (`ThreadOk.lwp`), and in between it has the lock or is about to clear
`lwp`, not testing it. So only holders post, and the value of the semaphore and the number of holders sum up to `1`
(`Inv`, `inv_reach`).
-/

namespace SystemFunc.SemMutex

variable {θ : Type*} [Fintype θ] {T : Tids θ}

/-- What holds of one thread, given the value of `lwp`. -/
structure ThreadOk (gettid lwp : Nat) (th : Thread) : Prop where
  lwp : lwp = gettid → th.held = true ∨ th.pc = .unlockClear
  write : th.pc = .lockWrite → th.held = true
  post : th.pc = .unlockPost → th.held = true
  clear : th.pc = .unlockClear → th.held = false

/-- The number of threads that have passed `sem_wait` and not since executed `sem_post`. -/
def State.holders (s : State θ) : Nat := Crowd.count Thread.held s.threads

/-- The invariant. -/
structure Inv (T : Tids θ) (s : State θ) : Prop where
  count : s.sm.sem + s.holders = 1
  threads : ∀ t, ThreadOk (T.gettid t) s.sm.lwp (s.threads t)

/-! ## The steps of a thread -/

/-- A step of one thread, seen by the others: `lwp` keeps its value or becomes a value that is not theirs. -/
theorem ThreadOk.other {gettid lwp lwp' : Nat} {th : Thread} (h : ThreadOk gettid lwp th)
    (hl : lwp' = lwp ∨ lwp' ≠ gettid) : ThreadOk gettid lwp' th := by
  refine ⟨fun he => ?_, h.write, h.post, h.clear⟩
  rcases hl with rfl | hne
  · exact h.lwp he
  · exact absurd he hne

/-- One step of a thread: it moves the semaphore by what it changes in `held`, keeps its own invariant, and leaves in
`lwp` what was there, its own tid or `0`. -/
theorem threadStep_ok {gettid : Nat} {sm sm' : SemMutexT} {th th' : Thread} (h : ThreadOk gettid sm.lwp th)
    (h0 : gettid ≠ 0) (hfree : 0 < sm.sem → th.held = false)
    (hs : threadStep gettid sm th = some (sm', th')) :
    ThreadOk gettid sm'.lwp th' ∧ sm'.sem + th'.held.toNat = sm.sem + th.held.toNat ∧
      (sm'.lwp = sm.lwp ∨ sm'.lwp = gettid ∨ sm'.lwp = 0) := by
  unfold threadStep at hs
  cases hpc : th.pc with
  | out => simp [hpc] at hs
  | lockWait =>
    simp only [hpc, Option.ite_none_right_eq_some, Option.some.injEq, Prod.mk.injEq] at hs
    obtain ⟨hpos, rfl, rfl⟩ := hs
    refine ⟨⟨fun _ => .inl rfl, fun _ => rfl, fun _ => rfl, nofun⟩, ?_, .inl rfl⟩
    simp only [hfree hpos, Bool.toNat_true, Bool.toNat_false]
    omega
  | lockWrite =>
    simp only [hpc, Option.some.injEq, Prod.mk.injEq] at hs
    obtain ⟨rfl, rfl⟩ := hs
    exact ⟨⟨fun _ => .inl (h.write hpc), nofun, nofun, nofun⟩, rfl, .inr (.inl rfl)⟩
  | unlockGetvalue =>
    have hl : sm.lwp = gettid → th.held = true := fun he => (h.lwp he).resolve_right (by simp [hpc])
    simp only [hpc] at hs
    split at hs <;> cases hs <;>
      exact ⟨⟨fun he => .inl (hl he), nofun, nofun, nofun⟩, rfl, .inl rfl⟩
  | unlockTest =>
    have hl : sm.lwp = gettid → th.held = true := fun he => (h.lwp he).resolve_right (by simp [hpc])
    simp only [hpc] at hs
    split at hs
    · cases hs
      exact ⟨⟨fun he => .inl (hl he), nofun, nofun, nofun⟩, rfl, .inl rfl⟩
    · -- the tid was there, so the thread holds the lock
      rename_i ht
      cases hs
      have hheld : th.held = true := hl (not_not.1 ht).symm
      exact ⟨⟨fun _ => .inl hheld, nofun, fun _ => hheld, nofun⟩, rfl, .inl rfl⟩
  | unlockPost =>
    simp only [hpc, Option.some.injEq, Prod.mk.injEq] at hs
    obtain ⟨rfl, rfl⟩ := hs
    refine ⟨⟨fun _ => .inr rfl, nofun, nofun, fun _ => rfl⟩, ?_, .inl rfl⟩
    simp only [h.post hpc, Bool.toNat_true, Bool.toNat_false]
  | unlockClear =>
    simp only [hpc, Option.some.injEq, Prod.mk.injEq] at hs
    obtain ⟨rfl, rfl⟩ := hs
    exact ⟨⟨fun he => absurd he.symm h0, nofun, nofun, nofun⟩, rfl, .inr (.inr rfl)⟩

/-! ## The invariant -/

theorem inv_init {s : State θ} (h : Init s) : Inv T s := by
  obtain ⟨⟨sm₀, ret, hsm⟩, hth⟩ := h
  have hs : s.sm = { sem := 1, lwp := 0 } := by
    unfold semMutexInit at hsm
    simp only [Option.ite_none_left_eq_some, Option.some.injEq] at hsm
    exact hsm.2.symm
  constructor
  · simp [hs, State.holders, Crowd.count, hth]
  · intro t
    rw [hs, hth]
    exact ⟨fun he => absurd he.symm (T.ne_zero t), by simp, by simp, by simp⟩

/-- A free semaphore has no holders. -/
theorem Inv.free {s : State θ} (h : Inv T s) (hpos : 0 < s.sm.sem) (t : θ) : (s.threads t).held = false := by
  by_contra hne
  have hone : 0 < s.holders := Crowd.count_pos (Bool.eq_true_of_not_eq_false hne)
  have := h.count
  omega

/-- At most one thread holds the lock. -/
theorem Inv.unique {s : State θ} (h : Inv T s) {t u : θ} (ht : (s.threads t).held = true)
    (hu : (s.threads u).held = true) : t = u :=
  Crowd.eq_of_count_le_one (p := Thread.held) (f := s.threads) (by have := h.count; unfold State.holders at this; omega)
    ht hu

variable [DecidableEq θ]

theorem holders_move (s : State θ) (t : θ) (sm : SemMutexT) (th : Thread) :
    (s.move t sm th).holders + (s.threads t).held.toNat = s.holders + th.held.toNat :=
  Crowd.count_update t th

/-- A call moves only the place of the caller. -/
theorem inv_call {s : State θ} (h : Inv T s) {t : θ} {pc : Pc} {b : Bool} (hout : (s.threads t).pc = .out)
    (hpc : pc = .lockWait ∨ pc = .unlockGetvalue) :
    Inv T (s.move t s.sm { s.threads t with pc := pc, inPair := b }) := by
  constructor
  · have hc : _ = s.holders := Nat.add_right_cancel (holders_move s t s.sm { s.threads t with pc := pc, inPair := b })
    exact hc ▸ h.count
  · refine State.forall_move ?_ fun u _ => h.threads u
    have hl := (h.threads t).lwp
    rw [hout] at hl
    rcases hpc with rfl | rfl <;>
      exact ⟨fun he => .inl ((hl he).resolve_right (by simp)), nofun, nofun, nofun⟩

theorem inv_next {s : State θ} (h : Inv T s) {t : θ} {sm : SemMutexT} {th : Thread}
    (hs : threadStep (T.gettid t) s.sm (s.threads t) = some (sm, th)) : Inv T (s.move t sm th) := by
  obtain ⟨hok, hsem, hlwp⟩ := threadStep_ok (h.threads t) (T.ne_zero t) (fun hpos => h.free hpos t) hs
  constructor
  · have hc := holders_move s t sm th
    have hsum := h.count
    change sm.sem + _ = 1
    omega
  · refine State.forall_move hok fun u hu => (h.threads u).other ?_
    change sm.lwp = s.sm.lwp ∨ sm.lwp ≠ T.gettid u
    rcases hlwp with hl | hl | hl
    · exact .inl hl
    · exact .inr (by rw [hl]; exact fun he => hu (T.inj he).symm)
    · exact .inr (by rw [hl]; exact (T.ne_zero u).symm)

theorem inv_step {s s' : State θ} {a : Act θ} (h : Inv T s) (hs : step T s a = some s') : Inv T s' := by
  by_cases ha : ∃ t, a = .next t
  · obtain ⟨t, rfl⟩ := ha
    obtain ⟨sm, th, hth, rfl⟩ := (step_next T).1 hs
    exact inv_next h hth
  · obtain ⟨t, pc, b, hout, hpc, rfl⟩ := step_call T (fun t he => ha ⟨t, he⟩) hs
    exact inv_call h hout hpc

theorem inv_reach {s : State θ} (h : Steps.Reach Init (step T) s) : Inv T s :=
  h.inv (fun _ => inv_init) fun _ _ _ => inv_step

/-- **Mutual exclusion against any callers**: the value of the semaphore and the holders sum up to `1`, and `sem_post`
is executed by holders only. -/
theorem mutual_exclusion {s : State θ} (h : Steps.Reach Init (step T) s) :
    s.sm.sem + s.holders = 1 ∧ ∀ t, (s.threads t).pc = .unlockPost → (s.threads t).held = true :=
  ⟨(inv_reach h).count, fun t => ((inv_reach h).threads t).post⟩

theorem mutual_exclusion_strayRun : ∃ s, Steps.run (step twoTids) twoStart strayRun = some s ∧
    s.sm.sem + s.holders = 1 ∧ ∀ t, (s.threads t).pc = .unlockPost → (s.threads t).held = true := by
  obtain ⟨s, hs⟩ : ∃ s, Steps.run (step twoTids) twoStart strayRun = some s := ⟨_, rfl⟩
  exact ⟨s, hs, mutual_exclusion ⟨twoStart, strayRun, twoStart_init, hs⟩⟩

end SystemFunc.SemMutex
