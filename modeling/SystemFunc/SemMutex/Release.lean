import SystemFunc.SemMutex.Exclusion

/-!
# When the owner's unlock releases

`sem_mutex_unlock` clears `lwp` after `sem_post`, when the next thread may already have locked and written its own tid.
That thread's unlock then finds `0` in `lwp` and returns without `sem_post` (`unlock_ignored`).

- `unlock_releases`: without such a late clearing, every unlock of an owner executes `sem_post`;
- `lateClear_dooms`: after one, the owner never gets to `sem_post` again without an unlock that was ignored.
-/

namespace SystemFunc.SemMutex

variable {θ : Type*} {T : Tids θ}

/-- Calls in proper pairs: each thread calls lock, unlock, lock, unlock and so on. -/
def ProperCall (s : State θ) : Act θ → Prop
  | .callLock t => (s.threads t).inPair = false
  | .callUnlock t => (s.threads t).inPair = true
  | .next _ => True

instance (s : State θ) : DecidablePred (ProperCall s)
  | .callLock t => inferInstanceAs (Decidable ((s.threads t).inPair = false))
  | .callUnlock t => inferInstanceAs (Decidable ((s.threads t).inPair = true))
  | .next _ => inferInstanceAs (Decidable True)

/-- The thread has written its tid to `lwp` and not yet tested it. -/
def Thread.written (th : Thread) : Prop := th.held = true ∧ th.pc ≠ .lockWrite ∧ th.pc ≠ .unlockPost

instance (th : Thread) : Decidable th.written :=
  inferInstanceAs (Decidable (th.held = true ∧ th.pc ≠ .lockWrite ∧ th.pc ≠ .unlockPost))

/-- A thread executes `lwp = 0` while `t` is between its write of `lwp` and its test of it. -/
def LateClear (s : State θ) (t : θ) : Act θ → Prop
  | .next u => (s.threads u).pc = .unlockClear ∧ (s.threads t).written
  | _ => False

instance (s : State θ) (t : θ) : DecidablePred (LateClear s t)
  | .next u => inferInstanceAs (Decidable ((s.threads u).pc = .unlockClear ∧ (s.threads t).written))
  | .callLock _ => inferInstanceAs (Decidable False)
  | .callUnlock _ => inferInstanceAs (Decidable False)

/-- No owner's unlock has returned without `sem_post`. -/
def AllReleased (s : State θ) : Prop := ∀ t, (s.threads t).ignored = 0

/-- What an owner relies on: its tid stays in `lwp` until it has tested it. -/
def Kept (T : Tids θ) (s : State θ) : Prop := ∀ t, (s.threads t).written → s.sm.lwp = T.gettid t

theorem kept_init {s : State θ} (h : Init s) : Kept T s ∧ AllReleased s :=
  ⟨fun t ht => absurd ht.1 (by simp [h.2 t]), fun t => by simp [h.2 t]⟩

section Release

variable [Fintype θ] [DecidableEq θ]

/-- One step of a thread that finds its tid in `lwp` when it tests it. -/
theorem threadStep_kept {gettid : Nat} {sm sm' : SemMutexT} {th th' : Thread} (hok : ThreadOk gettid sm.lwp th)
    (hw : th.written → sm.lwp = gettid) (hfree : 0 < sm.sem → th.held = false)
    (hs : threadStep gettid sm th = some (sm', th')) :
    th'.ignored = th.ignored ∧ (th'.written → sm'.lwp = gettid) := by
  unfold threadStep at hs
  cases hpc : th.pc with
  | out => simp [hpc] at hs
  | lockWait =>
    simp only [hpc, Option.ite_none_right_eq_some, Option.some.injEq, Prod.mk.injEq] at hs
    obtain ⟨_, rfl, rfl⟩ := hs
    exact ⟨rfl, fun h => absurd rfl h.2.1⟩
  | lockWrite =>
    simp only [hpc, Option.some.injEq, Prod.mk.injEq] at hs
    obtain ⟨rfl, rfl⟩ := hs
    exact ⟨rfl, fun _ => rfl⟩
  | unlockGetvalue =>
    simp only [hpc] at hs
    split at hs
    · rename_i hpos
      cases hs
      simp [Thread.giveUp, Thread.written, hfree hpos]
    · cases hs
      exact ⟨rfl, fun h => hw ⟨h.1, by simp [hpc], by simp [hpc]⟩⟩
  | unlockTest =>
    simp only [hpc] at hs
    split at hs
    · rename_i hne
      cases hs
      have hheld : th.held = false := by
        by_contra hc
        exact hne (hw ⟨Bool.eq_true_of_not_eq_false hc, by simp [hpc], by simp [hpc]⟩).symm
      simp [Thread.giveUp, Thread.written, hheld]
    · cases hs
      exact ⟨rfl, fun h => absurd rfl h.2.2⟩
  | unlockPost =>
    simp only [hpc, Option.some.injEq, Prod.mk.injEq] at hs
    obtain ⟨rfl, rfl⟩ := hs
    exact ⟨rfl, fun h => absurd h.1 (by simp)⟩
  | unlockClear =>
    simp only [hpc, Option.some.injEq, Prod.mk.injEq] at hs
    obtain ⟨rfl, rfl⟩ := hs
    exact ⟨rfl, fun h => absurd h.1 (by simp [hok.clear hpc])⟩

/-- A step leaves `lwp` alone, or it is the write of a holder, or the clearing. -/
theorem threadStep_lwp {gettid : Nat} {sm sm' : SemMutexT} {th th' : Thread}
    (hs : threadStep gettid sm th = some (sm', th')) :
    sm'.lwp = sm.lwp ∨ (th.pc = .lockWrite ∧ sm'.lwp = gettid) ∨ (th.pc = .unlockClear ∧ sm'.lwp = 0) := by
  unfold threadStep at hs
  cases hpc : th.pc <;> simp only [hpc] at hs
  case out => cases hs
  case lockWrite => cases hs; exact .inr (.inl ⟨rfl, rfl⟩)
  case unlockClear => cases hs; exact .inr (.inr ⟨rfl, rfl⟩)
  case unlockPost => cases hs; exact .inl rfl
  all_goals
    split at hs <;> cases hs
    all_goals exact .inl rfl

theorem kept_step {s s' : State θ} {a : Act θ} (hi : Inv T s) (h : Kept T s ∧ AllReleased s)
    (hc : ∀ t, ¬LateClear s t a) (hs : step T s a = some s') : Kept T s' ∧ AllReleased s' := by
  obtain ⟨hk, hr⟩ := h
  by_cases ha : ∃ u, a = .next u
  · obtain ⟨u, rfl⟩ := ha
    obtain ⟨sm, th, hth, rfl⟩ := (step_next T).1 hs
    obtain ⟨hig, hw⟩ := threadStep_kept (hi.threads u) (hk u) (fun hpos => hi.free hpos u) hth
    constructor
    · refine State.forall_move (P := fun t th => th.written → sm.lwp = T.gettid t) hw fun t htu ht => ?_
      rcases threadStep_lwp hth with hl | ⟨hpc, -⟩ | ⟨hpc, -⟩
      · rw [hl]; exact hk t ht
      · -- a second holder
        exact absurd (hi.unique ht.1 ((hi.threads u).write hpc)) htu
      · exact absurd ⟨hpc, ht⟩ (hc t)
    · exact State.forall_move (P := fun _ th => th.ignored = 0) (hig.trans (hr u)) fun t _ => hr t
  · obtain ⟨u, pc, b, hout, hpc, rfl⟩ := step_call T (fun t he => ha ⟨t, he⟩) hs
    constructor
    · exact State.forall_move (P := fun t th => th.written → s.sm.lwp = T.gettid t)
        (fun hw => hk u ⟨hw.1, by simp [hout], by simp [hout]⟩) fun t _ => hk t
    · exact State.forall_move (P := fun _ th => th.ignored = 0) (hr u) fun t _ => hr t

/-- **The owner's unlock releases**, in every run in which no thread clears `lwp` between another thread's write and
test of it. -/
theorem unlock_releases {s : State θ} {as : List (Act θ)} (hs : Init s)
    (hm : Steps.Meets (step T) (fun s a => ∀ t, ¬LateClear s t a) s as) : Steps.Along (step T) AllReleased s as :=
  (Steps.along_of_meets (I := Inv T) (fun _ _ _ => inv_step) (fun _ _ _ hi hp hc => kept_step hi hp hc)
    (inv_init hs) (kept_init hs) hm).mono fun _ h => h.2

theorem unlock_releases_quietRun : Steps.Along (step twoTids) AllReleased twoStart quietRun :=
  unlock_releases twoStart_init (by decide)

/-! ## After a late clearing -/

/-- The thread will not find its tid in `lwp`, or has already not found it. -/
def Doomed (gettid lwp : Nat) (th : Thread) : Prop := (th.written ∧ lwp ≠ gettid) ∨ 0 < th.ignored

/-- The own steps of a doomed thread lead to an ignored unlock. -/
theorem threadStep_doomed {gettid : Nat} {sm sm' : SemMutexT} {th th' : Thread} (hok : ThreadOk gettid sm.lwp th)
    (hfree : 0 < sm.sem → th.held = false) (hd : Doomed gettid sm.lwp th)
    (hs : threadStep gettid sm th = some (sm', th')) : Doomed gettid sm'.lwp th' := by
  unfold threadStep at hs
  rcases hd with ⟨⟨hheld, hnw, hnp⟩, hne⟩ | hig
  · have hsem : ¬0 < sm.sem := fun h => by simp [hfree h] at hheld
    cases hpc : th.pc with
    | out => simp [hpc] at hs
    | lockWait => simp [hpc, hsem] at hs
    | lockWrite => exact absurd hpc hnw
    | unlockGetvalue =>
      simp only [hpc, gt_iff_lt, hsem, ↓reduceIte, Option.some.injEq, Prod.mk.injEq] at hs
      obtain ⟨rfl, rfl⟩ := hs
      exact .inl ⟨⟨hheld, by simp, by simp⟩, hne⟩
    | unlockTest =>
      simp only [hpc, hne.symm, ne_eq, not_false_eq_true, ↓reduceIte, Option.some.injEq, Prod.mk.injEq] at hs
      obtain ⟨rfl, rfl⟩ := hs
      exact .inr (by simp [Thread.giveUp, hheld])
    | unlockPost => exact absurd hpc hnp
    | unlockClear => simp [hok.clear hpc] at hheld
  · right
    cases hpc : th.pc <;> simp only [hpc] at hs
    case out => cases hs
    case lockWrite => cases hs; exact hig
    case unlockPost => cases hs; exact hig
    case unlockClear => cases hs; exact hig
    all_goals
      split at hs <;> cases hs
      all_goals first | exact hig | exact Nat.lt_add_right _ hig

theorem doomed_step {s s' : State θ} {a : Act θ} {t : θ} (hi : Inv T s)
    (hd : Doomed (T.gettid t) s.sm.lwp (s.threads t)) (hs : step T s a = some s') :
    Doomed (T.gettid t) s'.sm.lwp (s'.threads t) := by
  by_cases ha : ∃ u, a = .next u
  · obtain ⟨u, rfl⟩ := ha
    obtain ⟨sm, th, hth, rfl⟩ := (step_next T).1 hs
    refine State.forall_move (P := fun v th => v = t → Doomed (T.gettid t) sm.lwp th) ?_ ?_ t rfl
    · rintro rfl
      exact threadStep_doomed (hi.threads u) (fun hpos => hi.free hpos u) hd hth
    · rintro v hvu rfl
      rcases hd with ⟨hw, hne⟩ | hig
      · left
        refine ⟨hw, ?_⟩
        rcases threadStep_lwp hth with hl | ⟨hpc, -⟩ | ⟨-, hl⟩
        · rw [hl]; exact hne
        · exact absurd (hi.unique hw.1 ((hi.threads u).write hpc)) hvu
        · rw [hl]; exact (T.ne_zero v).symm
      · exact .inr hig
  · obtain ⟨u, pc, b, hout, hpc, rfl⟩ := step_call T (fun u he => ha ⟨u, he⟩) hs
    refine State.forall_move (P := fun v th => v = t → Doomed (T.gettid t) s.sm.lwp th) ?_ (fun v _ he => he ▸ hd) t rfl
    rintro rfl
    rcases hd with ⟨hw, hne⟩ | hig
    · exact .inl ⟨⟨hw.1, by rcases hpc with rfl | rfl <;> simp, by rcases hpc with rfl | rfl <;> simp⟩, hne⟩
    · exact .inr hig

/-- **A late clearing is fatal**: from then on, the owner that wrote `lwp` does not get to `sem_post` unless an unlock
of its has been ignored before. -/
theorem lateClear_dooms {s s₁ s₂ : State θ} {a : Act θ} {as : List (Act θ)} {t : θ}
    (hs : Steps.Reach Init (step T) s) (hc : LateClear s t a) (h₁ : step T s a = some s₁)
    (h₂ : Steps.run (step T) s₁ as = some s₂) (hpost : (s₂.threads t).pc = .unlockPost) :
    0 < (s₂.threads t).ignored := by
  have hi := inv_reach hs
  have hd₁ : Doomed (T.gettid t) s₁.sm.lwp (s₁.threads t) := by
    cases a with
    | next u =>
      obtain ⟨hpc, hw⟩ := hc
      obtain ⟨sm, th, hth, rfl⟩ := (step_next T).1 h₁
      simp only [threadStep, hpc, Option.some.injEq, Prod.mk.injEq] at hth
      obtain ⟨rfl, rfl⟩ := hth
      refine State.forall_move (P := fun v th => v = t → Doomed (T.gettid t) 0 th) ?_ ?_ t rfl
      · rintro rfl
        exact absurd hw.1 (by simp [(hi.threads u).clear hpc])
      · rintro v - rfl
        exact .inl ⟨hw, (T.ne_zero v).symm⟩
    | callLock u => exact hc.elim
    | callUnlock u => exact hc.elim
  have hrun := Steps.run_inv (P := fun s => Inv T s ∧ Doomed (T.gettid t) s.sm.lwp (s.threads t))
    (fun _ _ _ h hs => ⟨inv_step h.1 hs, doomed_step h.1 h.2 hs⟩) ⟨inv_step hi h₁, hd₁⟩ h₂
  rcases hrun.2 with ⟨hw, -⟩ | hig
  · exact absurd hpost hw.2.2
  · exact hig

end Release

/-! ## The run with an ignored unlock -/

/-- **An owner's unlock that does not release**: all calls are in proper pairs, and the unlock of thread `1` returns
without `sem_post`. -/
theorem unlock_ignored :
    Init twoStart ∧ Steps.Meets (step twoTids) ProperCall twoStart lateRun ∧
      ∃ s, Steps.run (step twoTids) twoStart lateRun = some s ∧ ¬AllReleased s :=
  ⟨twoStart_init, by decide, _, rfl, by unfold AllReleased; decide⟩

end SystemFunc.SemMutex
