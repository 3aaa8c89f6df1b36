import SystemFunc.ThreadPool.Account

/-!
# Shrinking

A pass of the control thread asks for as many exits as there are workers above the size it aims at, and adds them to
those that are still pending. `overshrinks` describes a pass for which this is too much. **`requests_iff`**: in a pool
that is not shutting down the pending exits leave `min_thread_cnt` workers along a run exactly when no pass of the run
is such a pass, and so does the number of workers (`min_le_cur`). `deserted` is a pool that two passes in a row have
left without workers.
-/

namespace SystemFunc.ThreadPool

open Steps

variable {τ : Type} {R : BusyRate} {s s' : Pool τ} {tp : ThreadPoolT τ} {ws : List (Worker τ)}

/-- The pending exits leave `min_thread_cnt` workers. -/
def RequestsFit (tp : ThreadPoolT τ) : Prop :=
  tp.shutdownFlag = false → tp.minThreadCnt + tp.waitExitThreadCnt ≤ tp.curThreadCnt

theorem requestsFit_request {n : Nat} : RequestsFit { tp with waitExitThreadCnt := n } ↔
    (tp.shutdownFlag = false → tp.minThreadCnt + n ≤ tp.curThreadCnt) := Iff.rfl

/-- A pass asks for exits with some pending already, and aims at less than the pending ones leave. -/
def overshrinks (R : BusyRate) (s : Pool τ) : Act τ → Bool
  | .tick _ =>
    !s.tp.shutdownFlag && isNeedExpand R (some s.tp) = 0 && isNeedShrink R (some s.tp) ≠ 0 &&
      s.tp.waitExitThreadCnt ≠ 0 && 2 * s.tp.actThreadCnt < s.tp.minThreadCnt + s.tp.waitExitThreadCnt
  | _ => false

theorem overshrinks_tick {creates : List (Except Nat Nat)} : overshrinks R s (.tick creates) = true ↔
    s.tp.shutdownFlag = false ∧ isNeedExpand R (some s.tp) = 0 ∧ isNeedShrink R (some s.tp) ≠ 0 ∧
      s.tp.waitExitThreadCnt ≠ 0 ∧ 2 * s.tp.actThreadCnt < s.tp.minThreadCnt + s.tp.waitExitThreadCnt := by
  simp only [overshrinks, Bool.and_eq_true, Bool.not_eq_true', decide_eq_true_eq, and_assoc]

/-- As the counters are small, `ShrinkStrategy` is the difference to the size it aims at. -/
theorem shrinkStrategy_eq (h : Account tp ws) (hmin : tp.minThreadCnt ≤ tp.curThreadCnt) :
    shrinkStrategy tp = (tp.curThreadCnt - max (2 * tp.actThreadCnt) tp.minThreadCnt : Nat) := by
  have hcur : tp.curThreadCnt < 2 ^ 28 := Nat.lt_of_le_of_lt h.cur_le_slots h.slots_lt
  have hact := h.act_le
  have hdouble : s32 ((tp.actThreadCnt : Int) * 2) = tp.actThreadCnt * 2 := s32_of_lt (by omega) (by omega)
  have hmin' : s32 (tp.minThreadCnt : Int) = tp.minThreadCnt := s32_of_lt (by omega) (by omega)
  have hcmp : u32 ((tp.actThreadCnt : Int) * 2) = tp.actThreadCnt * 2 := by
    have := u32_nat (n := tp.actThreadCnt * 2) (by omega)
    simpa using this
  unfold shrinkStrategy
  simp only [hdouble, hcmp, hmin']
  split
  · rename_i hlt
    rw [s32_of_lt (by omega) (by omega), Nat.max_eq_right (by omega)]
    split <;> omega
  · rename_i hge
    rw [s32_of_lt (by omega) (by omega), Nat.max_eq_left (by omega)]
    split <;> omega

/-! ## The steps -/

/-- What a request makes of the pending exits. -/
theorem request_eq (h : Account tp ws) (hmin : tp.minThreadCnt + tp.waitExitThreadCnt ≤ tp.curThreadCnt) :
    u32 ((tp.waitExitThreadCnt : Int) + shrinkStrategy tp) =
      tp.waitExitThreadCnt + (tp.curThreadCnt - max (2 * tp.actThreadCnt) tp.minThreadCnt) := by
  have hcur : tp.curThreadCnt < 2 ^ 28 := Nat.lt_of_le_of_lt h.cur_le_slots h.slots_lt
  rw [shrinkStrategy_eq h (by omega), ← Nat.cast_add]
  exact u32_nat (by omega)

/-- A pass over a running pool leaves the record that its resizing leaves. -/
theorem tick_tp (hs : s.tp.shutdownFlag = false) : (wakeWorkers (drain s)).tp = s.tp := by
  rw [drain_of_running hs, wakeWorkers_eq]

/-- What a pass over a running pool does to the record. -/
theorem tick_running {creates : List (Except Nat Nat)} {s₁ : Pool τ} (hs : s.tp.shutdownFlag = false)
    (hr : resize R creates s = .ok s₁) : (wakeWorkers (drain s₁)).tp = s₁.tp := by
  apply tick_tp
  obtain ⟨_, _, _, _, _, _, rfl⟩ := resize_frame hr
  exact hs

/-- Only a pass that overshrinks asks for too many exits. -/
theorem requestsFit_step {a : Act τ} (ha : Account s.tp s.workers) (h : RequestsFit s.tp)
    (hc : overshrinks R s a = false) (hstep : step R s a = some s') : RequestsFit s'.tp := by
  cases step_moves hstep with
  | quit => exact fun hs => nomatch hs
  | @tick gotSig creates s₁ _ _ hr =>
    cases hs : s.tp.shutdownFlag with
    | true =>
      intro hs'
      rw [(tick_ticked hr).shutdownFlag, hs] at hs'
      cases hs'
    | false =>
      have hfit := h hs
      show RequestsFit (wakeWorkers (drain s₁)).tp
      rw [tick_running hs hr]
      rcases resize_cases hr with ⟨rfl, -⟩ | ⟨-, ⟨-, he⟩ | ⟨hexp, hshr, -, rfl⟩⟩
      · exact h
      · have hroom := expandStrategy_le ha.cur_le
        have hcur := (expandLoop_account 0 ha (by omega) he).cur_ge
        obtain ⟨tidList, cur, new, -, rfl⟩ := expandLoop_frame he
        exact fun _ => Nat.le_trans hfit hcur
      · rw [requestsFit_request, request_eq ha hfit]
        have hsmall : s.tp.waitExitThreadCnt = 0 ∨
            s.tp.minThreadCnt + s.tp.waitExitThreadCnt ≤ 2 * s.tp.actThreadCnt := by
          by_contra hno
          rw [not_or, Nat.not_le] at hno
          rw [overshrinks_tick.2 ⟨hs, hexp, hshr, hno⟩] at hc
          cases hc
        omega
  | @leave i pick w idx hw hl hx _ hf hi =>
    intro hs
    have hs₀ : s.tp.shutdownFlag = false := hs
    have hfit := h hs₀
    have hcur := ha.leave_cur idx.toNat hw hl
    have hwait := ha.leave_wait i idx.toNat w (wait_ne_zero_of_exit hx hs₀)
    show s.tp.minThreadCnt + _ ≤ _
    omega
  | call task => cases task <;> exact h
  | _ => exact h

/-- Such a pass always does. -/
theorem overshrinks_step {a : Act τ} (ha : Account s.tp s.workers) (h : RequestsFit s.tp) (h' : RequestsFit s'.tp)
    (hstep : step R s a = some s') : overshrinks R s a = false := by
  apply Bool.eq_false_iff.2
  intro hc
  cases step_moves hstep with
  | ctrlReturn _ hs =>
    obtain ⟨hs', -⟩ := overshrinks_tick.1 hc
    rw [hs'] at hs; cases hs
  | @tick gotSig creates s₁ _ _ hr =>
    obtain ⟨hs, hexp, hshr, hne, hlt⟩ := overshrinks_tick.1 hc
    have hfit := h hs
    have hrecord : RequestsFit s₁.tp := tick_running hs hr ▸ h'
    have heq := shrinkStrategy_eq ha (by omega)
    rcases resize_cases hr with ⟨-, hs' | hshr' | hnone⟩ | ⟨-, ⟨hexp', -⟩ | ⟨-, -, -, rfl⟩⟩
    · rw [hs] at hs'; cases hs'
    · exact hshr hshr'
    · omega
    · exact hexp' hexp
    · rw [requestsFit_request, request_eq ha hfit] at hrecord
      have := hrecord hs
      omega
  | _ => cases hc

/-- **The pending exits leave the least number of workers along a run exactly when no pass of it overshrinks.** -/
theorem requests_iff (h : Init s) (as : List (Act τ)) :
    Along (step R) (fun s => RequestsFit s.tp) s as ↔ Meets (step R) (fun s a => overshrinks R s a = false) s as := by
  obtain ⟨idx, hc⟩ := account_init h
  refine along_iff_meets (I := fun s : Pool τ => Account s.tp s.workers) (fun _ _ _ => account_step)
    (fun _ _ _ hi hp hc ht => requestsFit_step hi hp hc ht) (fun _ _ _ hi hp hp' ht => overshrinks_step hi hp hp' ht)
    hc.account ?_
  intro _
  rw [hc.wait]
  exact Nat.le_of_eq hc.cur_add.symm

/-- The pool keeps its least number of workers, which is not zero. -/
def KeepsMin (tp : ThreadPoolT τ) : Prop :=
  tp.shutdownFlag = false → tp.minThreadCnt ≤ tp.curThreadCnt ∧ 0 < tp.curThreadCnt

instance (tp : ThreadPoolT τ) : Decidable (KeepsMin tp) :=
  inferInstanceAs (Decidable (_ → tp.minThreadCnt ≤ tp.curThreadCnt ∧ 0 < tp.curThreadCnt))

/-- No section writes `min_thread_cnt`. -/
theorem minThreadCnt_step {a : Act τ} (hstep : step R s a = some s') : s'.tp.minThreadCnt = s.tp.minThreadCnt := by
  cases step_moves hstep with
  | tick _ _ hr => exact (tick_ticked hr).minThreadCnt
  | call task => cases task <;> rfl
  | _ => rfl

/-- **A run without such passes keeps the least number of workers**, whatever the busy rate is. -/
theorem min_le_cur (h : Init s) {as : List (Act τ)}
    (hm : Meets (step R) (fun s a => overshrinks R s a = false) s as) :
    Along (step R) (fun s => KeepsMin s.tp) s as := by
  obtain ⟨idx, hc⟩ := account_init h
  have hfit := (requests_iff h as).2 hm
  have hpos : Along (step R) (fun s => 1 ≤ s.tp.minThreadCnt) s as := by
    refine along_inv (P := fun s : Pool τ => 1 ≤ s.tp.minThreadCnt) ?_ hc.min_pos as
    intro s a t hs ht
    rw [minThreadCnt_step ht]
    exact hs
  refine (hfit.and hpos).mono fun t ⟨hreq, hone⟩ hs => ?_
  have hle := hreq hs
  omega

/-- Two passes, with a shrink by the first that is over before the second. -/
def shrinkTwiceRun : List (Act Nat) :=
  expandRun ++ [.done 0, .work 0 none, .signal .again, .tick [], .work 0 none, .signal .again, .tick []]

theorem min_le_cur_shrinkTwice : Along (step ieeeRate) (fun s => KeepsMin s.tp) (smallPool 2) shrinkTwiceRun :=
  min_le_cur smallPool_two (by decide)

/-- Both workers sleep through two passes, each of which asks for one exit. -/
def desertRun : List (Act Nat) :=
  [.work 1 none, .done 0, .work 0 none, .signal .again, .tick [], .signal .again, .tick [], .work 0 none, .work 1 none]

def deserted : Pool Nat where
  tp := {
    taskQueue := { head := 1, rear := 1, maxSize := 4, curSize := 0, plist := [some 100, none, none, none] }
    tidList := [0, 0]
    minThreadCnt := 1
    maxThreadCnt := 2
    curThreadCnt := 0
    actThreadCnt := 0
    waitExitThreadCnt := 0
    shutdownFlag := false }
  ctrl := .sleeping
  workers := [{ tid := 7, pc := .gone }, { tid := 8, pc := .gone }]
  callers := [{ task := 100, pc := .returned threadPoolSuccess }]
  added := [100]
  taken := [100]

theorem pool_deserted : ¬∀ s : Pool Nat, Reach Init (step ieeeRate) s → KeepsMin s.tp := by
  intro h
  have hreach : Reach Init (step ieeeRate) deserted := expanded_reach.run desertRun rfl
  exact absurd (h deserted hreach) (by decide)

end SystemFunc.ThreadPool
