import Mathlib.Logic.Function.Iterate
import SystemFunc.ThreadPool.Shrink

/-!
# The size of the pool settles

With a constant number of busy workers, and requested exits that complete before the next pass, a pass of the control
thread is the function `pass` of the record; it is what `resize` does to the workers that are not asked to exit
(`resize_pass`). The busy rate is compared as a fraction (`exactRate`).

A pass grows the pool by up to five, or shrinks it to the size it aims at, or leaves it (`pass_cases`). The size it aims
at stays (`settled_target`), and the pool can only grow `(max - cur) / 5` times; so it settles (`settles`).
-/

namespace SystemFunc.ThreadPool

variable {τ : Type} {R : BusyRate} {tp : ThreadPoolT τ}

/-- The tests `rate >= 0.7` and `rate < 0.3` of the exact rate. -/
def exactRate : BusyRate where
  ge70 act cur := decide (7 * cur ≤ 10 * act)
  lt30 act cur := decide (10 * act < 3 * cur)

/-- Lines 171 to 201, when every thread is created and every requested exit has completed. -/
def pass (R : BusyRate) (tp : ThreadPoolT τ) : ThreadPoolT τ :=
  if isNeedExpand R (some tp) ≠ 0 then { tp with curThreadCnt := u32 (tp.curThreadCnt + (expandStrategy tp).toNat) }
  else if isNeedShrink R (some tp) ≠ 0 then
    let shrinkCnt := shrinkStrategy tp
    if shrinkCnt > 0 then { tp with curThreadCnt := u32 (tp.curThreadCnt - shrinkCnt) } else tp
  else tp

/-- `1 <= min <= cur <= max`, as `unsigned int` values, and `act` workers are busy. -/
structure Sized (tp : ThreadPoolT τ) : Prop where
  min_pos : 1 ≤ tp.minThreadCnt
  min_le : tp.minThreadCnt ≤ tp.curThreadCnt
  cur_le : tp.curThreadCnt ≤ tp.maxThreadCnt
  max_lt : tp.maxThreadCnt < 2 ^ 32
  act_le : tp.actThreadCnt ≤ tp.curThreadCnt

/-- The size that a pass shrinks to. -/
def target (tp : ThreadPoolT τ) : Nat := max (2 * tp.actThreadCnt) tp.minThreadCnt

/-- After so many passes the size has settled. -/
def settleTime (tp : ThreadPoolT τ) : Nat := (tp.maxThreadCnt - tp.curThreadCnt + 4) / 5 + 1

/-! ## The section of the control thread -/

section Section

variable {s s' : Pool τ} {creates : List (Except Nat Nat)}

/-- The loop finds an unused slot every time. -/
theorem expandLoop_cur {n : Nat} (h : Account s.tp s.workers) (hle : s.tp.curThreadCnt + n ≤ s.tp.maxThreadCnt)
    (he : expandLoop n creates s = .ok s') : s'.tp.curThreadCnt = s.tp.curThreadCnt + n := by
  have hP : Grown s 0 s' ∧ s'.tp.curThreadCnt + 0 = s.tp.curThreadCnt + n := by
    refine expandLoop_inv (P := fun s' k => Grown s k s' ∧ s'.tp.curThreadCnt + k = s.tp.curThreadCnt + n) ?_ ?_
      ⟨⟨h, Nat.le_refl _, hle, rfl, rfl⟩, rfl⟩ he
    · rintro s₁ k idx tid ⟨hg, hk⟩ hidx hne hf
      rcases tidScan_ok hidx with ⟨h1, -⟩ | ⟨j, rfl, hj⟩
      · exact absurd h1 hne
      · refine ⟨hg.spawn hj hf, ?_⟩
        have hroom := hg.cur_le
        have hmax := hg.account.max_lt
        show u32 ((s₁.tp.curThreadCnt : Int) + 1) + k = _
        rw [u32_succ (by omega)]
        omega
    · rintro s₁ k ⟨hg, hk⟩ hnone
      have hroom := hg.cur_le
      exact absurd hnone (hg.account.getUnusedTidIdx_ne (by omega))
  exact hP.2

theorem pass_expand (hexp : isNeedExpand R (some tp) ≠ 0) :
    pass R tp = { tp with curThreadCnt := u32 (tp.curThreadCnt + (expandStrategy tp).toNat) } := by
  rw [pass, if_pos hexp]

theorem pass_shrink (hexp : ¬isNeedExpand R (some tp) ≠ 0) (hshr : isNeedShrink R (some tp) ≠ 0)
    (hpos : 0 < shrinkStrategy tp) :
    pass R tp = { tp with curThreadCnt := u32 (tp.curThreadCnt - shrinkStrategy tp) } := by
  rw [pass, if_neg hexp, if_pos hshr]
  exact if_pos hpos

theorem pass_stay (hexp : ¬isNeedExpand R (some tp) ≠ 0)
    (hno : isNeedShrink R (some tp) = 0 ∨ shrinkStrategy tp ≤ 0) : pass R tp = tp := by
  rw [pass, if_neg hexp]
  rcases hno with hno | hno
  · exact if_neg (not_not.2 hno)
  · split
    · exact if_neg (Int.not_lt.2 hno)
    · rfl

/-- **A pass is what the section does** to the workers that are not asked to exit. -/
theorem resize_pass (h : Account s.tp s.workers) (hmin : s.tp.minThreadCnt ≤ s.tp.curThreadCnt)
    (hs : s.tp.shutdownFlag = false) (hwait : s.tp.waitExitThreadCnt = 0) (hr : resize R creates s = .ok s') :
    s'.tp.curThreadCnt = (pass R s.tp).curThreadCnt + s'.tp.waitExitThreadCnt := by
  have hcur := h.cur_lt
  by_cases hexp : isNeedExpand R (some s.tp) ≠ 0
  · rw [resize, if_pos (by rw [hs]; rfl), if_pos hexp] at hr
    have hroom := expandStrategy_le h.cur_le
    have hgrown := expandLoop_cur h hroom hr
    obtain ⟨tidList, cur, new, -, rfl⟩ := expandLoop_frame hr
    have hmax := h.max_lt
    rw [pass_expand hexp, hgrown]
    dsimp only
    rw [hwait, Nat.add_zero, ← Nat.cast_add, u32_nat (by omega)]
  · rcases resize_cases hr with ⟨rfl, hno⟩ | ⟨-, ⟨he, -⟩ | ⟨-, hshr, hpos, he⟩⟩
    · have hrun : ¬s'.tp.shutdownFlag = true := by rw [hs]; decide
      rw [pass_stay hexp (hno.resolve_left hrun), hwait, Nat.add_zero]
    · exact absurd he hexp
    · have hasked := request_eq h (by omega)
      have hless : u32 (s.tp.curThreadCnt - shrinkStrategy s.tp) =
          s.tp.curThreadCnt - (s.tp.curThreadCnt - max (2 * s.tp.actThreadCnt) s.tp.minThreadCnt) := by
        rw [shrinkStrategy_eq h hmin]
        unfold u32
        omega
      rw [hasked] at he
      rw [pass_shrink hexp hshr hpos, hless, he]
      dsimp only
      omega

end Section

/-! ## One pass -/

theorem isNeedExpand_exact : isNeedExpand exactRate (some tp) ≠ 0 ↔ 7 * tp.curThreadCnt ≤ 10 * tp.actThreadCnt := by
  simp [isNeedExpand, exactRate]

theorem isNeedShrink_exact : isNeedShrink exactRate (some tp) ≠ 0 ↔ 10 * tp.actThreadCnt < 3 * tp.curThreadCnt := by
  simp [isNeedShrink, exactRate]

/-- If there is room for `2^31` more threads or more, `canExpandCnt` is negative. -/
theorem expandStrategy_toNat (h : Sized tp) : (expandStrategy tp).toNat =
    if tp.maxThreadCnt - tp.curThreadCnt < 2 ^ 31 then min 5 (tp.maxThreadCnt - tp.curThreadCnt) else 0 := by
  have hle := h.cur_le
  have hmax := h.max_lt
  unfold expandStrategy
  dsimp only
  split
  · rename_i hroom
    rw [if_pos (by unfold s32 at hroom; split at hroom <;> omega)]
    unfold s32 at hroom
    split at hroom <;> omega
  · rename_i hroom
    unfold s32 at hroom ⊢
    split <;> split <;> omega

/-- If there are `2^31` workers too many or more, `diffCnt` is negative. -/
theorem shrinkStrategy_target (h : Sized tp) (hrate : 10 * tp.actThreadCnt < 3 * tp.curThreadCnt) :
    shrinkStrategy tp =
      if tp.curThreadCnt - target tp < 2 ^ 31 then ((tp.curThreadCnt - target tp : Nat) : Int) else 0 := by
  have hmin := h.min_le
  have hle := h.cur_le
  have hmax := h.max_lt
  have hdouble : u32 (s32 ((tp.actThreadCnt : Int) * 2)) = 2 * tp.actThreadCnt := by
    rw [u32_s32]
    unfold u32
    omega
  have hres : (if u32 (s32 ((tp.actThreadCnt : Int) * 2)) < tp.minThreadCnt then s32 tp.minThreadCnt
      else s32 ((tp.actThreadCnt : Int) * 2)) = s32 (target tp) := by
    rw [hdouble, target]
    split
    · rename_i hlt
      rw [Nat.max_eq_right (Nat.le_of_lt hlt)]
    · rename_i hge
      rw [Nat.max_eq_left (Nat.not_lt.1 hge), Nat.mul_comm, Nat.cast_mul, Nat.cast_ofNat]
  have htarget : target tp ≤ tp.curThreadCnt := by unfold target; omega
  have hdiff : s32 ((tp.curThreadCnt : Int) - target tp) =
      if tp.curThreadCnt - target tp < 2 ^ 31 then ((tp.curThreadCnt - target tp : Nat) : Int)
      else ((tp.curThreadCnt - target tp : Nat) : Int) - 2 ^ 32 := by
    unfold s32
    split <;> split <;> omega
  unfold shrinkStrategy
  dsimp only
  rw [hres, s32_sub_s32, hdiff]
  split <;> split <;> omega

/-- A pass over a busy pool. -/
theorem pass_busy (h : Sized tp) (hexp : 7 * tp.curThreadCnt ≤ 10 * tp.actThreadCnt) : pass exactRate tp = tp ∨
    tp.curThreadCnt < tp.maxThreadCnt ∧
      pass exactRate tp = { tp with curThreadCnt := min (tp.curThreadCnt + 5) tp.maxThreadCnt } := by
  have hle := h.cur_le
  have hmax := h.max_lt
  rw [pass_expand (isNeedExpand_exact.2 hexp), expandStrategy_toNat h]
  split
  · have hcur : u32 ((tp.curThreadCnt : Int) + (min 5 (tp.maxThreadCnt - tp.curThreadCnt) : Nat)) =
        min (tp.curThreadCnt + 5) tp.maxThreadCnt := by
      unfold u32
      omega
    rw [hcur]
    rcases Nat.lt_or_eq_of_le hle with hlt | heq
    · exact .inr ⟨hlt, rfl⟩
    · have hsame : min (tp.curThreadCnt + 5) tp.maxThreadCnt = tp.curThreadCnt := by omega
      rw [hsame]
      exact .inl rfl
  · rw [Nat.cast_zero, Int.add_zero, u32_nat (Nat.lt_of_le_of_lt hle hmax)]
    exact .inl rfl

/-- A pass over an idle pool. -/
theorem pass_idle (h : Sized tp) (hexp : ¬7 * tp.curThreadCnt ≤ 10 * tp.actThreadCnt)
    (hshr : 10 * tp.actThreadCnt < 3 * tp.curThreadCnt) : pass exactRate tp = tp ∨
      target tp < tp.curThreadCnt ∧ pass exactRate tp = { tp with curThreadCnt := target tp } := by
  have hle := h.cur_le
  have hmax := h.max_lt
  have hexp' : ¬isNeedExpand exactRate (some tp) ≠ 0 := fun he => hexp (isNeedExpand_exact.1 he)
  have hstrategy := shrinkStrategy_target h hshr
  by_cases hpos : 0 < shrinkStrategy tp
  · rw [pass_shrink hexp' (isNeedShrink_exact.2 hshr) hpos, hstrategy]
    rw [hstrategy] at hpos
    split at hpos
    · rename_i hroom
      have hcur : u32 ((tp.curThreadCnt : Int) - (tp.curThreadCnt - target tp : Nat)) = target tp := by
        unfold u32
        omega
      rw [if_pos hroom, hcur]
      exact .inr ⟨by omega, rfl⟩
    · exact absurd hpos (lt_irrefl 0)
  · exact .inl (pass_stay hexp' (.inr (Int.not_lt.1 hpos)))

/-- **What a pass does**: it grows the pool, or shrinks it to the size it aims at, or leaves it. -/
theorem pass_cases (h : Sized tp) : pass exactRate tp = tp ∨
    (7 * tp.curThreadCnt ≤ 10 * tp.actThreadCnt ∧ tp.curThreadCnt < tp.maxThreadCnt ∧
      pass exactRate tp = { tp with curThreadCnt := min (tp.curThreadCnt + 5) tp.maxThreadCnt }) ∨
    (10 * tp.actThreadCnt < 3 * tp.curThreadCnt ∧ target tp < tp.curThreadCnt ∧
      pass exactRate tp = { tp with curThreadCnt := target tp }) := by
  by_cases hexp : 7 * tp.curThreadCnt ≤ 10 * tp.actThreadCnt
  · rcases pass_busy h hexp with he | ⟨hlt, he⟩
    · exact .inl he
    · exact .inr (.inl ⟨hexp, hlt, he⟩)
  · by_cases hshr : 10 * tp.actThreadCnt < 3 * tp.curThreadCnt
    · rcases pass_idle h hexp hshr with he | ⟨hlt, he⟩
      · exact .inl he
      · exact .inr (.inr ⟨hshr, hlt, he⟩)
    · refine .inl (pass_stay (fun he => hexp (isNeedExpand_exact.1 he)) (.inl ?_))
      exact not_not.1 fun he => hshr (isNeedShrink_exact.1 he)

/-- The size that a pass shrinks to stays. -/
theorem settled_target (h : Sized tp) (ht : tp.curThreadCnt = target tp) : pass exactRate tp = tp := by
  have hmin := h.min_pos
  have hdouble : 2 * tp.actThreadCnt ≤ target tp := Nat.le_max_left _ _
  rcases pass_cases h with he | ⟨hexp, -, -⟩ | ⟨-, hlt, -⟩
  · exact he
  · have hle := h.min_le
    omega
  · exact absurd hlt (by rw [ht]; exact Nat.lt_irrefl _)

/-- A pass keeps the bounds, and changes nothing but the size. -/
theorem sized_pass (h : Sized tp) : Sized (pass exactRate tp) ∧
    (pass exactRate tp).minThreadCnt = tp.minThreadCnt ∧ (pass exactRate tp).maxThreadCnt = tp.maxThreadCnt ∧
      (pass exactRate tp).actThreadCnt = tp.actThreadCnt := by
  obtain ⟨hpos, hmin, hle, hmax, hact⟩ := h
  rcases pass_cases ⟨hpos, hmin, hle, hmax, hact⟩ with he | ⟨-, hlt, he⟩ | ⟨-, hlt, he⟩
  · rw [he]
    exact ⟨⟨hpos, hmin, hle, hmax, hact⟩, rfl, rfl, rfl⟩
  · rw [he]
    refine ⟨⟨hpos, ?_, Nat.min_le_right _ _, hmax, ?_⟩, rfl, rfl, rfl⟩
    · show tp.minThreadCnt ≤ min (tp.curThreadCnt + 5) tp.maxThreadCnt
      omega
    · show tp.actThreadCnt ≤ min (tp.curThreadCnt + 5) tp.maxThreadCnt
      omega
  · rw [he]
    have hdouble : 2 * tp.actThreadCnt ≤ target tp := Nat.le_max_left _ _
    refine ⟨⟨hpos, Nat.le_max_right _ _, ?_, hmax, ?_⟩, rfl, rfl, rfl⟩
    · show target tp ≤ tp.maxThreadCnt
      omega
    · show tp.actThreadCnt ≤ target tp
      omega

/-! ## Pass after pass -/

/-- **Every pass** keeps the bounds. -/
theorem sized_iterate (h : Sized tp) (n : Nat) : Sized ((pass exactRate)^[n] tp) ∧
    ((pass exactRate)^[n] tp).minThreadCnt = tp.minThreadCnt ∧
      ((pass exactRate)^[n] tp).maxThreadCnt = tp.maxThreadCnt ∧
        ((pass exactRate)^[n] tp).actThreadCnt = tp.actThreadCnt := by
  induction n with
  | zero => exact ⟨h, rfl, rfl, rfl⟩
  | succ n ih =>
    obtain ⟨hn, hmin, hmax, hact⟩ := ih
    obtain ⟨hn', hmin', hmax', hact'⟩ := sized_pass hn
    rw [Function.iterate_succ_apply']
    exact ⟨hn', hmin'.trans hmin, hmax'.trans hmax, hact'.trans hact⟩

/-- The pool grows at most `k` times if there is room for `5 * k` threads, and shrinks at most once. -/
theorem settled_of_room {k : Nat} (h : Sized tp) (hk : tp.maxThreadCnt - tp.curThreadCnt ≤ 5 * k) :
    pass exactRate ((pass exactRate)^[k + 1] tp) = (pass exactRate)^[k + 1] tp := by
  have hstay : ∀ {u : ThreadPoolT τ} (n : Nat), pass exactRate u = u →
      pass exactRate ((pass exactRate)^[n] u) = (pass exactRate)^[n] u := by
    intro u n hu
    rw [Function.iterate_fixed hu n, hu]
  induction k generalizing tp with
  | zero =>
    rcases pass_cases h with he | ⟨-, hlt, -⟩ | ⟨-, -, he⟩
    · exact hstay 1 he
    · exact absurd hlt (by omega)
    · have hnext := (sized_pass h).1
      rw [he] at hnext
      rw [Function.iterate_one, he]
      exact settled_target hnext rfl
  | succ k ih =>
    rcases pass_cases h with he | ⟨-, hlt, he⟩ | ⟨-, -, he⟩
    · exact hstay _ he
    · have hnext := (sized_pass h).1
      rw [he] at hnext
      rw [Function.iterate_succ_apply, he]
      apply ih hnext
      show tp.maxThreadCnt - min (tp.curThreadCnt + 5) tp.maxThreadCnt ≤ 5 * k
      omega
    · have hnext := (sized_pass h).1
      rw [he] at hnext
      rw [Function.iterate_succ_apply, he]
      exact hstay _ (settled_target hnext rfl)

/-- **The size settles**: after every number of passes it is within its bounds and not below the number of busy workers,
and after `settleTime` passes it no longer changes. -/
theorem settles (h : Sized tp) (n : Nat) :
    tp.minThreadCnt ≤ ((pass exactRate)^[n] tp).curThreadCnt ∧
      ((pass exactRate)^[n] tp).curThreadCnt ≤ tp.maxThreadCnt ∧
      tp.actThreadCnt ≤ ((pass exactRate)^[n] tp).curThreadCnt ∧
      (settleTime tp ≤ n →
        ((pass exactRate)^[n] tp).curThreadCnt = ((pass exactRate)^[settleTime tp] tp).curThreadCnt) := by
  obtain ⟨hn, hmin, hmax, hact⟩ := sized_iterate h n
  refine ⟨hmin ▸ hn.min_le, hmax ▸ hn.cur_le, hact ▸ hn.act_le, fun hle => ?_⟩
  obtain ⟨m, rfl⟩ := Nat.exists_eq_add_of_le hle
  have hfix : pass exactRate ((pass exactRate)^[settleTime tp] tp) = (pass exactRate)^[settleTime tp] tp :=
    settled_of_room h (by omega)
  rw [Nat.add_comm, Function.iterate_add_apply, Function.iterate_fixed hfix m]

/-- The only worker is busy, and there is room for nine more. -/
def loneWorker : ThreadPoolT Nat where
  taskQueue := emptyQueue 20
  tidList := []
  minThreadCnt := 1
  maxThreadCnt := 10
  curThreadCnt := 1
  actThreadCnt := 1
  waitExitThreadCnt := 0
  shutdownFlag := false

/-- Growing by five overshoots. -/
example : (List.range 4).map (fun n => ((pass exactRate)^[n] loneWorker).curThreadCnt) = [1, 6, 2, 2] := by decide

theorem settles_loneWorker : 1 ≤ ((pass exactRate)^[4] loneWorker).curThreadCnt ∧
    ((pass exactRate)^[4] loneWorker).curThreadCnt ≤ 10 ∧ 1 ≤ ((pass exactRate)^[4] loneWorker).curThreadCnt ∧
      (3 ≤ 4 → ((pass exactRate)^[4] loneWorker).curThreadCnt = ((pass exactRate)^[3] loneWorker).curThreadCnt) :=
  @settles Nat loneWorker ⟨by decide, by decide, by decide, by decide, by decide⟩ 4

end SystemFunc.ThreadPool
