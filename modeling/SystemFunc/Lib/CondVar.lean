import Mathlib.Data.List.Forall2

/-!
# Condition variables

The threads are a list of local states. A condition variable is given by who is blocked on it without having been
notified, and by what being notified does to such a thread (`CondVar`). `signal` wakes one blocked thread, of the
caller's choice, or nobody when nobody is blocked; `broadcast` wakes all of them; a spurious wakeup is the `signal` of
one thread out of the blue.

Both only wake blocked threads (`Wakes`), which is enough for most properties (`Wakes.forall`, `Wakes.countP_eq`,
`Wakes.countP_le`). A thread that moves changes a count by what the property says about its old and its new state
(`countP_set_add`).
-/

/-- A condition variable, seen from the threads that wait on it. -/
structure CondVar (θ : Type*) where
  blocked : θ → Bool
  wake : θ → θ
  wake_blocked : ∀ t, blocked (wake t) = false

namespace CondVar

variable {θ : Type*} (W : CondVar θ)

/-- `pthread_cond_signal`: `some i` when thread `i` is woken, `none` when nobody is blocked. -/
def signal (ts : List θ) : Option Nat → Option (List θ)
  | some i =>
    match ts[i]? with
    | some t => if W.blocked t then some (ts.set i (W.wake t)) else none
    | none => none
  | none => if ts.any W.blocked then none else some ts

/-- `pthread_cond_broadcast`. -/
def broadcast (ts : List θ) : List θ := ts.map fun t => if W.blocked t then W.wake t else t

variable {W} {ts us : List θ}

theorem signal_some {i : Nat} :
    W.signal ts (some i) = some us ↔ ∃ t, ts[i]? = some t ∧ W.blocked t = true ∧ us = ts.set i (W.wake t) := by
  simp only [signal]
  cases ts[i]? with
  | none => simp
  | some t =>
    simp only [Option.ite_none_right_eq_some, Option.some.injEq, exists_eq_left']
    exact and_congr_right fun _ => eq_comm

theorem signal_none : W.signal ts none = some us ↔ (∀ t ∈ ts, W.blocked t = false) ∧ us = ts := by
  simp only [signal, Option.ite_none_left_eq_some, Option.some.injEq, List.any_eq_true, not_exists, not_and,
    Bool.not_eq_true]
  exact and_congr_right fun _ => eq_comm

/-- A signal wakes one blocked thread, or nobody was blocked. -/
theorem signal_cases {pick : Option Nat} (h : W.signal ts pick = some us) :
    (∃ i t, ts[i]? = some t ∧ W.blocked t = true ∧ us = ts.set i (W.wake t)) ∨
      (∀ t ∈ ts, W.blocked t = false) ∧ us = ts := by
  cases pick with
  | none => exact .inr (signal_none.1 h)
  | some i => exact .inl ⟨i, signal_some.1 h⟩

theorem broadcast_blocked {t : θ} (h : t ∈ W.broadcast ts) : W.blocked t = false := by
  obtain ⟨u, -, rfl⟩ := List.mem_map.1 h
  split
  · exact W.wake_blocked u
  · rename_i hb; exact Bool.eq_false_iff.2 hb

/-! ## Waking -/

/-- Some of the blocked threads have been woken. -/
def Wakes (W : CondVar θ) (ts us : List θ) : Prop :=
  List.Forall₂ (fun t u => u = t ∨ W.blocked t = true ∧ u = W.wake t) ts us

theorem wakes_refl : W.Wakes ts ts := List.forall₂_same.2 fun _ _ => .inl rfl

theorem wakes_set {i : Nat} {t : θ} (ht : ts[i]? = some t) (hb : W.blocked t = true) :
    W.Wakes ts (ts.set i (W.wake t)) := by
  induction ts generalizing i with
  | nil => cases ht
  | cons u ts ih =>
    cases i with
    | zero => cases ht; exact .cons (.inr ⟨hb, rfl⟩) wakes_refl
    | succ i => exact .cons (.inl rfl) (ih ht)

theorem signal_wakes {pick : Option Nat} (h : W.signal ts pick = some us) : W.Wakes ts us := by
  rcases signal_cases h with ⟨i, t, ht, hb, rfl⟩ | ⟨-, rfl⟩
  · exact wakes_set ht hb
  · exact wakes_refl

theorem broadcast_wakes : W.Wakes ts (W.broadcast ts) := by
  induction ts with
  | nil => exact .nil
  | cons t ts ih =>
    refine .cons ?_ ih
    dsimp only
    split
    · rename_i hb; exact .inr ⟨hb, rfl⟩
    · exact .inl rfl

section Wakes

variable (h : W.Wakes ts us) {p : θ → Bool}
include h

/-- What waking keeps holds of the woken. -/
theorem Wakes.forall {P : θ → Prop} (hP : ∀ t, W.blocked t = true → P t → P (W.wake t)) (hts : ∀ t ∈ ts, P t) :
    ∀ u ∈ us, P u := by
  induction h with
  | nil => exact fun _ hu => nomatch hu
  | @cons t u ts us htu _ ih =>
    intro v hv
    rcases List.mem_cons.1 hv with rfl | hv
    · rcases htu with rfl | ⟨hb, rfl⟩
      · exact hts _ List.mem_cons_self
      · exact hP t hb (hts t List.mem_cons_self)
    · exact ih (fun w hw => hts w (List.mem_cons_of_mem _ hw)) v hv

/-- Whoever is blocked after waking was blocked before. -/
theorem Wakes.blocked (hex : ∃ u ∈ us, W.blocked u = true) : ∃ t ∈ ts, W.blocked t = true := by
  by_contra hno
  obtain ⟨u, hu, hb⟩ := hex
  have hall : ∀ u ∈ us, W.blocked u = false :=
    h.forall (fun t _ _ => W.wake_blocked t) fun t ht => Bool.eq_false_iff.2 fun hbt => hno ⟨t, ht, hbt⟩
  rw [hall u hu] at hb
  cases hb

/-- Waking does not change the count of threads with a property that does not look at it. -/
theorem Wakes.countP_eq (hp : ∀ t, W.blocked t = true → p (W.wake t) = p t) : us.countP p = ts.countP p := by
  induction h with
  | nil => rfl
  | @cons t u ts us htu _ ih =>
    have hpu : p u = p t := by
      rcases htu with rfl | ⟨hb, rfl⟩
      · rfl
      · exact hp t hb
    rw [List.countP_cons, List.countP_cons, hpu, ih]

/-- Waking does not change what is collected from the threads without looking at it. -/
theorem Wakes.filterMap_eq {κ : Type*} {g : θ → Option κ} (hg : ∀ t, W.blocked t = true → g (W.wake t) = g t) :
    us.filterMap g = ts.filterMap g := by
  induction h with
  | nil => rfl
  | @cons t u ts us htu _ ih =>
    have hgu : g u = g t := by
      rcases htu with rfl | ⟨hb, rfl⟩
      · rfl
      · exact hg t hb
    simp only [List.filterMap_cons, hgu, ih]

/-- Waking keeps the threads with a property that waking keeps. -/
theorem Wakes.countP_le (hp : ∀ t, W.blocked t = true → p t = true → p (W.wake t) = true) :
    ts.countP p ≤ us.countP p := by
  induction h with
  | nil => exact Nat.le_refl _
  | @cons t u ts us htu _ ih =>
    rw [List.countP_cons, List.countP_cons]
    by_cases ht : p t = true
    · have hu : p u = true := by
        rcases htu with rfl | ⟨hb, rfl⟩
        · exact ht
        · exact hp t hb ht
      simp only [ht, hu, ↓reduceIte]; omega
    · simp only [ht]; exact Nat.le_trans ih (Nat.le_add_right _ _)

end Wakes

/-! ## Moving and counting -/

/-- What holds of the thread that moves and of the others holds of all. -/
theorem forall_mem_set {P : θ → Prop} (h : ∀ t ∈ ts, P t) {i : Nat} {u : θ} (hu : P u) : ∀ t ∈ ts.set i u, P t := by
  intro t ht
  rcases List.mem_or_eq_of_mem_set ht with ht | rfl
  · exact h t ht
  · exact hu

/-- Thread `i` moves. -/
theorem countP_set_add (p : θ → Bool) {i : Nat} {t : θ} (ht : ts[i]? = some t) (u : θ) :
    (ts.set i u).countP p + (p t).toNat = ts.countP p + (p u).toNat := by
  obtain ⟨hi, hget⟩ := List.getElem?_eq_some_iff.1 ht
  rw [List.countP_set hi, hget]
  have hle : (p t).toNat ≤ ts.countP p := by
    cases hp : p t
    · exact Nat.zero_le _
    · exact List.countP_pos_iff.2 ⟨t, List.mem_of_getElem? ht, hp⟩
  have hite : ∀ b : Bool, (if b = true then 1 else 0) = b.toNat := by decide
  rw [hite, hite]
  omega

/-- A signal with somebody blocked raises the count of the notified by one. -/
theorem signal_notifies {p : θ → Bool} (hw : ∀ t, p (W.wake t) = true) (hb : ∀ t, W.blocked t = true → p t = false)
    (hex : ∃ t ∈ ts, W.blocked t = true) {pick : Option Nat} (h : W.signal ts pick = some us) :
    us.countP p = ts.countP p + 1 := by
  rcases signal_cases h with ⟨i, t, ht, hbt, rfl⟩ | ⟨hno, -⟩
  · have := countP_set_add p ht (W.wake t)
    rw [hb t hbt, hw t] at this
    exact this
  · obtain ⟨t, ht, hbt⟩ := hex
    rw [hno t ht] at hbt
    cases hbt

end CondVar
