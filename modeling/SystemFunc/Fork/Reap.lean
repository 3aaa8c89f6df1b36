import SystemFunc.Lib.Children
import SystemFunc.Lib.Progress

/-!
# `process_func/IPC/sigaction_child.c`

The process creates `cnt` children with `SIGCHLD` blocked, and its handler for that signal calls `waitpid` at most as
often as there are children left. `main` may be interrupted by the handler everywhere behind the call that unblocks the
signal; while the handler runs, the signal is blocked. `USE_WAITPID` is defined, so that the first branch is compiled.

- `Inv.step`: what the handler leaves behind has its own signal pending;
- `reaps`: every child that exits is waited for once, by a handler that never blocks.
-/

namespace SystemFunc.Fork

open Children (Covered)

/-- `main` at the pass `i` of its loop, behind `sigprocmask`, or interrupted by the handler, which is at `idx`. -/
inductive Ctrl where
  | forking (i : Nat)
  | main
  | handler (idx remain : Nat)
  deriving DecidableEq

structure State where
  kids : Children
  ctrl : Ctrl
  hcnt : Nat
  deriving DecidableEq

/-- What `fork` answers is looked at in the child only. -/
inductive Act where
  | fork (ok : Bool)
  | unblock
  | signal
  | wait (w : Waited)
  | exit (j : Nat)

def start : State where
  kids := .empty
  ctrl := .forking 0
  hcnt := 0

/-- The test of the loop in the handler. -/
def Ctrl.top (idx remain : Nat) : Ctrl := if idx ≤ remain then .handler idx remain else .main

/-- A pass of the loop in the handler. -/
def waitPass (s : State) (idx remain : Nat) (w : Waited) : Option State :=
  (s.kids.waitpid w).map fun kids =>
    match w with
    | .echild => { s with kids := kids, ctrl := .main }
    | .again => { s with kids := kids, ctrl := .top (idx + 1) remain }
    | .pid _ => { s with kids := kids, ctrl := .top (idx + 1) remain, hcnt := s.hcnt + 1 }

def step (cnt : Nat) (s : State) : Act → Option State
  | .fork ok =>
    match s.ctrl with
    | .forking i =>
      if i < cnt then some { s with kids := if ok then s.kids.fork else s.kids, ctrl := .forking (i + 1) } else none
    | _ => none
  | .unblock =>
    match s.ctrl with
    | .forking i => if i < cnt then none else some { s with ctrl := .main }
    | _ => none
  | .signal =>
    if s.ctrl = .main ∧ s.kids.sigchld then
      some { s with kids := s.kids.deliver, ctrl := .top 1 (cnt - s.hcnt) }
    else none
  | .wait w =>
    match s.ctrl with
    | .handler idx remain => waitPass s idx remain w
    | _ => none
  | .exit j => (s.kids.exit j).map fun kids => { s with kids := kids }

variable {cnt i idx remain : Nat} {s t : State} {a : Act} {w : Waited} {as : List Act}

/-! ## The invariant -/

/-- The children that the handler will still look for in this call. -/
def Ctrl.room : Ctrl → Nat
  | .forking _ | .main => 0
  | .handler idx remain => remain + 1 - idx

/-- The calls of `fork` that are left. -/
def Ctrl.forks (cnt : Nat) : Ctrl → Nat
  | .forking i => cnt - i
  | .main | .handler .. => 0

/-- The handler is inside its loop. -/
def Ctrl.Inside (cnt : Nat) : Ctrl → Prop
  | .forking _ | .main => True
  | .handler idx remain => idx ≤ remain ∧ remain ≤ cnt

structure Inv (cnt : Nat) (s : State) : Prop where
  reaped : s.hcnt = s.kids.reaped
  length : s.kids.list.length + s.ctrl.forks cnt ≤ cnt
  covered : s.kids.Covered s.ctrl.room
  inside : s.ctrl.Inside cnt

theorem Ctrl.room_top (idx remain : Nat) : (Ctrl.top idx remain).room = remain + 1 - idx := by
  unfold Ctrl.top
  split
  · rfl
  · simp only [Ctrl.room]
    omega

theorem Ctrl.forks_top (cnt idx remain : Nat) : (Ctrl.top idx remain).forks cnt = 0 := by
  unfold Ctrl.top
  split <;> rfl

theorem Ctrl.inside_top (idx : Nat) (h : remain ≤ cnt) : (Ctrl.top idx remain).Inside cnt := by
  unfold Ctrl.top
  split
  · rename_i hle
    exact ⟨hle, h⟩
  · exact trivial

theorem inv_start (cnt : Nat) : Inv cnt start :=
  ⟨rfl, Nat.le_of_eq (Nat.zero_add cnt), .inr (Nat.le_refl 0), trivial⟩

namespace Inv

variable (h : Inv cnt s)
include h

/-- The handler is called, and will look for all children that are left. -/
theorem signal (hc : s.ctrl = .main) : Inv cnt { s with kids := s.kids.deliver, ctrl := .top 1 (cnt - s.hcnt) } := by
  have hlen := h.length
  have hsum := s.kids.sum_eq
  have hreaped := h.reaped
  refine ⟨h.reaped, ?_, .inr ?_, Ctrl.inside_top 1 (Nat.sub_le ..)⟩
  · rw [hc] at hlen
    rw [Ctrl.forks_top]
    exact hlen
  · rw [Ctrl.room_top]
    show s.kids.zombies ≤ _
    omega

theorem wait (hc : s.ctrl = .handler idx remain) (hw : waitPass s idx remain w = some t) : Inv cnt t := by
  have hinside := h.inside
  rw [hc] at hinside
  obtain ⟨hle, hcnt⟩ := hinside
  have hlen := h.length
  rw [hc] at hlen
  obtain ⟨kids, hkids, rfl⟩ := Option.map_eq_some_iff.1 hw
  cases w with
  | pid j =>
    have hlength := Children.length_pid hkids
    have hcovered := h.covered
    rw [hc, Ctrl.room, Nat.succ_sub hle] at hcovered
    refine ⟨?_, ?_, ?_, Ctrl.inside_top _ hcnt⟩
    · dsimp only
      rw [h.reaped, Children.reaped_pid hkids]
    · dsimp only
      rw [Ctrl.forks_top, hlength]
      exact hlen
    · dsimp only
      rw [Ctrl.room_top, Nat.add_sub_add_right]
      exact hcovered.pid hkids
  | again =>
    have hcovered := Children.covered_of_none hkids rfl (remain + 1 - (idx + 1))
    obtain ⟨rfl, -⟩ := Children.waitpid_none hkids rfl
    refine ⟨h.reaped, ?_, ?_, Ctrl.inside_top _ hcnt⟩
    · dsimp only
      rw [Ctrl.forks_top]
      exact hlen
    · dsimp only
      rw [Ctrl.room_top]
      exact hcovered
  | echild =>
    have hcovered := Children.covered_of_none hkids rfl 0
    obtain ⟨rfl, -⟩ := Children.waitpid_none hkids rfl
    exact ⟨h.reaped, hlen, hcovered, trivial⟩

/-- **What the handler leaves behind has its own signal pending.** -/
theorem step (hs : step cnt s a = some t) : Inv cnt t := by
  cases a with
  | fork ok =>
    unfold Fork.step at hs
    dsimp only at hs
    split at hs
    · rename_i i hc
      obtain ⟨hi, ht⟩ := Option.ite_none_right_eq_some.1 hs
      cases ht
      have hlen := h.length
      have hcovered := h.covered
      rw [hc] at hlen hcovered
      dsimp only [Ctrl.forks] at hlen
      cases ok with
      | false =>
        refine ⟨h.reaped, ?_, hcovered, trivial⟩
        simp only [Bool.false_eq_true, if_false, Ctrl.forks]
        omega
      | true =>
        refine ⟨?_, ?_, hcovered.fork, trivial⟩
        · rw [h.reaped]
          simp [Children.fork, Children.reaped, List.count_append]
        · simp only [if_true, Children.fork, List.length_append, List.length_singleton, Ctrl.forks]
          omega
    · cases hs
  | unblock =>
    unfold Fork.step at hs
    dsimp only at hs
    split at hs
    · rename_i i hc
      obtain ⟨hi, ht⟩ := Option.ite_none_left_eq_some.1 hs
      cases ht
      have hlen := h.length
      have hcovered := h.covered
      rw [hc] at hlen hcovered
      exact ⟨h.reaped, Nat.le_of_add_right_le hlen, hcovered, trivial⟩
    · cases hs
  | signal =>
    obtain ⟨⟨hc, -⟩, ht⟩ := Option.ite_none_right_eq_some.1 hs
    cases ht
    exact h.signal hc
  | wait w =>
    unfold Fork.step at hs
    dsimp only at hs
    split at hs
    · rename_i hc
      exact h.wait hc hs
    · cases hs
  | exit j =>
    obtain ⟨kids, hkids, rfl⟩ := Option.map_eq_some_iff.1 hs
    refine ⟨h.reaped.trans (Children.reaped_exit hkids).symm, ?_, Children.covered_exit hkids _, h.inside⟩
    dsimp only
    rw [Children.length_exit hkids]
    exact h.length

end Inv

theorem inv_run (hr : Steps.run (step cnt) start as = some s) : Inv cnt s :=
  Steps.run_inv (P := Inv cnt) (fun _ _ _ h hs => h.step hs) (inv_start cnt) hr

/-! ## The calls of `waitpid` -/

def Act.isWait : Act → Bool
  | .wait _ => true
  | _ => false

/-- What the handler may still do: each child that exits calls it once at most, with a full loop. -/
def budget (cnt : Nat) (s : State) : Nat :=
  cnt * (s.ctrl.forks cnt + s.kids.running + s.kids.sigchld.toNat) + s.ctrl.room

theorem budget_wait (h : Inv cnt s) (hc : s.ctrl = .handler idx remain) (hw : waitPass s idx remain w = some t) :
    budget cnt t + 1 ≤ budget cnt s := by
  have hinside := h.inside
  rw [hc] at hinside
  obtain ⟨hle, -⟩ := hinside
  obtain ⟨kids, hkids, rfl⟩ := Option.map_eq_some_iff.1 hw
  unfold budget
  rw [hc]
  cases w with
  | pid j =>
    dsimp only
    rw [Ctrl.forks_top, Ctrl.room_top, Children.running_pid hkids, Children.sigchld_pid hkids]
    dsimp only [Ctrl.forks, Ctrl.room]
    omega
  | again =>
    obtain ⟨rfl, -⟩ := Children.waitpid_none hkids rfl
    dsimp only
    rw [Ctrl.forks_top, Ctrl.room_top]
    dsimp only [Ctrl.forks, Ctrl.room]
    omega
  | echild =>
    obtain ⟨rfl, -⟩ := Children.waitpid_none hkids rfl
    dsimp only [Ctrl.forks, Ctrl.room]
    omega

theorem budget_step (h : Inv cnt s) (hs : step cnt s a = some t) :
    budget cnt t + a.isWait.toNat ≤ budget cnt s := by
  cases a with
  | fork ok =>
    unfold step at hs
    dsimp only at hs
    split at hs
    · rename_i i hc
      obtain ⟨hi, ht⟩ := Option.ite_none_right_eq_some.1 hs
      cases ht
      refine Nat.add_le_add ?_ (Nat.zero_le _)
      refine Nat.mul_le_mul_left cnt ?_
      rw [hc]
      cases ok <;> simp [Ctrl.forks, Children.fork, Children.running, List.count_append] <;> omega
    · cases hs
  | unblock =>
    unfold step at hs
    dsimp only at hs
    split at hs
    · rename_i i hc
      obtain ⟨hi, ht⟩ := Option.ite_none_left_eq_some.1 hs
      cases ht
      refine Nat.add_le_add (Nat.mul_le_mul_left cnt ?_) (Nat.zero_le _)
      exact Nat.add_le_add_right (Nat.add_le_add_right (Nat.zero_le _) _) _
    · cases hs
  | signal =>
    obtain ⟨⟨hc, hsig⟩, ht⟩ := Option.ite_none_right_eq_some.1 hs
    cases ht
    unfold budget
    rw [hc, hsig]
    dsimp only
    rw [Ctrl.forks_top, Ctrl.room_top]
    have hroom : cnt - s.hcnt + 1 - 1 ≤ cnt := by omega
    simp only [Ctrl.forks, Ctrl.room, Children.deliver, Children.running, Act.isWait, Bool.toNat_true, Bool.toNat_false,
      Nat.mul_add, Nat.mul_one, Nat.add_zero, Nat.zero_add]
    exact Nat.add_le_add_left hroom _
  | wait w =>
    unfold step at hs
    dsimp only at hs
    split at hs
    · rename_i hc
      exact budget_wait h hc hs
    · cases hs
  | exit j =>
    obtain ⟨kids, hkids, rfl⟩ := Option.map_eq_some_iff.1 hs
    have hrunning := Children.running_exit hkids
    refine Nat.add_le_add_right (Nat.mul_le_mul_left cnt ?_) _
    dsimp only
    rw [Children.sigchld_exit hkids, Bool.toNat_true]
    omega

/-- **`waitpid` is called at most `cnt * cnt` times.** -/
theorem wait_le (hr : Steps.run (step cnt) start as = some s) : as.countP Act.isWait ≤ cnt * cnt := by
  have hle := Steps.run_countP_le (I := Inv cnt) (c := Act.isWait) (fun _ _ _ h hs => h.step hs)
    (fun _ _ _ h hs => budget_step h hs) (inv_start cnt) hr
  have hstart : budget cnt start = cnt * cnt := rfl
  omega

/-! ## The children -/

/-- The handler does not wait for a child. -/
theorem exists_wait (h : s.ctrl = .handler idx remain) : ∃ w, (step cnt s (.wait w)).isSome := by
  obtain ⟨w, hw⟩ := s.kids.exists_waitpid
  refine ⟨w, ?_⟩
  simp only [step, h, waitPass, Option.isSome_map]
  exact hw

/-- **Every child is reaped.** In `main`, with no signal pending, each child runs or is counted, however the signals
have been merged; and the handler is never blocked. -/
theorem reaps (hr : Steps.run (step cnt) start as = some s) :
    s.hcnt = s.kids.reaped ∧ s.kids.list.length ≤ cnt ∧ as.countP Act.isWait ≤ cnt * cnt ∧
      (s.ctrl = .main → s.kids.sigchld = false → s.kids.running + s.hcnt = s.kids.list.length) ∧
      ∀ idx remain, s.ctrl = .handler idx remain → ∃ w, (step cnt s (.wait w)).isSome := by
  have h := inv_run hr
  have hsum := s.kids.sum_eq
  refine ⟨h.reaped, Nat.le_of_add_right_le h.length, wait_le hr, fun hmain hsig => ?_, fun idx remain => exists_wait⟩
  have hz : s.kids.zombies ≤ 0 := by
    obtain hpending | hle := h.covered
    · rw [hsig] at hpending
      cases hpending
    · rw [hmain] at hle
      exact hle
  rw [h.reaped]
  omega

/-- Two of three children exit before the one call of the handler. -/
def mergedRun : List Act :=
  [.fork true, .fork true, .exit 0, .fork true, .exit 2, .unblock, .signal, .wait (.pid 2), .wait (.pid 0), .wait .again]

theorem reaps_merged : ∃ s, Steps.run (step 3) start mergedRun = some s ∧ s.kids.running + s.hcnt = 3 := by
  have hr : Steps.run (step 3) start mergedRun = some ⟨⟨[.reaped, .running, .reaped], false⟩, .main, 2⟩ := by decide
  exact ⟨_, hr, (reaps hr).2.2.2.1 rfl rfl⟩

end SystemFunc.Fork
