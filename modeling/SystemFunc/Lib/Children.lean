import Mathlib.Data.List.Count
import SystemFunc.Lib.CondVar

/-!
# Child processes

The children of a process, in the order in which it has created them. A child that exits is a zombie, and its parent is
sent a signal, of which one is kept at most; `waitpid` takes a zombie away, whichever the kernel chooses.

Since signals are not counted, a handler has to look for more than one child. `Covered c n`: there are at most `n`
zombies, or the signal is pending. This is what a handler keeps that looks for `n` more children, and what the process
keeps between two calls of it, with `n = 0`.
-/

inductive Child where
  | running
  | zombie
  | reaped
  deriving DecidableEq

structure Children where
  list : List Child
  sigchld : Bool
  deriving DecidableEq

/-- What `waitpid` returns: a child, or `0` where none has exited, or `-1` where there is none. -/
inductive Waited where
  | pid (j : Nat)
  | again
  | echild
  deriving DecidableEq

def Waited.isPid : Waited → Bool
  | .pid _ => true
  | .again | .echild => false

namespace Children

def running (c : Children) : Nat := c.list.count .running

def zombies (c : Children) : Nat := c.list.count .zombie

def reaped (c : Children) : Nat := c.list.count .reaped

def empty : Children := ⟨[], false⟩

def fork (c : Children) : Children := { c with list := c.list ++ [.running] }

/-- Child `j` exits. -/
def exit (c : Children) (j : Nat) : Option Children :=
  if c.list[j]? = some .running then some ⟨c.list.set j .zombie, true⟩ else none

/-- `waitpid(-1, NULL, WNOHANG)`. -/
def waitpid (c : Children) : Waited → Option Children
  | .pid j => if c.list[j]? = some .zombie then some { c with list := c.list.set j .reaped } else none
  | .again => if c.zombies = 0 ∧ c.running ≠ 0 then some c else none
  | .echild => if c.zombies = 0 ∧ c.running = 0 then some c else none

/-- The handler is called. -/
def deliver (c : Children) : Children := { c with sigchld := false }

variable {c d : Children} {j n : Nat} {w : Waited}

/-! ## Counting -/

theorem sum_eq (c : Children) : c.running + c.zombies + c.reaped = c.list.length := by
  unfold running zombies reaped
  induction c.list with
  | nil => rfl
  | cons a l ih =>
    rw [List.count_cons, List.count_cons, List.count_cons, List.length_cons]
    cases a <;> simp <;> omega

/-- A child changes. -/
theorem count_set_add {l : List Child} {a : Child} (h : l[j]? = some a) (b s : Child) :
    (l.set j b).count s + (a == s).toNat = l.count s + (b == s).toNat :=
  CondVar.countP_set_add (· == s) h b

theorem exit_eq_some : c.exit j = some d ↔ c.list[j]? = some .running ∧ d = ⟨c.list.set j .zombie, true⟩ := by
  rw [exit, Option.ite_none_right_eq_some, Option.some.injEq, eq_comm (a := d)]

section Exit

variable (h : c.exit j = some d)
include h

theorem running_exit : d.running + 1 = c.running := by
  obtain ⟨hj, rfl⟩ := exit_eq_some.1 h
  exact count_set_add hj .zombie .running

theorem zombies_exit : d.zombies = c.zombies + 1 := by
  obtain ⟨hj, rfl⟩ := exit_eq_some.1 h
  exact count_set_add hj .zombie .zombie

theorem reaped_exit : d.reaped = c.reaped := by
  obtain ⟨hj, rfl⟩ := exit_eq_some.1 h
  exact count_set_add hj .zombie .reaped

theorem sigchld_exit : d.sigchld = true := by
  obtain ⟨-, rfl⟩ := exit_eq_some.1 h
  rfl

theorem length_exit : d.list.length = c.list.length := by
  obtain ⟨-, rfl⟩ := exit_eq_some.1 h
  exact List.length_set ..

end Exit

theorem waitpid_pid : c.waitpid (.pid j) = some d ↔
    c.list[j]? = some .zombie ∧ d = { c with list := c.list.set j .reaped } := by
  rw [waitpid, Option.ite_none_right_eq_some, Option.some.injEq, eq_comm (a := d)]

section Pid

variable (h : c.waitpid (.pid j) = some d)
include h

theorem running_pid : d.running = c.running := by
  obtain ⟨hj, rfl⟩ := waitpid_pid.1 h
  exact count_set_add hj .reaped .running

theorem zombies_pid : d.zombies + 1 = c.zombies := by
  obtain ⟨hj, rfl⟩ := waitpid_pid.1 h
  exact count_set_add hj .reaped .zombie

theorem reaped_pid : d.reaped = c.reaped + 1 := by
  obtain ⟨hj, rfl⟩ := waitpid_pid.1 h
  exact count_set_add hj .reaped .reaped

theorem length_pid : d.list.length = c.list.length := by
  obtain ⟨-, rfl⟩ := waitpid_pid.1 h
  exact List.length_set ..

theorem sigchld_pid : d.sigchld = c.sigchld := by
  obtain ⟨-, rfl⟩ := waitpid_pid.1 h
  rfl

end Pid

/-- No child has exited. -/
theorem waitpid_none (h : c.waitpid w = some d) (hw : w.isPid = false) : d = c ∧ c.zombies = 0 := by
  cases w with
  | pid j => cases hw
  | again =>
    obtain ⟨⟨hz, -⟩, hd⟩ := Option.ite_none_right_eq_some.1 h
    exact ⟨(Option.some.inj hd).symm, hz⟩
  | echild =>
    obtain ⟨⟨hz, -⟩, hd⟩ := Option.ite_none_right_eq_some.1 h
    exact ⟨(Option.some.inj hd).symm, hz⟩

/-- It always returns. -/
theorem exists_waitpid (c : Children) : ∃ w, (c.waitpid w).isSome := by
  by_cases hz : c.zombies = 0
  · by_cases hr : c.running = 0
    · exact ⟨.echild, by simp [waitpid, hz, hr]⟩
    · exact ⟨.again, by simp [waitpid, hz, hr]⟩
  · have hmem : Child.zombie ∈ c.list := List.count_pos_iff.1 (Nat.pos_of_ne_zero hz)
    obtain ⟨j, hj⟩ := List.mem_iff_getElem?.1 hmem
    exact ⟨.pid j, by simp [waitpid, hj]⟩

/-! ## A handler that keeps up -/

/-- The zombies will be found: by the next call of the handler, or by one that looks for `n` more. -/
def Covered (c : Children) (n : Nat) : Prop := c.sigchld = true ∨ c.zombies ≤ n

theorem Covered.fork (h : c.Covered n) : c.fork.Covered n := by
  refine h.imp id fun hle => ?_
  have hz : c.fork.zombies = c.zombies := by simp [Children.fork, zombies, List.count_append]
  exact hz ▸ hle

theorem covered_exit (h : c.exit j = some d) (n : Nat) : d.Covered n := .inl (sigchld_exit h)

theorem Covered.pid (h : c.Covered (n + 1)) (hw : c.waitpid (.pid j) = some d) : d.Covered n := by
  refine h.imp (fun hs => (sigchld_pid hw).trans hs) fun hle => ?_
  have hz := zombies_pid hw
  omega

theorem covered_of_none (h : c.waitpid w = some d) (hw : w.isPid = false) (n : Nat) : d.Covered n := by
  obtain ⟨rfl, hz⟩ := waitpid_none h hw
  exact .inr (hz ▸ Nat.zero_le n)

end Children
