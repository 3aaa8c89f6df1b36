import Mathlib.Logic.Basic

/-!
# Ready lists

An object is watched for a condition, and is on the ready list when the condition may hold. A wait takes it off the
list and asks it; when the condition holds the wait reports it, and puts it back if it is level-triggered. The object
is armed if it is on the list whenever the condition holds: then a wait does not miss it.

- `armed_notify` and `armed_modify` make it armed, and a level-triggered object stays on the list
  (`wait_queued_of_level`);
- an edge-triggered object is not armed after a report, until the condition is false (`armed_of_not`) or it is
  registered again (`armed_modify`).
-/

namespace Readiness

structure Watch where
  edge : Bool
  queued : Bool
  deriving DecidableEq

variable {w : Watch} {pending : Bool}

/-- The object tells of a change. -/
def Watch.notify (w : Watch) : Watch := { w with queued := true }

/-- The object is registered, or registered again: it is asked at once. -/
def Watch.modify (w : Watch) (edge pending : Bool) : Watch := { edge := edge, queued := w.queued || pending }

/-- A wait that finds it on the list. -/
def Watch.wait (w : Watch) (pending : Bool) : Watch := { w with queued := pending && !w.edge }

/-- A wait does not miss the condition. -/
def Watch.Armed (w : Watch) (pending : Bool) : Prop := pending = true → w.queued = true

theorem armed_of_not (h : pending = false) : w.Armed pending := fun hp => absurd (hp.symm.trans h) Bool.noConfusion

theorem armed_of_queued (h : w.queued = true) : w.Armed pending := fun _ => h

theorem armed_notify : w.notify.Armed pending := fun _ => rfl

theorem armed_modify (edge : Bool) : (w.modify edge pending).Armed pending := fun hp => by
  rw [Watch.modify, hp, Bool.or_true]

/-- A level-triggered object stays on the list. -/
theorem wait_queued_of_level (hw : w.edge = false) (hp : pending = true) : (w.wait pending).queued = true := by
  rw [Watch.wait, hw, hp]
  rfl

end Readiness
