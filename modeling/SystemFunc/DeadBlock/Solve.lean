import Mathlib.Logic.Function.Basic
import SystemFunc.CLang
import SystemFunc.Lib.Steps

/-!
# `thread/deadblock2_solve.c`

The loops of `main` and of `ThreadHandler` are the same, with the two mutexes in opposite order: the first one is taken
with `pthread_mutex_trylock`, the second one with `pthread_mutex_lock`, which blocks and never answers `EBUSY`. A step
is one call, or one read or write of a variable; where a sum is no `int`, there is no step.

- `Inv.step`: while one thread has both mutexes the other has none (`Inv.alone`), and no run comes to the branch that
  gives one back (`Inv.release`);
- `fine_iff`: the loops block each other exactly if one thread takes its first mutex while the other has its own and
  not yet the second.
-/

namespace SystemFunc.DeadBlock

inductive Lock where
  | mutex
  | mutex2
  deriving DecidableEq

inductive Tid where
  | main
  | handler
  deriving DecidableEq

def Tid.other : Tid → Tid
  | .main => .handler
  | .handler => .main

/-- The mutex of `pthread_mutex_trylock`. -/
def Tid.first : Tid → Lock
  | .main => .mutex
  | .handler => .mutex2

/-- The mutex of `pthread_mutex_lock`. -/
def Tid.second : Tid → Lock
  | .main => .mutex2
  | .handler => .mutex

def EBUSY : Nat := 16

/-- Where a thread is; `release` is the branch after `EBUSY`. The value of a variable is read and written back. -/
inductive Pc where
  | trylock
  | lock
  | release
  | print
  | read1
  | write1 (r : Int)
  | read2
  | write2 (r : Int)
  | unlock
  | unlock2
  deriving DecidableEq

structure State where
  owner : Lock → Option Tid
  pc : Tid → Pc
  var1 : Int
  var2 : Int

def State.setOwner (s : State) (m : Lock) (o : Option Tid) : State := { s with owner := Function.update s.owner m o }

def State.goto (s : State) (t : Tid) (pc : Pc) : State := { s with pc := Function.update s.pc t pc }

def start : State where
  owner := fun _ => none
  pc := fun _ => .trylock
  var1 := 10
  var2 := 20

/-! ## The calls -/

def pthreadMutexTrylock (t : Tid) : Option Tid → Nat × Option Tid
  | none => (0, some t)
  | some u => (EBUSY, some u)

/-- It blocks while the mutex has an owner. -/
def pthreadMutexLock (t : Tid) : Option Tid → Option (Nat × Option Tid)
  | none => some (0, some t)
  | some _ => none

/-- Only the owner may unlock. -/
def pthreadMutexUnlock (t : Tid) (o : Option Tid) : Option (Option Tid) := if o = some t then some none else none

def unlock (s : State) (t : Tid) (m : Lock) : Option State :=
  (pthreadMutexUnlock t (s.owner m)).map fun o => s.setOwner m o

/-! ## The loop -/

/-- One step of a thread. -/
def step (s : State) (t : Tid) : Option State :=
  match s.pc t with
  | .trylock =>
    let r := pthreadMutexTrylock t (s.owner t.first)
    some ((s.setOwner t.first r.2).goto t (if EBUSY = r.1 then .trylock else .lock))
  | .lock =>
    (pthreadMutexLock t (s.owner t.second)).map fun r =>
      (s.setOwner t.second r.2).goto t (if EBUSY = r.1 then .release else .print)
  | .release => (unlock s t t.first).map fun s => s.goto t .trylock
  | .print => if IsInt (s.var1 + s.var2) then some (s.goto t .read1) else none
  | .read1 => some (s.goto t (.write1 s.var1))
  | .write1 r => if IsInt (r + 1) then some (State.goto { s with var1 := r + 1 } t .read2) else none
  | .read2 => some (s.goto t (.write2 s.var2))
  | .write2 r => if IsInt (r + 1) then some (State.goto { s with var2 := r + 1 } t .unlock) else none
  | .unlock => (unlock s t .mutex).map fun s => s.goto t .unlock2
  | .unlock2 => (unlock s t .mutex2).map fun s => s.goto t .trylock

/-- The thread has both mutexes. -/
def Pc.Critical : Pc → Prop
  | .trylock | .lock | .release | .unlock2 => False
  | .print | .read1 | .write1 _ | .read2 | .write2 _ | .unlock => True

instance : DecidablePred Pc.Critical
  | .trylock | .lock | .release | .unlock2 => isFalse id
  | .print | .read1 | .write1 _ | .read2 | .write2 _ | .unlock => isTrue trivial

/-- The thread has one mutex, and waits for the other one, which the other thread has. -/
def Blocked (s : State) (t : Tid) : Prop :=
  s.pc t = .lock ∧ s.owner t.first = some t ∧ s.owner t.second = some t.other

instance (s : State) (t : Tid) : Decidable (Blocked s t) :=
  inferInstanceAs (Decidable (s.pc t = .lock ∧ s.owner t.first = some t ∧ s.owner t.second = some t.other))

/-- The threads do not block each other, and the variables agree where nobody is changing them. -/
structure Fine (s : State) : Prop where
  free : ¬∀ t, Blocked s t
  vars : (∀ t, ¬(s.pc t).Critical) → s.var2 = s.var1 + 10

/-- No thread calls `pthread_mutex_trylock` while the other has its first mutex and not yet the second. -/
def Apart (s : State) (t : Tid) : Prop := s.pc t = .trylock → s.pc t.other ≠ .lock

instance (s : State) : DecidablePred (Apart s) := fun t =>
  inferInstanceAs (Decidable (s.pc t = .trylock → s.pc t.other ≠ .lock))

variable {s s' : State} {t : Tid} {m n : Lock} {o : Option Tid} {pc : Pc}

theorem setOwner_self : (s.setOwner m o).owner m = o := Function.update_self ..

theorem setOwner_ne (h : n ≠ m) : (s.setOwner m o).owner n = s.owner n := Function.update_of_ne h ..

theorem setOwner_eq_self (h : s.owner m = o) : s.setOwner m o = s := by
  rw [State.setOwner, ← h, Function.update_eq_self]

theorem goto_eq_self (h : s.pc t = pc) : s.goto t pc = s := by
  rw [State.goto, ← h, Function.update_eq_self]

theorem goto_pc : (s.goto t pc).pc t = pc := Function.update_self ..

theorem goto_pc_other : (s.goto t pc).pc t.other = s.pc t.other := Function.update_of_ne (by cases t <;> decide) ..

/-! ## The invariant -/

/-- The mutexes of a thread. -/
def Pc.Holds (t : Tid) (m : Lock) : Pc → Prop
  | .trylock => False
  | .lock | .release => m = t.first
  | .unlock2 => m = .mutex2
  | .print | .read1 | .write1 _ | .read2 | .write2 _ | .unlock => True

/-- What the variables are where a thread has both mutexes. -/
def Pc.Values (var1 var2 : Int) : Pc → Prop
  | .trylock | .lock | .release | .unlock2 => True
  | .print | .read1 | .unlock => var2 = var1 + 10
  | .write1 r => var2 = var1 + 10 ∧ r = var1
  | .read2 => var2 = var1 + 9
  | .write2 r => var2 = var1 + 9 ∧ r = var2

/-- What a step can do. -/
inductive Move (s : State) (t : Tid) : State → Prop
  | busy : s.pc t = .trylock → s.owner t.first ≠ none → Move s t s
  | first : s.pc t = .trylock → s.owner t.first = none → Move s t ((s.setOwner t.first (some t)).goto t .lock)
  | second : s.pc t = .lock → s.owner t.second = none → Move s t ((s.setOwner t.second (some t)).goto t .print)
  | release : s.pc t = .release → Move s t ((s.setOwner t.first none).goto t .trylock)
  | inside {pc : Pc} {var1 var2 : Int} : (s.pc t).Critical → pc.Critical →
      ((s.pc t).Values s.var1 s.var2 → pc.Values var1 var2) →
        Move s t (State.goto { s with var1 := var1, var2 := var2 } t pc)
  | unlock : s.pc t = .unlock → s.owner .mutex = some t → Move s t ((s.setOwner .mutex none).goto t .unlock2)
  | unlock2 : s.pc t = .unlock2 → s.owner .mutex2 = some t → Move s t ((s.setOwner .mutex2 none).goto t .trylock)

structure Inv (s : State) : Prop where
  owner : ∀ t m, s.owner m = some t ↔ (s.pc t).Holds t m
  release : ∀ t, s.pc t ≠ .release
  values : ∀ t, (s.pc t).Values s.var1 s.var2
  vars : (∀ t, ¬(s.pc t).Critical) → s.var2 = s.var1 + 10

theorem other_ne (t : Tid) : t.other ≠ t := by cases t <;> decide

theorem eq_or_other (t u : Tid) : u = t ∨ u = t.other := by
  cases t <;> cases u <;> decide

theorem eq_first_or_second (t : Tid) (m : Lock) : m = t.first ∨ m = t.second := by
  cases t <;> cases m <;> decide

theorem first_other (t : Tid) : t.other.first = t.second := by cases t <;> rfl

theorem second_ne_first (t : Tid) : t.second ≠ t.first := by cases t <;> decide

theorem Pc.Critical.holds (h : pc.Critical) (m : Lock) : pc.Holds t m := by
  cases pc with
  | trylock | lock | release | unlock2 => exact h.elim
  | print | read1 | write1 _ | read2 | write2 _ | unlock => trivial

theorem Inv.start : Inv start where
  owner := fun _ _ => iff_of_false nofun id
  release := fun _ => nofun
  values := fun _ => trivial
  vars := fun _ => rfl

/-- Where a thread has both mutexes, the other has none. -/
theorem Inv.alone (h : Inv s) (hboth : ∀ m, s.owner m = some t) : s.pc t.other = .trylock := by
  have hnone : ∀ m, ¬(s.pc t.other).Holds t.other m := by
    intro m hholds
    have ho := (h.owner t.other m).2 hholds
    rw [hboth m] at ho
    exact other_ne t (Option.some.inj ho).symm
  cases hpc : s.pc t.other with
  | trylock => rfl
  | lock | release =>
    rw [hpc] at hnone
    exact absurd rfl (hnone t.other.first)
  | unlock2 =>
    rw [hpc] at hnone
    exact absurd rfl (hnone .mutex2)
  | print | read1 | write1 _ | read2 | write2 _ | unlock =>
    rw [hpc] at hnone
    exact absurd trivial (hnone .mutex)

/-- A thread moves: what it holds then is what its place says, and the mutexes of the other thread stay. -/
theorem Inv.move (h : Inv s) {owner : Lock → Option Tid} {pc : Pc} {var1 var2 : Int} (hrelease : pc ≠ .release)
    (hself : ∀ m, owner m = some t ↔ pc.Holds t m)
    (hother : ∀ m, owner m = some t.other ↔ s.owner m = some t.other) (hvalues : pc.Values var1 var2)
    (hsame : (s.pc t.other).Values var1 var2)
    (hvars : ¬pc.Critical → ¬(s.pc t.other).Critical → var2 = var1 + 10) :
    Inv ⟨owner, Function.update s.pc t pc, var1, var2⟩ := by
  have hpc : Function.update s.pc t pc t = pc := Function.update_self ..
  have hpc' : Function.update s.pc t pc t.other = s.pc t.other := Function.update_of_ne (other_ne t) ..
  refine ⟨fun u m => ?_, fun u => ?_, fun u => ?_, fun hcalm => ?_⟩
  · dsimp only
    rcases eq_or_other t u with rfl | rfl
    · rw [hpc]
      exact hself m
    · rw [hpc', hother, h.owner]
  · dsimp only
    rcases eq_or_other t u with rfl | rfl
    · rwa [hpc]
    · rw [hpc']
      exact h.release _
  · dsimp only
    rcases eq_or_other t u with rfl | rfl
    · rwa [hpc]
    · rwa [hpc']
  · have h1 := hcalm t
    have h2 := hcalm t.other
    dsimp only at h1 h2
    rw [hpc] at h1
    rw [hpc'] at h2
    exact hvars h1 h2

/-- A thread that has both mutexes keeps them, and changes the variables. -/
theorem Inv.inside (h : Inv s) (hc : (s.pc t).Critical) {pc : Pc} (hc' : pc.Critical) {var1 var2 : Int}
    (hvalues : pc.Values var1 var2) : Inv ⟨s.owner, Function.update s.pc t pc, var1, var2⟩ := by
  have hown : ∀ m, s.owner m = some t := fun m => (h.owner t m).2 (hc.holds m)
  have hrelease : pc ≠ .release := by
    rintro rfl
    exact hc'
  refine h.move hrelease (fun m => iff_of_true (hown m) (hc'.holds m)) (fun _ => Iff.rfl) hvalues ?_ ?_
  · rw [h.alone hown]
    trivial
  · exact fun hnot => absurd hc' hnot

/-- A free mutex is taken. -/
theorem Inv.take (h : Inv s) {pc : Pc} (hfree : s.owner m = none) (hrelease : pc ≠ .release)
    (hholds : ∀ n, pc.Holds t n ↔ n = m ∨ (s.pc t).Holds t n) (hvalues : pc.Values s.var1 s.var2)
    (hvars : ¬pc.Critical → ¬(s.pc t).Critical) : Inv ((s.setOwner m (some t)).goto t pc) := by
  refine h.move hrelease (fun n => ?_) (fun n => ?_) hvalues (h.values t.other) fun hpc hother => ?_
  · rw [hholds n, ← h.owner t n]
    by_cases hn : n = m
    · rw [hn, setOwner_self]
      exact iff_of_true rfl (.inl rfl)
    · rw [setOwner_ne hn, or_iff_right hn]
  · by_cases hn : n = m
    · rw [hn, setOwner_self, hfree]
      exact iff_of_false (fun heq => other_ne t (Option.some.inj heq).symm) nofun
    · rw [setOwner_ne hn]
  · refine h.vars fun u => ?_
    rcases eq_or_other t u with rfl | rfl
    · exact hvars hpc
    · exact hother

/-- A mutex is given back. -/
theorem Inv.give (h : Inv s) {pc : Pc} (hown : s.owner m = some t) (hrelease : pc ≠ .release)
    (hholds : ∀ n, pc.Holds t n ↔ n ≠ m ∧ (s.pc t).Holds t n) (hvalues : pc.Values s.var1 s.var2)
    (hvars : ¬(s.pc t.other).Critical → s.var2 = s.var1 + 10) : Inv ((s.setOwner m none).goto t pc) := by
  refine h.move hrelease (fun n => ?_) (fun n => ?_) hvalues (h.values t.other) fun _ hother => hvars hother
  · rw [hholds n, ← h.owner t n]
    by_cases hn : n = m
    · rw [hn, setOwner_self]
      exact iff_of_false nofun fun hboth => hboth.1 rfl
    · rw [setOwner_ne hn, and_iff_right hn]
  · by_cases hn : n = m
    · rw [hn, setOwner_self, hown]
      exact iff_of_false nofun fun heq => other_ne t (Option.some.inj heq).symm
    · rw [setOwner_ne hn]

theorem unlock_eq_some (h : unlock s t m = some s') : s.owner m = some t ∧ s' = s.setOwner m none := by
  obtain ⟨o, ho, rfl⟩ := Option.map_eq_some_iff.1 h
  obtain ⟨hown, ho⟩ := Option.ite_none_right_eq_some.1 ho
  cases ho
  exact ⟨hown, rfl⟩

theorem step_move (h : step s t = some s') : Move s t s' := by
  have hinside : ∀ {pc pc' : Pc} {var1 var2 : Int}, s.pc t = pc → pc.Critical → pc'.Critical →
      (pc.Values s.var1 s.var2 → pc'.Values var1 var2) →
        Move s t (State.goto { s with var1 := var1, var2 := var2 } t pc') := by
    rintro _ pc' var1 var2 rfl hc hc' hvalues
    exact .inside hc hc' hvalues
  unfold step at h
  split at h <;> rename_i hpc
  · cases h
    cases hfree : s.owner t.first with
    | none => exact .first hpc hfree
    | some u =>
      have hkeep : (s.setOwner t.first (some u)).goto t .trylock = s := by
        rw [setOwner_eq_self hfree, goto_eq_self hpc]
      have hbusy : Move s t s := .busy hpc (by rw [hfree]; exact nofun)
      exact hkeep.symm ▸ hbusy
  · obtain ⟨r, hr, rfl⟩ := Option.map_eq_some_iff.1 h
    cases hfree : s.owner t.second with
    | none =>
      rw [hfree] at hr
      cases hr
      exact .second hpc hfree
    | some u =>
      rw [hfree] at hr
      cases hr
  · obtain ⟨u, hu, rfl⟩ := Option.map_eq_some_iff.1 h
    obtain ⟨-, rfl⟩ := unlock_eq_some hu
    exact .release hpc
  · obtain ⟨-, h⟩ := Option.ite_none_right_eq_some.1 h
    cases h
    exact hinside hpc trivial trivial fun hsum => hsum
  · cases h
    exact hinside hpc trivial trivial fun hsum => ⟨hsum, rfl⟩
  · obtain ⟨-, h⟩ := Option.ite_none_right_eq_some.1 h
    cases h
    refine hinside hpc trivial trivial ?_
    rintro ⟨hsum, rfl⟩
    exact (by omega : s.var2 = s.var1 + 1 + 9)
  · cases h
    exact hinside hpc trivial trivial fun hsum => ⟨hsum, rfl⟩
  · obtain ⟨-, h⟩ := Option.ite_none_right_eq_some.1 h
    cases h
    refine hinside hpc trivial trivial ?_
    rintro ⟨hsum, rfl⟩
    exact (by omega : s.var2 + 1 = s.var1 + 10)
  · obtain ⟨u, hu, rfl⟩ := Option.map_eq_some_iff.1 h
    obtain ⟨hown, rfl⟩ := unlock_eq_some hu
    exact .unlock hpc hown
  · obtain ⟨u, hu, rfl⟩ := Option.map_eq_some_iff.1 h
    obtain ⟨hown, rfl⟩ := unlock_eq_some hu
    exact .unlock2 hpc hown

/-- **Every step keeps the invariant.** -/
theorem Inv.step (h : Inv s) (hs : Move s t s') : Inv s' := by
  have hvalues := h.values t
  have hcalm : ¬(s.pc t).Critical → ¬(s.pc t.other).Critical → s.var2 = s.var1 + 10 := by
    intro h1 h2
    refine h.vars fun u => ?_
    rcases eq_or_other t u with rfl | rfl
    · exact h1
    · exact h2
  cases hs with
  | busy hpc hbusy => exact h
  | first hpc hfree =>
    refine h.take hfree nofun (fun n => ?_) trivial fun _ => by rw [hpc]; exact id
    rw [hpc]
    exact (or_iff_left id).symm
  | second hpc hfree =>
    rw [hpc] at hcalm
    -- the other thread is not inside, as it does not have this mutex
    have hout : ¬(s.pc t.other).Critical := by
      intro hcrit
      have hown := (h.owner t.other t.second).2 (hcrit.holds _)
      rw [hfree] at hown
      cases hown
    refine h.take hfree nofun (fun n => ?_) (hcalm id hout) fun hnot => absurd trivial hnot
    rw [hpc]
    exact iff_of_true trivial (eq_first_or_second t n).symm
  | release hpc => exact absurd hpc (h.release t)
  | inside hc hc' hnext => exact h.inside hc hc' (hnext hvalues)
  | unlock hpc hown =>
    rw [hpc] at hvalues
    refine h.give hown nofun (fun n => ?_) trivial fun _ => hvalues
    rw [hpc]
    cases n <;> simp [Pc.Holds]
  | unlock2 hpc hown =>
    rw [hpc] at hcalm
    refine h.give hown nofun (fun n => ?_) trivial fun hother => hcalm id hother
    rw [hpc]
    cases n <;> simp [Pc.Holds]

/-! ## Who waits for whom -/

/-- A thread comes to its second mutex with a step that takes the first. -/
theorem step_pc (hs : Move s t s') (hlock : s'.pc t = .lock) : s.pc t = .trylock := by
  cases hs with
  | busy hpc hbusy => exact hpc
  | first hpc hfree => exact hpc
  | inside hc hc' hnext =>
    rw [goto_pc] at hlock
    rw [hlock] at hc'
    exact hc'.elim
  | second hpc hfree | release hpc | unlock hpc hown | unlock2 hpc hown =>
    rw [goto_pc] at hlock
    cases hlock

theorem step_pc_other (hs : Move s t s') : s'.pc t.other = s.pc t.other := by
  cases hs with
  | busy hpc hbusy => rfl
  | first hpc hfree | second hpc hfree | release hpc | inside hc hc' hnext | unlock hpc hown | unlock2 hpc hown =>
    exact goto_pc_other

/-- The threads block each other where both have their first mutex. -/
theorem blocked_iff (h : Inv s) : (∀ t, Blocked s t) ↔ ∀ t, s.pc t = .lock := by
  refine ⟨fun hb t => (hb t).1, fun hlock t => ⟨hlock t, ?_, ?_⟩⟩
  · rw [h.owner, hlock]
    rfl
  · rw [h.owner, hlock, ← first_other]
    rfl

/-- The other thread has its first mutex, and so does this one after the step. -/
theorem blocked_of_not_apart (h : Inv s) (hs : Move s t s') (hnot : ¬Apart s t) : ∀ u, s'.pc u = .lock := by
  obtain ⟨hpc, hother⟩ := Classical.not_imp.1 hnot
  have hother : s.pc t.other = .lock := Classical.not_not.1 hother
  have hfree : s.owner t.first = none := by
    cases hown : s.owner t.first with
    | none => rfl
    | some u =>
      exfalso
      rw [h.owner] at hown
      rcases eq_or_other t u with rfl | rfl
      · rw [hpc] at hown
        exact hown
      · rw [hother] at hown
        exact second_ne_first t ((first_other t).symm.trans hown.symm)
  have hlock : s'.pc t = .lock := by
    cases hs with
    | busy hpc hbusy => exact absurd hfree hbusy
    | first hpc hfree => exact goto_pc
    | inside hc hc' hnext =>
      rw [hpc] at hc
      exact hc.elim
    | second hpc' | release hpc' | unlock hpc' | unlock2 hpc' =>
      rw [hpc] at hpc'
      cases hpc'
  intro u
  rcases eq_or_other t u with rfl | rfl
  · exact hlock
  · rw [step_pc_other hs, hother]

/-- **The loops are as they should be** in every state of a run, exactly if no thread takes its first mutex in it while
the other has its own and not yet the second. -/
theorem fine_iff (as : List Tid) : Steps.Along step Fine start as ↔ Steps.Meets step Apart start as := by
  have hfree : ¬∀ t, Blocked start t := fun hb => nomatch (hb .main).1
  refine Steps.along_iff_meets (I := Inv) ?_ ?_ ?_ .start ⟨hfree, fun _ => rfl⟩
  · exact fun s t s' h hs => h.step (step_move hs)
  · intro s t s' h hfine hapart hs
    have hm := step_move hs
    have h' := h.step hm
    refine ⟨fun hb => ?_, h'.vars⟩
    have hlock := (blocked_iff h').1 hb
    exact hapart (step_pc hm (hlock t)) ((step_pc_other hm).symm.trans (hlock t.other))
  · intro s t s' h hfine hfine' hs
    have hm := step_move hs
    by_contra hnot
    exact hfine'.free ((blocked_iff (h.step hm)).2 (blocked_of_not_apart h hm hnot))

/-- Each takes its first mutex. -/
theorem both_blocked : ∃ s, Steps.run step start [.main, .handler] = some s ∧ ∀ t, Blocked s t := by
  refine ⟨_, rfl, fun t => ?_⟩
  cases t <;> decide

end SystemFunc.DeadBlock
