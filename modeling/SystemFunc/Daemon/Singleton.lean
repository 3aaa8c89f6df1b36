import Mathlib.Logic.Function.Basic
import SystemFunc.CString
import SystemFunc.Lib.Slots
import SystemFunc.Lib.Steps

/-!
# `SingletonDaemon` of `daemon/daemon.c`

Any number of processes call `SingletonDaemon`, each with its own `cmd`; a file per `cmd` is opened, locked as a whole
with `fcntl`, cut and written. The lock of a process is gone when the process is, also when it has been killed. A pid is
given to a new process when no process that lives has it; the files may have been there before. A file is its path as
`sprintf` makes it: `a` and `./a` are two here, and one on a disk.

- `Moves`, `step_moves`: what a step does;
- `Inv`, `inv_run`: who has the lock of a file, and what is in it;
- `singleton`: at most one process for a `cmd` gets behind `lockfile`, the next one exits, and the file has the pid of
  the one that runs.
-/

namespace SystemFunc.Daemon

def DAEMON_PID_PATH : List UInt8 := lit "/var/run/"

/-- The size of `path`. -/
def PATH_SIZE : Nat := 256

/-- `path`. -/
def pidPath (cmd : List UInt8) : List UInt8 := DAEMON_PID_PATH ++ cmd ++ lit ".pid"

/-- In front of a call, or behind `SingletonDaemon`; or the process has exited, or has written behind `path`. -/
inductive Ctrl where
  | openFile
  | lockfile
  | ftruncate
  | write
  | running
  | exited
  | wild
  deriving DecidableEq

/-- `cut`: `ftruncate` has succeeded. -/
structure Proc where
  cmd : List UInt8
  pid : Nat
  cut : Bool
  ctrl : Ctrl

/-- The files, and which process has the lock of one. -/
structure State where
  procs : List Proc
  files : List UInt8 → Option (List UInt8)
  owner : List UInt8 → Option Nat

inductive Act where
  | start (cmd : List UInt8) (pid : Nat)
  | openFile (i : Nat) (ok : Bool)
  | lockfile (i : Nat) (ok : Bool)
  | ftruncate (i : Nat) (ok : Bool)
  | write (i : Nat) (cnt : Option Nat)
  | kill (i : Nat)

def start (files : List UInt8 → Option (List UInt8)) : State where
  procs := []
  files := files
  owner := fun _ => none

def State.content (s : State) (path : List UInt8) : List UInt8 := (s.files path).getD []

def State.store (s : State) (path content : List UInt8) : State :=
  { s with files := Function.update s.files path (some content) }

def State.set (s : State) (i : Nat) (p : Proc) : State := { s with procs := s.procs.set i p }

/-- The process is gone, and its locks are. -/
def State.leave (s : State) (i : Nat) (p : Proc) (ctrl : Ctrl) : State :=
  { s.set i { p with ctrl := ctrl } with owner := fun path => if s.owner path = some i then none else s.owner path }

/-- The process has not ended. -/
def Proc.live (p : Proc) : Bool := p.ctrl ≠ .exited && p.ctrl ≠ .wild

/-- Process `i` is in front of `ctrl`. -/
def State.at (s : State) (i : Nat) (ctrl : Ctrl) (f : Proc → Option State) : Option State :=
  s.procs[i]?.bind fun p => if p.ctrl = ctrl then f p else none

def step (s : State) : Act → Option State
  | .start cmd pid =>
    if ∀ p ∈ s.procs, p.live → p.pid ≠ pid then
      some { s with procs := s.procs ++ [⟨cmd, pid, false, .openFile⟩] }
    else none
  | .openFile i ok =>
    s.at i .openFile fun p =>
      if PATH_SIZE ≤ (pidPath p.cmd).length then some (s.leave i p .wild)
      else if ok then
        some ((s.store (pidPath p.cmd) (s.content (pidPath p.cmd))).set i { p with ctrl := .lockfile })
      else some (s.leave i p .exited)
  | .lockfile i ok =>
    s.at i .lockfile fun p =>
      if ok ∧ s.owner (pidPath p.cmd) = none then
        some { s.set i { p with ctrl := .ftruncate } with owner := Function.update s.owner (pidPath p.cmd) (some i) }
      else some (s.leave i p .exited)
  -- What `ftruncate` returns is not looked at.
  | .ftruncate i ok =>
    s.at i .ftruncate fun p =>
      some (if ok then (s.store (pidPath p.cmd) []).set i { p with cut := true, ctrl := .write }
        else s.set i { p with ctrl := .write })
  | .write i cnt =>
    s.at i .write fun p =>
      match cnt with
      | none => some (s.leave i p .exited)
      | some n =>
        if n ≤ (decimal p.pid).length then
          let s := s.store (pidPath p.cmd) ((decimal p.pid).take n ++ (s.content (pidPath p.cmd)).drop n)
          some (if n = (decimal p.pid).length then s.set i { p with ctrl := .running } else s.leave i p .exited)
        else none
  | .kill i => s.procs[i]?.bind fun p => if p.live then some (s.leave i p .exited) else none

variable {s t : State} {a : Act} {i j : Nat} {p q : Proc} {path : List UInt8}

/-! ## What a step does -/

inductive Moves (s : State) : State → Prop
  | start {cmd : List UInt8} {pid : Nat} : Moves s { s with procs := s.procs ++ [⟨cmd, pid, false, .openFile⟩] }
  | leave {i : Nat} {p : Proc} (ctrl : Ctrl) (hp : s.procs[i]? = some p) (hlive : p.live = true)
      (hctrl : ctrl = .exited ∨ ctrl = .wild) : Moves s (s.leave i p ctrl)
  | openFile {i : Nat} {p : Proc} (hp : s.procs[i]? = some p) (hctrl : p.ctrl = .openFile) :
      Moves s ((s.store (pidPath p.cmd) (s.content (pidPath p.cmd))).set i { p with ctrl := .lockfile })
  | lockfile {i : Nat} {p : Proc} (hp : s.procs[i]? = some p) (hctrl : p.ctrl = .lockfile)
      (hfree : s.owner (pidPath p.cmd) = none) :
      Moves s { s.set i { p with ctrl := .ftruncate } with owner := Function.update s.owner (pidPath p.cmd) (some i) }
  | cut {i : Nat} {p : Proc} (hp : s.procs[i]? = some p) (hctrl : p.ctrl = .ftruncate) :
      Moves s ((s.store (pidPath p.cmd) []).set i { p with cut := true, ctrl := .write })
  | notCut {i : Nat} {p : Proc} (hp : s.procs[i]? = some p) (hctrl : p.ctrl = .ftruncate) :
      Moves s (s.set i { p with ctrl := .write })
  | write {i : Nat} {p : Proc} (hp : s.procs[i]? = some p) (hctrl : p.ctrl = .write) :
      Moves s ((s.store (pidPath p.cmd)
        (decimal p.pid ++ (s.content (pidPath p.cmd)).drop (decimal p.pid).length)).set i { p with ctrl := .running })
  | partly {i : Nat} {p : Proc} (content : List UInt8) (hp : s.procs[i]? = some p) (hctrl : p.ctrl = .write) :
      Moves s ((s.store (pidPath p.cmd) content).leave i p .exited)

theorem at_eq_some {ctrl : Ctrl} {f : Proc → Option State} (h : s.at i ctrl f = some t) :
    ∃ p, s.procs[i]? = some p ∧ p.ctrl = ctrl ∧ f p = some t := by
  obtain ⟨p, hp, h⟩ := Option.bind_eq_some_iff.1 h
  obtain ⟨hctrl, ht⟩ := Option.ite_none_right_eq_some.1 h
  exact ⟨p, hp, hctrl, ht⟩

theorem step_moves (hs : step s a = some t) : Moves s t := by
  cases a with
  | start cmd pid =>
    obtain ⟨-, ht⟩ := Option.ite_none_right_eq_some.1 hs
    cases ht
    exact .start
  | openFile i ok =>
    obtain ⟨p, hp, hctrl, ht⟩ := at_eq_some hs
    have hlive : p.live = true := by simp [Proc.live, hctrl]
    split at ht
    · cases ht
      exact .leave _ hp hlive (.inr rfl)
    split at ht
    · cases ht
      exact .openFile hp hctrl
    · cases ht
      exact .leave _ hp hlive (.inl rfl)
  | lockfile i ok =>
    obtain ⟨p, hp, hctrl, ht⟩ := at_eq_some hs
    split at ht
    next hfree =>
      cases ht
      exact .lockfile hp hctrl hfree.2
    next =>
      cases ht
      exact .leave _ hp (by simp [Proc.live, hctrl]) (.inl rfl)
  | ftruncate i ok =>
    obtain ⟨p, hp, hctrl, ht⟩ := at_eq_some hs
    cases ht
    split
    · exact .cut hp hctrl
    · exact .notCut hp hctrl
  | write i cnt =>
    obtain ⟨p, hp, hctrl, ht⟩ := at_eq_some hs
    cases cnt with
    | none =>
      cases ht
      exact .leave _ hp (by simp [Proc.live, hctrl]) (.inl rfl)
    | some n =>
      obtain ⟨hle, ht⟩ := Option.ite_none_right_eq_some.1 ht
      cases ht
      split
      next hn =>
        rw [hn, List.take_length]
        exact .write hp hctrl
      next => exact .partly _ hp hctrl
  | kill i =>
    obtain ⟨p, hp, h⟩ := Option.bind_eq_some_iff.1 hs
    obtain ⟨hlive, ht⟩ := Option.ite_none_right_eq_some.1 h
    cases ht
    exact .leave _ hp hlive (.inl rfl)

/-! ## The invariant -/

/-- The process is behind `lockfile`. -/
def Proc.holds (p : Proc) : Bool := p.ctrl = .ftruncate || p.ctrl = .write || p.ctrl = .running

/-- What a process says about its file. -/
def Proc.Sound (p : Proc) (content : List UInt8) : Prop :=
  match p.ctrl with
  | .openFile | .lockfile | .ftruncate => p.cut = false
  | .write => p.cut = true → content = []
  | .running => decimal p.pid <+: content ∧ (p.cut = true → content = decimal p.pid)
  | .exited | .wild => True

structure Inv (s : State) : Prop where
  owner : ∀ path i, s.owner path = some i ↔ ∃ p, s.procs[i]? = some p ∧ p.holds = true ∧ pidPath p.cmd = path
  sound : ∀ (i : Nat) (p : Proc), s.procs[i]? = some p → p.Sound (s.content (pidPath p.cmd))

@[simp] theorem content_set (i : Nat) (p : Proc) (path : List UInt8) : (s.set i p).content path = s.content path := rfl

@[simp] theorem content_store_self (path content : List UInt8) : (s.store path content).content path = content := by
  simp [State.content, State.store]

theorem content_store_ne {path' : List UInt8} (h : path' ≠ path) (content : List UInt8) :
    (s.store path content).content path' = s.content path' := by
  simp [State.content, State.store, h]

/-- The file matters only to the process that has locked it. -/
theorem Proc.Sound.of_not_holds {c c' : List UInt8} (h : p.Sound c) (hp : p.holds = false) : p.Sound c' := by
  obtain ⟨cmd, pid, cut, ctrl⟩ := p
  cases ctrl with
  | openFile | lockfile | exited | wild => exact h
  | ftruncate | write | running => cases hp

theorem inv_start (files : List UInt8 → Option (List UInt8)) : Inv (start files) where
  owner path i := by
    refine ⟨(fun h => by cases h), ?_⟩
    rintro ⟨p, hp, -⟩
    cases hp
  sound _ _ hp := by cases hp

/-- Of two processes that have locked the same file, there is only one. -/
theorem Inv.unique (h : Inv s) (hp : s.procs[i]? = some p) (hq : s.procs[j]? = some q) (hpholds : p.holds = true)
    (hqholds : q.holds = true) (hpath : pidPath p.cmd = pidPath q.cmd) : i = j := by
  have hi := (h.owner (pidPath p.cmd) i).2 ⟨p, hp, hpholds, rfl⟩
  have hj := (h.owner (pidPath p.cmd) j).2 ⟨q, hq, hqholds, hpath.symm⟩
  exact Option.some.inj (hi.symm.trans hj)

/-- A process goes on to `q`. It may store into its file when it has locked it. -/
theorem Inv.update (h : Inv s) (hp : s.procs[i]? = some p) (hcmd : q.cmd = p.cmd) (hprocs : t.procs = s.procs.set i q)
    (howner : ∀ path k, t.owner path = some k ↔
      k ≠ i ∧ s.owner path = some k ∨ k = i ∧ q.holds = true ∧ pidPath p.cmd = path)
    (hcontent : ∀ path, path = pidPath p.cmd ∧ p.holds = true ∨ t.content path = s.content path)
    (hq : q.Sound (t.content (pidPath p.cmd))) : Inv t := by
  have hi := (List.getElem?_eq_some_iff.1 hp).1
  have hself : t.procs[i]? = some q := by rw [hprocs, List.getElem?_set_self hi]
  have hother : ∀ j, j ≠ i → t.procs[j]? = s.procs[j]? := fun j hj => by
    rw [hprocs, List.getElem?_set_ne (Ne.symm hj)]
  constructor
  · intro path k
    rw [howner]
    by_cases hk : k = i
    · subst hk
      simp [hself, hcmd]
    · simp [hk, hother k hk, h.owner]
  · intro j r hr
    by_cases hj : j = i
    · subst hj
      rw [hself] at hr
      cases hr
      exact hcmd ▸ hq
    · rw [hother j hj] at hr
      have hsound := h.sound j r hr
      obtain ⟨hpath, hholds⟩ | hsame := hcontent (pidPath r.cmd)
      · cases hrholds : r.holds with
        | false => exact hsound.of_not_holds hrholds
        | true => exact absurd (h.unique hr hp hrholds hholds hpath) hj
      · rwa [hsame]

/-- As long as the lock does not change hands. -/
theorem Inv.owner_same (h : Inv s) (hp : s.procs[i]? = some p) (hholds : q.holds = p.holds) (path : List UInt8)
    (k : Nat) : s.owner path = some k ↔ k ≠ i ∧ s.owner path = some k ∨ k = i ∧ q.holds = true ∧ pidPath p.cmd = path := by
  by_cases hk : k = i
  · subst hk
    simp [h.owner, hp, hholds]
  · simp [hk]

theorem Inv.leave (h : Inv s) (hp : s.procs[i]? = some p) {ctrl : Ctrl} (hctrl : ctrl = .exited ∨ ctrl = .wild)
    (hcontent : ∀ path, path = pidPath p.cmd ∧ p.holds = true ∨ t.content path = s.content path)
    (hprocs : t.procs = s.procs) (howner : t.owner = s.owner) : Inv (t.leave i p ctrl) := by
  refine h.update hp (q := { p with ctrl := ctrl }) rfl ?_ ?_ hcontent ?_
  · rw [← hprocs]
    rfl
  · intro path k
    have hnot : Proc.holds { p with ctrl := ctrl } = false := by rcases hctrl with rfl | rfl <;> rfl
    simp only [State.leave, howner, hnot, Bool.false_eq_true, false_and, and_false, or_false]
    by_cases howns : s.owner path = some i
    · rw [if_pos howns, howns]
      simp [eq_comm]
    · rw [if_neg howns]
      refine ⟨fun hk => ⟨fun he => howns (he ▸ hk), hk⟩, fun hk => hk.2⟩
  · rcases hctrl with rfl | rfl <;> trivial

/-- What is known of the processes, when there is a new one. -/
theorem Inv.start (h : Inv s) {cmd : List UInt8} {pid : Nat} :
    Inv { s with procs := s.procs ++ [⟨cmd, pid, false, .openFile⟩] } := by
  refine ⟨fun path i => ?_, fun i p hp => ?_⟩
  · rw [h.owner]
    constructor
    · rintro ⟨p, hp, hholds, hpath⟩
      exact ⟨p, Slots.slot_append hp, hholds, hpath⟩
    · rintro ⟨p, hp, hholds, hpath⟩
      obtain ⟨-, rfl⟩ | hp := Slots.slot_snoc hp
      · cases hholds
      · exact ⟨p, hp, hholds, hpath⟩
  · obtain ⟨-, rfl⟩ | hp := Slots.slot_snoc hp
    · rfl
    · exact h.sound i p hp

theorem inv_step (h : Inv s) (hs : step s a = some t) : Inv t := by
  cases step_moves hs with
  | start => exact h.start
  | leave ctrl hp _ hctrl => exact h.leave hp hctrl (fun path => .inr rfl) rfl rfl
  | @openFile i p hp hctrl =>
    have hsound := h.sound i p hp
    refine h.update hp (q := { p with ctrl := .lockfile }) rfl rfl (h.owner_same hp (by simp [Proc.holds, hctrl]))
      (fun path => .inr ?_) ?_
    · rw [content_set]
      by_cases hpath : path = pidPath p.cmd
      · rw [hpath, content_store_self]
      · exact content_store_ne hpath _
    · simpa [Proc.Sound, hctrl] using hsound
  | @lockfile i p hp hctrl hfree =>
    have hsound := h.sound i p hp
    refine h.update hp (q := { p with ctrl := .ftruncate }) rfl rfl (fun path k => ?_) (fun path => .inr rfl) ?_
    · have hnot : s.owner (pidPath p.cmd) ≠ some k := fun he => by rw [hfree] at he; cases he
      dsimp only
      by_cases hpath : path = pidPath p.cmd
      · subst hpath
        rw [Function.update_self]
        simp [hnot, Proc.holds, eq_comm]
      · have hi : s.owner path ≠ some i := fun he => by
          obtain ⟨p', hp', hholds, -⟩ := (h.owner path i).1 he
          rw [hp] at hp'
          cases hp'
          simp [Proc.holds, hctrl] at hholds
        rw [Function.update_of_ne hpath]
        refine ⟨fun hk => .inl ⟨fun he => hi (he ▸ hk), hk⟩, fun hk => ?_⟩
        exact hk.elim And.right fun hk => absurd hk.2.2.symm hpath
    · simpa [Proc.Sound, hctrl] using hsound
  | @cut i p hp hctrl =>
    have hholds : p.holds = true := by simp [Proc.holds, hctrl]
    refine h.update hp (q := { p with cut := true, ctrl := .write }) rfl rfl (h.owner_same hp (by rw [hholds]; rfl))
      (fun path => ?_) (fun _ => by simp)
    by_cases hpath : path = pidPath p.cmd
    · exact .inl ⟨hpath, hholds⟩
    · exact .inr (content_store_ne hpath _)
  | @notCut i p hp hctrl =>
    have hholds : p.holds = true := by simp [Proc.holds, hctrl]
    have hsound := h.sound i p hp
    have hnot : p.cut = false := by simpa [Proc.Sound, hctrl] using hsound
    refine h.update hp (q := { p with ctrl := .write }) rfl rfl (h.owner_same hp (by rw [hholds]; rfl))
      (fun path => .inr rfl) (fun hcut => ?_)
    rw [hnot] at hcut
    cases hcut
  | @write i p hp hctrl =>
    have hholds : p.holds = true := by simp [Proc.holds, hctrl]
    have hsound := h.sound i p hp
    refine h.update hp (q := { p with ctrl := .running }) rfl rfl (h.owner_same hp (by rw [hholds]; rfl))
      (fun path => ?_) ?_
    · by_cases hpath : path = pidPath p.cmd
      · exact .inl ⟨hpath, hholds⟩
      · exact .inr (content_store_ne hpath _)
    · have hempty : p.cut = true → s.content (pidPath p.cmd) = [] := by simpa [Proc.Sound, hctrl] using hsound
      rw [content_set, content_store_self]
      refine ⟨List.prefix_append _ _, fun hcut => ?_⟩
      rw [hempty hcut, List.drop_nil, List.append_nil]
  | @partly i p content hp hctrl =>
    have hholds : p.holds = true := by simp [Proc.holds, hctrl]
    refine h.leave hp (.inl rfl) (fun path => ?_) rfl rfl
    by_cases hpath : path = pidPath p.cmd
    · exact .inl ⟨hpath, hholds⟩
    · exact .inr (content_store_ne hpath _)

theorem inv_run {files : List UInt8 → Option (List UInt8)} {as : List Act}
    (hr : Steps.run step (start files) as = some s) : Inv s :=
  Steps.run_inv (fun _ _ _ h hs => inv_step h hs) (inv_start files) hr

/-! ## The result -/

structure Single (s : State) : Prop where
  /-- At most one process for a `cmd` is behind `lockfile`. -/
  unique : ∀ (i j : Nat) (p q : Proc), s.procs[i]? = some p → s.procs[j]? = some q → p.holds = true → q.holds = true →
    p.cmd = q.cmd → i = j
  /-- The one that runs has its pid in the file, and nothing behind it, if `ftruncate` has not failed. -/
  pid : ∀ (i : Nat) (p : Proc), s.procs[i]? = some p → p.ctrl = .running →
    decimal p.pid <+: s.content (pidPath p.cmd) ∧ (p.cut = true → s.content (pidPath p.cmd) = decimal p.pid)
  /-- While there is one, the next one exits, and changes nothing. -/
  refused : ∀ (i j : Nat) (p q : Proc) (ok : Bool) (t : State), s.procs[i]? = some p → p.holds = true →
    s.procs[j]? = some q → q.cmd = p.cmd → step s (.lockfile j ok) = some t →
    t.procs = s.procs.set j { q with ctrl := .exited } ∧ t.files = s.files ∧ t.owner = s.owner
  /-- When there is none, the next one is let in. -/
  admitted : ∀ (j : Nat) (q : Proc), s.procs[j]? = some q → q.ctrl = .lockfile →
    (∀ (i : Nat) (p : Proc), s.procs[i]? = some p → p.cmd = q.cmd → p.holds = false) →
    ∃ t, step s (.lockfile j true) = some t ∧ t.procs = s.procs.set j { q with ctrl := .ftruncate }

theorem Inv.refused (h : Inv s) {ok : Bool} (hp : s.procs[i]? = some p) (hholds : p.holds = true)
    (hq : s.procs[j]? = some q) (hcmd : q.cmd = p.cmd) (hs : step s (.lockfile j ok) = some t) :
    t.procs = s.procs.set j { q with ctrl := .exited } ∧ t.files = s.files ∧ t.owner = s.owner := by
  have howner := (h.owner (pidPath q.cmd) i).2 ⟨p, hp, hholds, by rw [hcmd]⟩
  obtain ⟨r, hr, hctrl, ht⟩ := at_eq_some hs
  rw [hq] at hr
  cases hr
  rw [howner, if_neg (fun hfree => by cases hfree.2)] at ht
  cases ht
  refine ⟨rfl, rfl, funext fun path => ?_⟩
  have hnot : s.owner path ≠ some j := fun he => by
    obtain ⟨r, hr, hrholds, -⟩ := (h.owner path j).1 he
    rw [hq] at hr
    cases hr
    simp [Proc.holds, hctrl] at hrholds
  exact if_neg hnot

theorem pidPath_inj {cmd cmd' : List UInt8} (h : pidPath cmd = pidPath cmd') : cmd = cmd' :=
  List.append_cancel_left (List.append_cancel_right h)

theorem Inv.admitted (h : Inv s) (hq : s.procs[j]? = some q) (hctrl : q.ctrl = .lockfile)
    (hnone : ∀ (i : Nat) (p : Proc), s.procs[i]? = some p → p.cmd = q.cmd → p.holds = false) :
    ∃ t, step s (.lockfile j true) = some t ∧ t.procs = s.procs.set j { q with ctrl := .ftruncate } := by
  have hfree : s.owner (pidPath q.cmd) = none := by
    cases howner : s.owner (pidPath q.cmd) with
    | none => rfl
    | some i =>
      obtain ⟨p, hp, hholds, hpath⟩ := (h.owner _ i).1 howner
      rw [hnone i p hp (pidPath_inj hpath)] at hholds
      cases hholds
  refine ⟨{ s.set j { q with ctrl := .ftruncate } with
    owner := Function.update s.owner (pidPath q.cmd) (some j) }, ?_, rfl⟩
  simp [step, State.at, hq, hctrl, hfree]

/-- **There is one daemon**, and its pid is in the file. -/
theorem singleton {files : List UInt8 → Option (List UInt8)} {as : List Act}
    (hr : Steps.run step (start files) as = some s) : Single s := by
  have h := inv_run hr
  refine ⟨fun i j p q hp hq hpholds hqholds hcmd => h.unique hp hq hpholds hqholds (congrArg pidPath hcmd),
    fun i p hp hctrl => ?_, fun i j p q ok t hp hholds hq hcmd hs => h.refused hp hholds hq hcmd hs,
    fun j q hq hctrl hnone => h.admitted hq hctrl hnone⟩
  have hsound := h.sound i p hp
  simpa [Proc.Sound, hctrl] using hsound

/-- The first of two daemons is killed before a third one comes; the file is from an earlier run. -/
def threeDaemons : List Act :=
  [.start (lit "d") 10, .start (lit "d") 11, .openFile 0 true, .openFile 1 true, .lockfile 0 true, .ftruncate 0 true,
    .lockfile 1 true, .write 0 (some 2), .kill 0, .start (lit "d") 7, .openFile 2 true, .lockfile 2 true,
    .ftruncate 2 true, .write 2 (some 1)]

theorem singleton_threeDaemons : ∃ s,
    Steps.run step (start fun path => if path = lit "/var/run/d.pid" then some (lit "4711") else none) threeDaemons =
      some s ∧ s.procs.map Proc.ctrl = [.exited, .exited, .running] ∧ s.content (lit "/var/run/d.pid") = lit "7" ∧
      Single s := by
  have hr : Steps.run step
      (start fun path => if path = lit "/var/run/d.pid" then some (lit "4711") else none) threeDaemons = some _ := rfl
  exact ⟨_, hr, rfl, by decide, singleton hr⟩

end SystemFunc.Daemon
