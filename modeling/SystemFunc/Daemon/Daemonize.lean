import SystemFunc.CString
import SystemFunc.Lib.Entries
import SystemFunc.Lib.Steps

/-!
# `Daemonize` of `daemon/daemon.c`

The process that calls `Daemonize` forks, its child begins a session and forks again, and the child of that one goes on;
the other two exit. The pid of a child is that of no process, group or session there is. `setsid` fails for the pid of a
process group. A new descriptor is the lowest one that is not in use; the connection that `syslog` opens takes one too.

`Moves` and `step_moves` say what a step does.
-/

namespace SystemFunc.Daemon

/-- What a descriptor refers to. -/
inductive File where
  | inherited (n : Nat)
  | devNull
  | log
  deriving DecidableEq

namespace Daemonize

/-- In front of a call, with the descriptors that the last ones have returned; in the parent, in front of
`exit(EXIT_SUCCESS)`; or behind `Daemonize`, or the process has exited, with what it has printed if it was an error. -/
inductive Ctrl where
  | umask
  | firstFork
  | setsid
  | sigaction
  | secondFork
  | chdir
  | getrlimit
  | close (fd : Nat)
  | openNull
  | dup (fd0 : Option Nat)
  | dupAgain (fd0 fd1 : Option Nat)
  | check (fd0 fd1 fd2 : Option Nat)
  | notice
  | returned
  | exit
  | exited (headStr : Option String)
  deriving DecidableEq

structure Proc where
  pid : Nat
  pgid : Nat
  sid : Nat
  umask : Nat
  cwd : List UInt8
  fds : Entries File
  hupIgnored : Bool
  ctrl : Ctrl

/-- The process that calls `Daemonize`, `RLIMIT_NOFILE` (`none` for `RLIM_INFINITY`), and the other processes: the
numbers that are a pid, a group or a session among them, the groups, and the sessions with a terminal. -/
structure Env where
  caller : Proc
  rlimMax : Option Nat
  used : Nat → Bool
  groups : Nat → Bool
  tty : Nat → Bool
  groups_used : ∀ n, groups n = true → used n = true
  tty_used : ∀ n, tty n = true → used n = true ∨ n = caller.sid

/-- `maxfd`, as the loop has it. -/
def Env.maxfd (v : Env) : Nat :=
  match v.rlimMax with
  | none => 1024
  | some n => (s32 n).toNat

inductive Act where
  | umask (i : Nat)
  | fork (i : Nat) (pid : Option Nat)
  | setsid (i : Nat)
  | sigaction (i : Nat) (ok : Bool)
  | chdir (i : Nat) (ok : Bool)
  | getrlimit (i : Nat) (ok : Bool)
  | close (i : Nat)
  | newFd (i : Nat) (fd : Option Nat)
  | check (i : Nat)
  | exit (i : Nat)

def start (v : Env) : List Proc := [{ v.caller with ctrl := .umask }]

/-- A process uses the number. -/
def Proc.Uses (p : Proc) (n : Nat) : Prop := p.pid = n ∨ p.pgid = n ∨ p.sid = n

instance (p : Proc) : DecidablePred p.Uses := fun n => inferInstanceAs (Decidable (p.pid = n ∨ p.pgid = n ∨ p.sid = n))

def Proc.live (p : Proc) : Bool :=
  match p.ctrl with
  | .exited _ => false
  | _ => true

/-- Nobody uses the number. -/
def Fresh (v : Env) (procs : List Proc) (n : Nat) : Prop :=
  v.used n = false ∧ ∀ p ∈ procs, p.live = true → ¬p.Uses n

instance (v : Env) (procs : List Proc) (n : Nat) : Decidable (Fresh v procs n) :=
  inferInstanceAs (Decidable (_ ∧ ∀ p ∈ procs, _))

/-- There is a process group with this number. -/
def Group (v : Env) (procs : List Proc) (n : Nat) : Prop := v.groups n = true ∨ ∃ p ∈ procs, p.live = true ∧ p.pgid = n

instance (v : Env) (procs : List Proc) (n : Nat) : Decidable (Group v procs n) :=
  inferInstanceAs (Decidable (_ ∨ ∃ p ∈ procs, _))

/-- `PrintError` with `EXIT_FAILURE`. -/
def Proc.die (p : Proc) (headStr : String) : Proc := { p with ctrl := .exited (some headStr) }

/-- The lowest descriptor that is not in use. -/
def Lowest (fds : Entries File) (fd : Nat) : Prop := fds fd = none ∧ ∀ m < fd, (fds m).isSome = true

instance (fds : Entries File) (fd : Nat) : Decidable (Lowest fds fd) :=
  inferInstanceAs (Decidable (fds fd = none ∧ ∀ m < fd, (fds m).isSome = true))

/-- A call that makes a descriptor for the file, or fails. -/
def Proc.opens (p : Proc) (file : File) (fd : Option Nat) (ctrl : Ctrl) : Option Proc :=
  match fd with
  | none => some { p with ctrl := ctrl }
  | some n => if Lowest p.fds n then some { p with fds := p.fds.add n file, ctrl := ctrl } else none

/-- Process `i` goes on by `f`. -/
def go (procs : List Proc) (i : Nat) (f : Proc → Option Proc) : Option (List Proc) :=
  procs[i]?.bind fun p => (f p).map fun q => procs.set i q

def step (v : Env) (procs : List Proc) : Act → Option (List Proc)
  | .umask i => go procs i fun p => if p.ctrl = .umask then some { p with umask := 0, ctrl := .firstFork } else none
  | .fork i pid =>
    procs[i]?.bind fun p =>
      let child : Option (Ctrl × String) :=
        if p.ctrl = .firstFork then some (.setsid, "first fork failed")
        else if p.ctrl = .secondFork then some (.chdir, "second fork failed")
        else none
      child.bind fun c =>
        match pid with
        | none => some (procs.set i (p.die c.2))
        | some pid =>
          if Fresh v procs pid then
            some (procs.set i { p with ctrl := .exit } ++ [{ p with pid := pid, ctrl := c.1 }])
          else none
  | .setsid i =>
    go procs i fun p =>
      if p.ctrl = .setsid then
        some (if Group v procs p.pid then p.die "setsid failed"
          else { p with pgid := p.pid, sid := p.pid, ctrl := .sigaction })
      else none
  | .sigaction i ok =>
    go procs i fun p =>
      if p.ctrl = .sigaction then
        some (if ok then { p with hupIgnored := true, ctrl := .secondFork } else p.die "sigaction failed")
      else none
  | .chdir i ok =>
    go procs i fun p =>
      if p.ctrl = .chdir then
        some (if ok then { p with cwd := lit "/", ctrl := .getrlimit } else p.die "chdir failed")
      else none
  | .getrlimit i ok =>
    go procs i fun p =>
      if p.ctrl = .getrlimit then some (if ok then { p with ctrl := .close 0 } else p.die "getrlimit failed") else none
  | .close i =>
    go procs i fun p =>
      match p.ctrl with
      | .close fd =>
        some (if fd < v.maxfd then { p with fds := p.fds.remove fd, ctrl := .close (fd + 1) }
          else { p with ctrl := .openNull })
      | _ => none
  | .newFd i fd =>
    go procs i fun p =>
      match p.ctrl with
      | .openNull => p.opens .devNull fd (.dup fd)
      -- `dup(-1)` fails.
      | .dup fd0 => if fd0 = none ∧ fd ≠ none then none else p.opens .devNull fd (.dupAgain fd0 fd)
      | .dupAgain fd0 fd1 => if fd0 = none ∧ fd ≠ none then none else p.opens .devNull fd (.check fd0 fd1 fd)
      | .notice => p.opens .log fd .returned
      | _ => none
  | .check i =>
    go procs i fun p =>
      match p.ctrl with
      | .check fd0 fd1 fd2 =>
        some (if fd0 = some 0 ∧ fd1 = some 1 ∧ fd2 = some 2 then { p with ctrl := .notice }
          else p.die "unexpected file descripters")
      | _ => none
  | .exit i => go procs i fun p => if p.ctrl = .exit then some { p with ctrl := .exited none } else none

variable {v : Env} {procs procs' : List Proc} {a : Act} {p q : Proc} {fds : Entries File}

/-! ## What a step does -/

/-- A process goes on by itself. -/
inductive Next (v : Env) (procs : List Proc) (p : Proc) : Proc → Prop
  | umask (hctrl : p.ctrl = .umask) : Next v procs p { p with umask := 0, ctrl := .firstFork }
  | noChild (hctrl : p.ctrl = .firstFork) : Next v procs p (p.die "first fork failed")
  | leader (hctrl : p.ctrl = .setsid) (hgroup : Group v procs p.pid) : Next v procs p (p.die "setsid failed")
  | setsid (hctrl : p.ctrl = .setsid) (hgroup : ¬Group v procs p.pid) :
      Next v procs p { p with pgid := p.pid, sid := p.pid, ctrl := .sigaction }
  | sigaction (hctrl : p.ctrl = .sigaction) : Next v procs p { p with hupIgnored := true, ctrl := .secondFork }
  | noAction (hctrl : p.ctrl = .sigaction) : Next v procs p (p.die "sigaction failed")
  | noGrandchild (hctrl : p.ctrl = .secondFork) : Next v procs p (p.die "second fork failed")
  | chdir (hctrl : p.ctrl = .chdir) : Next v procs p { p with cwd := lit "/", ctrl := .getrlimit }
  | noDir (hctrl : p.ctrl = .chdir) : Next v procs p (p.die "chdir failed")
  | getrlimit (hctrl : p.ctrl = .getrlimit) : Next v procs p { p with ctrl := .close 0 }
  | noLimit (hctrl : p.ctrl = .getrlimit) : Next v procs p (p.die "getrlimit failed")
  | close {fd : Nat} (hctrl : p.ctrl = .close fd) (hfd : fd < v.maxfd) :
      Next v procs p { p with fds := p.fds.remove fd, ctrl := .close (fd + 1) }
  | closed {fd : Nat} (hctrl : p.ctrl = .close fd) (hfd : v.maxfd ≤ fd) : Next v procs p { p with ctrl := .openNull }
  | openNull {q : Proc} (fd : Option Nat) (hctrl : p.ctrl = .openNull) (hq : p.opens .devNull fd (.dup fd) = some q) :
      Next v procs p q
  | dup {q : Proc} {fd0 : Option Nat} (fd : Option Nat) (hctrl : p.ctrl = .dup fd0)
      (hq : p.opens .devNull fd (.dupAgain fd0 fd) = some q) : Next v procs p q
  | dupAgain {q : Proc} {fd0 fd1 : Option Nat} (fd : Option Nat) (hctrl : p.ctrl = .dupAgain fd0 fd1)
      (hq : p.opens .devNull fd (.check fd0 fd1 fd) = some q) : Next v procs p q
  | check (hctrl : p.ctrl = .check (some 0) (some 1) (some 2)) : Next v procs p { p with ctrl := .notice }
  | unexpected {fd0 fd1 fd2 : Option Nat} (hctrl : p.ctrl = .check fd0 fd1 fd2) :
      Next v procs p (p.die "unexpected file descripters")
  | notice {q : Proc} (fd : Option Nat) (hctrl : p.ctrl = .notice) (hq : p.opens .log fd .returned = some q) :
      Next v procs p q
  | exit (hctrl : p.ctrl = .exit) : Next v procs p { p with ctrl := .exited none }

inductive Moves (v : Env) (procs : List Proc) : List Proc → Prop
  | next {i : Nat} {p q : Proc} (hp : procs[i]? = some p) (hq : Next v procs p q) : Moves v procs (procs.set i q)
  | fork {i : Nat} {p : Proc} {pid : Nat} {ctrl : Ctrl} (hp : procs[i]? = some p) (hpid : Fresh v procs pid)
      (hctrl : p.ctrl = .firstFork ∧ ctrl = .setsid ∨ p.ctrl = .secondFork ∧ ctrl = .chdir) :
      Moves v procs (procs.set i { p with ctrl := .exit } ++ [{ p with pid := pid, ctrl := ctrl }])

theorem moves_go {i : Nat} {f : Proc → Option Proc} (hf : ∀ p q, f p = some q → Next v procs p q)
    (h : go procs i f = some procs') : Moves v procs procs' := by
  obtain ⟨p, hp, h⟩ := Option.bind_eq_some_iff.1 h
  obtain ⟨q, hq, rfl⟩ := Option.map_eq_some_iff.1 h
  exact .next hp (hf p q hq)

theorem step_moves (hs : step v procs a = some procs') : Moves v procs procs' := by
  cases a with
  | umask i =>
    refine moves_go (fun p q h => ?_) hs
    split at h <;> cases h
    exact .umask ‹_›
  | fork i pid =>
    obtain ⟨p, hp, h⟩ := Option.bind_eq_some_iff.1 hs
    obtain ⟨c, hc, h⟩ := Option.bind_eq_some_iff.1 h
    have hfork : p.ctrl = .firstFork ∧ c = (.setsid, "first fork failed") ∨
        p.ctrl = .secondFork ∧ c = (.chdir, "second fork failed") := by
      split at hc
      · cases hc
        exact .inl ⟨‹_›, rfl⟩
      · split at hc <;> cases hc
        exact .inr ⟨‹_›, rfl⟩
    cases pid with
    | none =>
      cases h
      obtain ⟨hctrl, rfl⟩ | ⟨hctrl, rfl⟩ := hfork
      · exact .next hp (.noChild hctrl)
      · exact .next hp (.noGrandchild hctrl)
    | some pid =>
      simp only at h
      split at h <;> cases h
      refine .fork hp ‹_› ?_
      obtain ⟨hctrl, rfl⟩ | ⟨hctrl, rfl⟩ := hfork
      · exact .inl ⟨hctrl, rfl⟩
      · exact .inr ⟨hctrl, rfl⟩
  | setsid i =>
    refine moves_go (fun p q h => ?_) hs
    split at h <;> cases h
    split
    · exact .leader ‹_› ‹_›
    · exact .setsid ‹_› ‹_›
  | sigaction i ok =>
    refine moves_go (fun p q h => ?_) hs
    split at h <;> cases h
    split
    · exact .sigaction ‹_›
    · exact .noAction ‹_›
  | chdir i ok =>
    refine moves_go (fun p q h => ?_) hs
    split at h <;> cases h
    split
    · exact .chdir ‹_›
    · exact .noDir ‹_›
  | getrlimit i ok =>
    refine moves_go (fun p q h => ?_) hs
    split at h <;> cases h
    split
    · exact .getrlimit ‹_›
    · exact .noLimit ‹_›
  | close i =>
    refine moves_go (fun p q h => ?_) hs
    split at h <;> cases h
    split
    · exact .close ‹_› ‹_›
    · exact .closed ‹_› (Nat.le_of_not_lt ‹_›)
  | newFd i fd =>
    refine moves_go (fun p q h => ?_) hs
    split at h
    · exact .openNull fd ‹_› h
    · split at h
      · cases h
      · exact .dup fd ‹_› h
    · split at h
      · cases h
      · exact .dupAgain fd ‹_› h
    · exact .notice fd ‹_› h
    · cases h
  | check i =>
    refine moves_go (fun p q h => ?_) hs
    split at h <;> cases h
    split
    next hctrl h012 =>
      obtain ⟨rfl, rfl, rfl⟩ := h012
      exact .check hctrl
    next hctrl _ => exact .unexpected hctrl
  | exit i =>
    refine moves_go (fun p q h => ?_) hs
    split at h <;> cases h
    exact .exit ‹_›

end Daemonize

end SystemFunc.Daemon
