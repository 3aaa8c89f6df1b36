import SystemFunc.Daemon.Daemonize
import SystemFunc.Lib.Progress

/-!
# What `Daemonize` leaves behind it

- `Opened`: the standard descriptors are the lowest ones, when they are free;
- `Shape`, `shape_run`: how far the three processes are;
- `run_length`: every step does something of what is left;
- `daemonizes`: whoever returns is neither the leader of its session nor of its process group, in a session without a
  terminal, with `/dev/null` as its standard descriptors; `setsid` does not fail.
-/

namespace SystemFunc.Daemon

namespace Daemonize

variable {v : Env} {procs procs' : List Proc} {a : Act} {p q : Proc} {fds : Entries File}

/-! ## The descriptors -/

/-- The descriptors when those below `k` have been closed. -/
def closedBelow (v : Env) (k : Nat) : Entries File := fun fd => if fd < k then none else v.caller.fds fd

theorem closedBelow_zero : closedBelow v 0 = v.caller.fds := by
  funext fd
  rw [closedBelow, if_neg (Nat.not_lt_zero fd)]

theorem closedBelow_succ (k : Nat) : (closedBelow v k).remove k = closedBelow v (k + 1) := by
  funext fd
  by_cases hk : fd = k
  · rw [hk, Entries.remove_self, closedBelow, if_pos (Nat.lt_succ_self k)]
  · have hiff : fd < k + 1 ↔ fd < k := by omega
    rw [Entries.remove_of_ne hk, closedBelow, closedBelow]
    simp only [hiff]

/-- The descriptors after calls that each make one for `/dev/null`, or fail; what the last one has returned is in
front. -/
inductive Opened (fds : Entries File) : List (Option Nat) → Entries File → Prop
  | nil : Opened fds [] fds
  | fail {ns : List (Option Nat)} {fds' : Entries File} (h : Opened fds ns fds') : Opened fds (none :: ns) fds'
  | new {ns : List (Option Nat)} {fds' : Entries File} {n : Nat} (h : Opened fds ns fds') (hn : Lowest fds' n) :
      Opened fds (some n :: ns) (fds'.add n .devNull)

theorem opens_opened {ns : List (Option Nat)} {fd : Option Nat} {ctrl : Ctrl} (ho : Opened fds ns p.fds)
    (hq : p.opens .devNull fd ctrl = some q) :
    ∃ fds', q = { p with fds := fds', ctrl := ctrl } ∧ Opened fds (fd :: ns) fds' := by
  cases fd with
  | none =>
    cases hq
    exact ⟨_, rfl, .fail ho⟩
  | some n =>
    rw [Proc.opens] at hq
    split at hq <;> cases hq
    exact ⟨_, rfl, .new ho ‹_›⟩

/-- There is one lowest descriptor. -/
theorem Lowest.eq {n m : Nat} (h : Lowest fds n) (hm : fds m = none) (hlt : ∀ k < m, (fds k).isSome = true) : n = m := by
  obtain hlt' | heq | hgt := Nat.lt_trichotomy n m
  · have hsome := hlt n hlt'
    rw [h.1] at hsome
    cases hsome
  · exact heq
  · have hsome := h.2 m hgt
    rw [hm] at hsome
    cases hsome

/-- Where three descriptors have been made, they are the standard ones if these were free. -/
theorem Opened.standard {fds' : Entries File} {fd0 fd1 fd2 : Nat}
    (h : Opened fds [some fd2, some fd1, some fd0] fds') (hfree : ∀ fd < 3, fds fd = none) :
    fd0 = 0 ∧ fd1 = 1 ∧ fd2 = 2 := by
  cases h with
  | new h h2 =>
  cases h with
  | new h h1 =>
  cases h with
  | new h h0 =>
  cases h
  obtain rfl : fd0 = 0 := h0.eq (hfree 0 (by omega)) (fun k hk => absurd hk (Nat.not_lt_zero k))
  obtain rfl : fd1 = 1 := by
    refine h1.eq ?_ fun k hk => ?_
    · rw [Entries.add_of_ne (by omega)]
      exact hfree 1 (by omega)
    · obtain rfl : k = 0 := by omega
      rw [Entries.add_self]
      rfl
  refine ⟨rfl, rfl, h2.eq ?_ fun k hk => ?_⟩
  · rw [Entries.add_of_ne (by omega), Entries.add_of_ne (by omega)]
    exact hfree 2 (by omega)
  · obtain rfl | rfl : k = 1 ∨ k = 0 := by omega
    · rw [Entries.add_self]
      rfl
    · rw [Entries.add_of_ne (by omega), Entries.add_self]
      rfl

/-- The standard descriptors have been made, and nothing else has changed. -/
theorem Opened.eq {fds' : Entries File} (h : Opened fds [some 2, some 1, some 0] fds') (fd : Nat) :
    fds' fd = if fd < 3 then some .devNull else fds fd := by
  cases h with
  | new h _ =>
  cases h with
  | new h _ =>
  cases h with
  | new h _ =>
  cases h
  obtain rfl | rfl | rfl | hfd : fd = 2 ∨ fd = 1 ∨ fd = 0 ∨ 3 ≤ fd := by omega
  · rfl
  · rfl
  · rfl
  · rw [Entries.add_of_ne (by omega), Entries.add_of_ne (by omega), Entries.add_of_ne (by omega), if_neg (by omega)]

/-! ## How far they are -/

/-- The process that has called `Daemonize`. -/
structure Caller (v : Env) (p : Proc) : Prop where
  fds : p.fds = v.caller.fds
  pgid : p.pgid = v.caller.pgid
  sid : p.sid = v.caller.sid
  ctrl : p.ctrl = .umask ∨ p.umask = 0 ∧ p.ctrl = .firstFork ∨ p.ctrl = .exited (some "first fork failed")

/-- A parent behind its fork. -/
def Proc.Leaving (p : Proc) : Prop := p.ctrl = .exit ∨ p.ctrl = .exited none

/-- The child, which begins the session. -/
structure Child (v : Env) (p : Proc) : Prop where
  fds : p.fds = v.caller.fds
  umask : p.umask = 0
  unused : v.used p.pid = false
  pgid_ne : p.pid ≠ v.caller.pgid
  sid_ne : p.pid ≠ v.caller.sid
  ctrl : p.ctrl = .setsid ∧ p.pgid = v.caller.pgid ∨
    (p.ctrl = .sigaction ∨ p.hupIgnored = true ∧ p.ctrl = .secondFork) ∧ p.pgid = p.pid ∧ p.sid = p.pid ∨
    p.ctrl = .exited (some "sigaction failed") ∨ p.ctrl = .exited (some "second fork failed")

/-- The directory and the descriptors of the child's child. -/
def Proc.Stage (v : Env) (p : Proc) : Prop :=
  let fds := closedBelow v v.maxfd
  match p.ctrl with
  | .chdir => p.fds = v.caller.fds
  | .getrlimit => p.cwd = lit "/" ∧ p.fds = v.caller.fds
  | .close k => p.cwd = lit "/" ∧ k ≤ v.maxfd ∧ p.fds = closedBelow v k
  | .openNull => p.cwd = lit "/" ∧ p.fds = fds
  | .dup fd0 => p.cwd = lit "/" ∧ Opened fds [fd0] p.fds
  | .dupAgain fd0 fd1 => p.cwd = lit "/" ∧ Opened fds [fd1, fd0] p.fds
  | .check fd0 fd1 fd2 => p.cwd = lit "/" ∧ Opened fds [fd2, fd1, fd0] p.fds
  | .notice => p.cwd = lit "/" ∧ Opened fds [some 2, some 1, some 0] p.fds
  | .returned => p.cwd = lit "/" ∧ ∃ fds', Opened fds [some 2, some 1, some 0] fds' ∧
      (p.fds = fds' ∨ ∃ n, Lowest fds' n ∧ p.fds = fds'.add n .log)
  | .exited headStr => headStr ≠ none ∧ headStr ≠ some "setsid failed"
  | _ => False

/-- The child's child. -/
structure Worker (v : Env) (p : Proc) : Prop where
  umask : p.umask = 0
  hupIgnored : p.hupIgnored = true
  pgid : p.pgid = p.sid
  pid_ne : p.pid ≠ p.sid
  unused : v.used p.sid = false
  sid_ne : p.sid ≠ v.caller.sid
  stage : p.Stage v

inductive Shape (v : Env) : List Proc → Prop
  | caller {p : Proc} (h : Caller v p) : Shape v [p]
  | child {p q : Proc} (hp : p.Leaving) (hpgid : p.pgid = v.caller.pgid) (h : Child v q) : Shape v [p, q]
  | worker {p q r : Proc} (hp : p.Leaving) (hq : q.Leaving) (h : Worker v r) : Shape v [p, q, r]

theorem Proc.Leaving.next (h : p.Leaving) (hn : Next v procs p q) : q.Leaving ∧ q.pgid = p.pgid := by
  obtain h | h := h <;> cases hn <;> simp_all [Proc.Leaving]

theorem Caller.next (h : Caller v p) (hn : Next v procs p q) : Caller v q := by
  obtain ⟨hfds, hpgid, hsid, hctrl⟩ := h
  cases hn with
  | umask _ => exact ⟨hfds, hpgid, hsid, .inr (.inl ⟨rfl, rfl⟩)⟩
  | noChild _ => exact ⟨hfds, hpgid, hsid, .inr (.inr rfl)⟩
  | _ => simp_all

/-- **`setsid` does not fail**: the pid of the child is no process group. -/
theorem Child.not_group (h : Child v q) (hpgid : p.pgid = v.caller.pgid) (hctrl : q.ctrl = .setsid) :
    ¬Group v [p, q] q.pid := by
  have hq : q.pgid = v.caller.pgid := by
    obtain ⟨-, hq⟩ | ⟨hne | ⟨-, hne⟩, -⟩ | hne | hne := h.ctrl
    · exact hq
    all_goals rw [hctrl] at hne; cases hne
  rintro (hgroup | ⟨r, hr, -, hrpid⟩)
  · have hused := v.groups_used _ hgroup
    rw [h.unused] at hused
    cases hused
  · obtain rfl | hr := List.mem_cons.1 hr
    · exact h.pgid_ne (hrpid.symm.trans hpgid)
    · obtain rfl := List.mem_singleton.1 hr
      exact h.pgid_ne (hrpid.symm.trans hq)

theorem Child.next (h : Child v q) (hpgid : p.pgid = v.caller.pgid) {r : Proc} (hn : Next v [p, q] q r) :
    Child v r := by
  have hgroup := h.not_group hpgid
  obtain ⟨hfds, humask, hunused, hpgid_ne, hsid_ne, hctrl⟩ := h
  cases hn with
  | leader hctrl' hg => exact absurd hg (hgroup hctrl')
  | setsid hctrl' _ => exact ⟨hfds, humask, hunused, hpgid_ne, hsid_ne, .inr (.inl ⟨.inl rfl, rfl, rfl⟩)⟩
  | sigaction hctrl' =>
    have hsession : q.pgid = q.pid ∧ q.sid = q.pid := by simpa [hctrl'] using hctrl
    exact ⟨hfds, humask, hunused, hpgid_ne, hsid_ne, .inr (.inl ⟨.inr ⟨rfl, rfl⟩, hsession⟩)⟩
  | noAction _ => exact ⟨hfds, humask, hunused, hpgid_ne, hsid_ne, .inr (.inr (.inl rfl))⟩
  | noGrandchild _ => exact ⟨hfds, humask, hunused, hpgid_ne, hsid_ne, .inr (.inr (.inr rfl))⟩
  | _ => simp_all

theorem Worker.keep (h : Worker v p) (humask : q.umask = p.umask) (hhup : q.hupIgnored = p.hupIgnored)
    (hpid : q.pid = p.pid) (hpgid : q.pgid = p.pgid) (hsid : q.sid = p.sid) (hstage : q.Stage v) : Worker v q where
  umask := humask.trans h.umask
  hupIgnored := hhup.trans h.hupIgnored
  pgid := hpgid.trans (h.pgid.trans hsid.symm)
  pid_ne := by rw [hpid, hsid]; exact h.pid_ne
  unused := by rw [hsid]; exact h.unused
  sid_ne := by rw [hsid]; exact h.sid_ne
  stage := hstage

theorem Worker.next (h : Worker v p) (hn : Next v procs p q) : Worker v q := by
  have hstage := h.stage
  unfold Proc.Stage at hstage
  cases hn with
  | umask hctrl | noChild hctrl | leader hctrl | setsid hctrl | sigaction hctrl | noAction hctrl | noGrandchild hctrl
  | exit hctrl =>
    rw [hctrl] at hstage
    exact hstage.elim
  | chdir hctrl =>
    rw [hctrl] at hstage
    exact h.keep rfl rfl rfl rfl rfl ⟨rfl, hstage⟩
  | noDir hctrl | noLimit hctrl | unexpected hctrl =>
    exact h.keep rfl rfl rfl rfl rfl ⟨by decide, by decide⟩
  | getrlimit hctrl =>
    rw [hctrl] at hstage
    exact h.keep rfl rfl rfl rfl rfl ⟨hstage.1, Nat.zero_le _, hstage.2.trans closedBelow_zero.symm⟩
  | @close fd hctrl hfd =>
    rw [hctrl] at hstage
    obtain ⟨hcwd, -, hfds⟩ := hstage
    refine h.keep rfl rfl rfl rfl rfl ⟨hcwd, hfd, ?_⟩
    rw [hfds]
    exact closedBelow_succ fd
  | @closed fd hctrl hfd =>
    rw [hctrl] at hstage
    obtain ⟨hcwd, hle, hfds⟩ := hstage
    obtain rfl : fd = v.maxfd := Nat.le_antisymm hle hfd
    exact h.keep rfl rfl rfl rfl rfl ⟨hcwd, hfds⟩
  | openNull fd hctrl hq =>
    rw [hctrl] at hstage
    obtain ⟨hcwd, hfds⟩ := hstage
    have hnone : Opened (closedBelow v v.maxfd) [] p.fds := by
      rw [hfds]
      exact .nil
    obtain ⟨fds', rfl, ho⟩ := opens_opened hnone hq
    exact h.keep rfl rfl rfl rfl rfl ⟨hcwd, ho⟩
  | dup fd hctrl hq | dupAgain fd hctrl hq =>
    rw [hctrl] at hstage
    obtain ⟨fds', rfl, ho⟩ := opens_opened hstage.2 hq
    exact h.keep rfl rfl rfl rfl rfl ⟨hstage.1, ho⟩
  | check hctrl =>
    rw [hctrl] at hstage
    exact h.keep rfl rfl rfl rfl rfl hstage
  | notice fd hctrl hq =>
    rw [hctrl] at hstage
    obtain ⟨hcwd, ho⟩ := hstage
    cases fd with
    | none =>
      cases hq
      exact h.keep rfl rfl rfl rfl rfl ⟨hcwd, p.fds, ho, .inl rfl⟩
    | some n =>
      rw [Proc.opens] at hq
      split at hq <;> cases hq
      exact h.keep rfl rfl rfl rfl rfl ⟨hcwd, p.fds, ho, .inr ⟨n, ‹_›, rfl⟩⟩

theorem shape_start (v : Env) : Shape v (start v) := .caller ⟨rfl, rfl, rfl, .inl rfl⟩

theorem Caller.fork (h : Caller v p) {pid : Nat} (hctrl : p.ctrl = .firstFork) (hpid : Fresh v [p] pid) :
    Child v { p with pid := pid, ctrl := .setsid } := by
  have humask : p.umask = 0 := by
    obtain hne | ⟨humask, -⟩ | hne := h.ctrl
    · rw [hctrl] at hne
      cases hne
    · exact humask
    · rw [hctrl] at hne
      cases hne
  have huses := hpid.2 p List.mem_cons_self (by rw [Proc.live, hctrl])
  refine ⟨h.fds, humask, hpid.1, fun he => ?_, fun he => ?_, .inl ⟨rfl, h.pgid⟩⟩
  · exact huses (.inr (.inl (h.pgid.trans he.symm)))
  · exact huses (.inr (.inr (h.sid.trans he.symm)))

theorem Child.fork (h : Child v q) {pid : Nat} (hctrl : q.ctrl = .secondFork) (hpid : Fresh v [p, q] pid) :
    Worker v { q with pid := pid, ctrl := .chdir } := by
  obtain ⟨hhup, hpgid, hsid⟩ : q.hupIgnored = true ∧ q.pgid = q.pid ∧ q.sid = q.pid := by
    simpa [hctrl] using h.ctrl
  have huses := hpid.2 q (List.mem_cons_of_mem _ List.mem_cons_self) (by rw [Proc.live, hctrl])
  exact ⟨h.umask, hhup, hpgid.trans hsid.symm, fun he => huses (.inr (.inr he.symm)), by rw [hsid]; exact h.unused,
    by rw [hsid]; exact h.sid_ne, h.fds⟩

theorem Child.not_firstFork (h : Child v q) : q.ctrl ≠ .firstFork := by
  intro hctrl
  simpa [hctrl] using h.ctrl

theorem Worker.not_fork (h : Worker v q) : q.ctrl ≠ .firstFork ∧ q.ctrl ≠ .secondFork := by
  have hstage := h.stage
  unfold Proc.Stage at hstage
  constructor <;> intro hctrl <;> rw [hctrl] at hstage <;> exact hstage

theorem Proc.Leaving.not_fork (h : p.Leaving) : p.ctrl ≠ .firstFork ∧ p.ctrl ≠ .secondFork := by
  obtain h | h := h <;> rw [h] <;> exact ⟨nofun, nofun⟩

theorem shape_step (h : Shape v procs) (hs : step v procs a = some procs') : Shape v procs' := by
  cases step_moves hs with
  | @next i p q hp hn =>
    cases h with
    | caller h0 =>
      match i, hp with
      | 0, rfl => exact .caller (h0.next hn)
    | child h0 hpgid h1 =>
      match i, hp with
      | 0, rfl =>
        obtain ⟨hleave, hsame⟩ := h0.next hn
        exact .child hleave (hsame.trans hpgid) h1
      | 1, rfl => exact .child h0 hpgid (h1.next hpgid hn)
    | worker h0 h1 h2 =>
      match i, hp with
      | 0, rfl => exact .worker (h0.next hn).1 h1 h2
      | 1, rfl => exact .worker h0 (h1.next hn).1 h2
      | 2, rfl => exact .worker h0 h1 (h2.next hn)
  | @fork i p pid ctrl hp hpid hfork =>
    cases h with
    | caller h0 =>
      match i, hp with
      | 0, rfl =>
        obtain ⟨hctrl, rfl⟩ | ⟨hctrl, -⟩ := hfork
        · exact .child (.inl rfl) h0.pgid (h0.fork hctrl hpid)
        · exact absurd h0.ctrl (by simp [hctrl])
    | child h0 hpgid h1 =>
      match i, hp with
      | 0, rfl => exact absurd hfork (by simp [h0.not_fork])
      | 1, rfl =>
        obtain ⟨hctrl, -⟩ | ⟨hctrl, rfl⟩ := hfork
        · exact absurd hctrl h1.not_firstFork
        · exact .worker h0 (.inl rfl) (h1.fork hctrl hpid)
    | worker h0 h1 h2 =>
      match i, hp with
      | 0, rfl => exact absurd hfork (by simp [h0.not_fork])
      | 1, rfl => exact absurd hfork (by simp [h1.not_fork])
      | 2, rfl => exact absurd hfork (by simp [h2.not_fork])

theorem shape_run {as : List Act} (hr : Steps.run (step v) (start v) as = some procs) : Shape v procs :=
  Steps.run_inv (fun _ _ _ h hs => shape_step h hs) (shape_start v) hr

/-! ## What is left to do -/

def Ctrl.cost (v : Env) : Ctrl → Nat
  | .umask => v.maxfd + 16
  | .firstFork => v.maxfd + 15
  | .setsid => v.maxfd + 13
  | .sigaction => v.maxfd + 12
  | .secondFork => v.maxfd + 11
  | .chdir => v.maxfd + 9
  | .getrlimit => v.maxfd + 8
  | .close fd => v.maxfd - fd + 7
  | .openNull => 6
  | .dup _ => 5
  | .dupAgain _ _ => 4
  | .check _ _ _ => 3
  | .notice => 2
  | .exit => 1
  | .returned => 0
  | .exited _ => 0

def cost (v : Env) (procs : List Proc) : Nat := (procs.map fun p => p.ctrl.cost v).sum

theorem opens_ctrl {file : File} {fd : Option Nat} {ctrl : Ctrl} (hq : p.opens file fd ctrl = some q) :
    q.ctrl = ctrl := by
  cases fd with
  | none =>
    cases hq
    rfl
  | some n =>
    rw [Proc.opens] at hq
    split at hq <;> cases hq
    rfl

theorem Next.cost_lt (h : Next v procs p q) : q.ctrl.cost v < p.ctrl.cost v := by
  cases h with
  | openNull _ hctrl hq | dup _ hctrl hq | dupAgain _ hctrl hq | notice _ hctrl hq =>
    rw [hctrl, opens_ctrl hq]
    exact Nat.le_of_ble_eq_true rfl
  | leader hctrl _ | setsid hctrl _ | close hctrl _ | closed hctrl _ =>
    simp only [hctrl, Ctrl.cost, Proc.die]
    omega
  | umask hctrl | noChild hctrl | sigaction hctrl | noAction hctrl | noGrandchild hctrl | chdir hctrl | noDir hctrl
  | getrlimit hctrl | noLimit hctrl | check hctrl | unexpected hctrl | exit hctrl =>
    simp only [hctrl, Ctrl.cost, Proc.die]
    omega

/-- Every step does something of what is left. -/
theorem step_cost (hs : step v procs a = some procs') : cost v procs' + 1 ≤ cost v procs := by
  cases step_moves hs with
  | @next i p q hp hn =>
    have hsum := Steps.sum_map_set_add (fun p => p.ctrl.cost v) hp q
    have hlt := hn.cost_lt
    simp only [cost]
    omega
  | @fork i p pid ctrl hp _ hfork =>
    have hsum := Steps.sum_map_set_add (fun p => p.ctrl.cost v) hp { p with ctrl := .exit }
    have hpay : 1 + ctrl.cost v < p.ctrl.cost v := by
      obtain ⟨hctrl, rfl⟩ | ⟨hctrl, rfl⟩ := hfork <;> rw [hctrl] <;> simp only [Ctrl.cost] <;> omega
    simp only [Ctrl.cost] at hsum hpay
    simp only [cost, List.map_append, List.sum_append, List.map_cons, List.map_nil, List.sum_cons, List.sum_nil,
      Ctrl.cost]
    omega

theorem run_length {as : List Act} (hr : Steps.run (step v) (start v) as = some procs) :
    as.length ≤ v.maxfd + 16 := by
  have hle := Steps.run_countP_le (I := fun _ => True) (f := cost v) (c := fun _ => true) (fun _ _ _ _ _ => trivial)
    (fun _ _ _ _ hs => step_cost hs) trivial hr
  rw [List.countP_true] at hle
  exact Nat.le_trans (Nat.le_add_left _ _) hle

/-! ## The daemon -/

/-- What `Daemonize` leaves behind it. -/
structure Daemonized (v : Env) (p : Proc) : Prop where
  umask : p.umask = 0
  cwd : p.cwd = lit "/"
  hupIgnored : p.hupIgnored = true
  notSessionLeader : p.pid ≠ p.sid
  notGroupLeader : p.pid ≠ p.pgid
  newSession : p.sid ≠ v.caller.sid
  noTerminal : v.tty p.sid = false
  fds : ∃ fds : Entries File,
    (∀ fd, fds fd = if fd < 3 then some .devNull else if fd < v.maxfd then none else v.caller.fds fd) ∧
      (p.fds = fds ∨ ∃ n, Lowest fds n ∧ p.fds = fds.add n .log)

theorem Worker.daemonized (h : Worker v p) (hctrl : p.ctrl = .returned) : Daemonized v p := by
  have hstage := h.stage
  unfold Proc.Stage at hstage
  rw [hctrl] at hstage
  obtain ⟨hcwd, fds, ho, hfds⟩ := hstage
  refine ⟨h.umask, hcwd, h.hupIgnored, h.pid_ne, by rw [h.pgid]; exact h.pid_ne, h.sid_ne, ?_, fds, ho.eq, hfds⟩
  refine Bool.eq_false_iff.2 fun htty => ?_
  obtain hused | hsid := v.tty_used _ htty
  · rw [h.unused] at hused
    cases hused
  · exact h.sid_ne hsid

/-- It does not check the descriptors, does not return, and does not exit for `setsid`. -/
structure Proc.Other (p : Proc) : Prop where
  check : ∀ fd0 fd1 fd2, p.ctrl ≠ .check fd0 fd1 fd2
  returned : p.ctrl ≠ .returned
  setsid : p.ctrl ≠ .exited (some "setsid failed")

theorem Caller.other (h : Caller v p) : p.Other := by
  obtain hctrl | ⟨-, hctrl⟩ | hctrl := h.ctrl <;> constructor <;> simp [hctrl]

theorem Proc.Leaving.other (h : p.Leaving) : p.Other := by
  obtain hctrl | hctrl := h <;> constructor <;> simp [hctrl]

theorem Child.other (h : Child v p) : p.Other := by
  obtain ⟨hctrl, -⟩ | ⟨hctrl | ⟨-, hctrl⟩, -⟩ | hctrl | hctrl := h.ctrl <;> constructor <;> simp [hctrl]

/-- It is the third process that goes on. -/
theorem Shape.other_or (h : Shape v procs) {i : Nat} (hp : procs[i]? = some p) :
    p.Other ∨ i = 2 ∧ Worker v p ∧ ∀ (j : Nat) (q : Proc), j < 2 → procs[j]? = some q → q.Leaving := by
  cases h with
  | caller h0 =>
    match i, hp with
    | 0, rfl => exact .inl h0.other
  | child h0 _ h1 =>
    match i, hp with
    | 0, rfl => exact .inl h0.other
    | 1, rfl => exact .inl h1.other
  | worker h0 h1 h2 =>
    match i, hp with
    | 0, rfl => exact .inl h0.other
    | 1, rfl => exact .inl h1.other
    | 2, rfl =>
      refine .inr ⟨rfl, h2, fun j q hj hq => ?_⟩
      match j, hq, hj with
      | 0, rfl, _ => exact h0
      | 1, rfl, _ => exact h1

/-- Where `open` and `dup` have made three descriptors behind the loop, the check succeeds. -/
theorem Worker.check (h : Worker v p) (hmaxfd : 3 ≤ v.maxfd) {fd0 fd1 fd2 : Nat}
    (hctrl : p.ctrl = .check (some fd0) (some fd1) (some fd2)) : fd0 = 0 ∧ fd1 = 1 ∧ fd2 = 2 := by
  have hstage := h.stage
  unfold Proc.Stage at hstage
  rw [hctrl] at hstage
  exact hstage.2.standard fun fd hfd => if_pos (Nat.lt_of_lt_of_le hfd hmaxfd)

theorem Worker.setsid (h : Worker v p) : p.ctrl ≠ .exited (some "setsid failed") := by
  intro hctrl
  have hstage := h.stage
  unfold Proc.Stage at hstage
  rw [hctrl] at hstage
  exact hstage.2 rfl

/-- What becomes of process `i`: the process that returns is the third one, and the other two have done with it; `setsid`
does not fail, and the check of the descriptors does not where `open` and `dup` have not. -/
structure Outcome (v : Env) (procs : List Proc) (i : Nat) (p : Proc) : Prop where
  daemon : p.ctrl = .returned → i = 2 ∧ Daemonized v p
  others : p.ctrl = .returned → ∀ (j : Nat) (q : Proc), j < 2 → procs[j]? = some q → q.Leaving
  setsid : p.ctrl ≠ .exited (some "setsid failed")
  check : 3 ≤ v.maxfd → ∀ fd0 fd1 fd2, p.ctrl = .check (some fd0) (some fd1) (some fd2) → fd0 = 0 ∧ fd1 = 1 ∧ fd2 = 2

/-- **`Daemonize` makes a daemon**, in a bounded number of steps, whatever the calls return. -/
theorem daemonizes {as : List Act} (hr : Steps.run (step v) (start v) as = some procs) :
    as.length ≤ v.maxfd + 16 ∧ ∀ (i : Nat) (p : Proc), procs[i]? = some p → Outcome v procs i p := by
  refine ⟨run_length hr, fun i p hp => ?_⟩
  obtain hother | ⟨rfl, hworker, hleave⟩ := (shape_run hr).other_or hp
  · exact {
      daemon := fun hctrl => absurd hctrl hother.returned
      others := fun hctrl => absurd hctrl hother.returned
      setsid := hother.setsid
      check := fun _ fd0 fd1 fd2 hctrl => absurd hctrl (hother.check (some fd0) (some fd1) (some fd2)) }
  · exact {
      daemon := fun hctrl => ⟨rfl, hworker.daemonized hctrl⟩
      others := fun _ => hleave
      setsid := hworker.setsid
      check := fun hmaxfd _ _ _ hctrl => hworker.check hmaxfd hctrl }

/-- A shell has started process `7` in its own group, with a terminal and four descriptors; `RLIMIT_NOFILE` is four. -/
def shellEnv : Env where
  caller := ⟨7, 7, 5, 18, lit "/home", fun fd => if fd < 4 then some (.inherited fd) else none, false, .umask⟩
  rlimMax := some 4
  used n := n == 5
  groups _ := false
  tty n := n == 5
  groups_used _ h := by cases h
  tty_used n h := .inl h

def shellRun : List Act :=
  [.umask 0, .fork 0 (some 8), .setsid 1, .exit 0, .sigaction 1 true, .fork 1 (some 9), .exit 1, .chdir 2 true,
    .getrlimit 2 true, .close 2, .close 2, .close 2, .close 2, .close 2, .newFd 2 (some 0), .newFd 2 (some 1),
    .newFd 2 (some 2), .check 2, .newFd 2 (some 3)]

theorem daemonizes_shell : ∃ procs, Steps.run (step shellEnv) (start shellEnv) shellRun = some procs ∧
    (procs.map fun p => (p.pid, p.pgid, p.sid, p.ctrl)) =
      [(7, 7, 5, .exited none), (8, 8, 8, .exited none), (9, 8, 8, .returned)] ∧
    shellRun.length ≤ shellEnv.maxfd + 16 ∧
    ∀ (i : Nat) (p : Proc), procs[i]? = some p → Outcome shellEnv procs i p := by
  have hr : Steps.run (step shellEnv) (start shellEnv) shellRun = some _ := rfl
  exact ⟨_, hr, rfl, daemonizes hr⟩

end Daemonize

end SystemFunc.Daemon
