import SystemFunc.CString
import SystemFunc.Lib.Children
import SystemFunc.Lib.Entries
import SystemFunc.Lib.Steps

/-!
# `process_func/IPC/pipe6.c` and `process_func/IPC/pipe8.c`

A parent makes a pipe and forks twice; the first child makes the write end its standard output and runs a command that
writes (`ps ajx`, `ls`), the second one makes the read end its standard input and runs one that reads to the end of file
(`grep`, `wc -l`). The parent closes both ends and waits. `pipe` takes the lowest two descriptors that are not in use. A
read of the empty pipe returns `0` when no process has the write end, a write fails when none has the read end, and both
wait otherwise.

A child prints a line before it changes its descriptors. Where its standard output is no terminal, the line is in a
buffer, and `execlp` drops it; where `execlp` fails, the child exits, and the line goes to what is its standard output
by then.
-/

namespace SystemFunc.Pipeline

inductive End where
  | read
  | write
  deriving DecidableEq

/-- The other end of the pipe. -/
def End.other : End → End
  | .read => .write
  | .write => .read

/-- `STDIN_FILENO` and `STDOUT_FILENO`. -/
def End.std : End → Nat
  | .read => 0
  | .write => 1

/-- The end that child `idx` uses. -/
def End.ofIdx : Nat → End
  | 0 => .write
  | _ => .read

/-- What a descriptor refers to. -/
inductive File where
  | inherited (n : Nat)
  | pipe (e : End)
  deriving DecidableEq

inductive Prog where
  | pipe6
  | pipe8
  deriving DecidableEq

/-- The descriptors in use before `pipe` and what `pipe` returns; how many bytes the pipe holds, what the first command
writes, what the buffer of the standard output of a child holds, and what `perror` prints. -/
structure Setup where
  inherited : Nat → Bool
  openMax : Nat
  pipefd : End → Nat
  capacity : Nat
  out : List UInt8
  buffered : Nat → List UInt8
  perror : String → List UInt8
  read_free : inherited (pipefd .read) = false
  read_lowest : ∀ n < pipefd .read, inherited n = true
  write_free : inherited (pipefd .write) = false
  read_lt_write : pipefd .read < pipefd .write
  write_lowest : ∀ n < pipefd .write, n ≠ pipefd .read → inherited n = true
  pipefd_lt : ∀ e, pipefd e < openMax
  std_lt : ∀ e : End, e.std < openMax
  capacity_pos : 0 < capacity
  /-- A child that exits does not fill the pipe. -/
  room : ∀ j, (perror "execlp error").length + (buffered j).length ≤ capacity

/-- The descriptors behind `pipe`. -/
def Setup.fds (v : Setup) : Entries File := fun n =>
  if n = v.pipefd .read then some (.pipe .read)
  else if n = v.pipefd .write then some (.pipe .write)
  else if v.inherited n then some (.inherited n) else none

/-- The file is open. -/
def Setup.Open (v : Setup) (fds : Entries File) (f : File) : Prop := ∃ n < v.openMax, fds n = some f

instance (v : Setup) (fds : Entries File) (f : File) : Decidable (v.Open fds f) :=
  decidable_of_iff (((List.range v.openMax).any fun n => decide (fds n = some f)) = true) (by simp [Setup.Open])

inductive FdOp where
  | dup2 (old new : Nat)
  | close (fd : Nat)

/-- `none`: the call fails. -/
def FdOp.run (fds : Entries File) : FdOp → Option (Entries File)
  | .dup2 old new => (fds old).map fun f => fds.add new f
  | .close fd => if (fds fd).isSome then some (fds.remove fd) else none

/-- What a child does with its descriptors, by the end it uses. -/
def Prog.ops (v : Setup) (e : End) : Prog → List FdOp
  | .pipe6 => [.close (v.pipefd e.other), .dup2 (v.pipefd e) e.std]
  | .pipe8 => [.dup2 (v.pipefd e) e.std, .close (v.pipefd .read), .close (v.pipefd .write)]

/-- `pipe6.c` looks at what `dup2` returns. -/
def Prog.checks : Prog → FdOp → Bool
  | .pipe6, .dup2 _ _ => true
  | _, _ => false

/-- The descriptors behind a call; `none`: the child exits. -/
def Prog.table (g : Prog) (fds : Entries File) (op : FdOp) : Option (Entries File) :=
  match op.run fds with
  | some fds' => some fds'
  | none => if g.checks op then none else some fds

/-- What child `j` puts into the pipe when a call has failed: `pipe6.c` calls `perror`, and both exit. -/
def Prog.spill (g : Prog) (v : Setup) (j : Nat) (fds : Entries File) (what : String) : List UInt8 :=
  (if g = .pipe6 ∧ fds 2 = some (.pipe .write) then v.perror what else []) ++
    if fds End.write.std = some (.pipe .write) then v.buffered j else []

/-- In front of some calls and `execlp`, in the command, or exited. -/
inductive ChildCtrl where
  | ops (l : List FdOp)
  | running
  | exited

/-- `execed`: `execlp` has succeeded. -/
structure Proc where
  fds : Entries File
  ctrl : ChildCtrl
  execed : Bool

/-- `perror` is what has been printed by it. -/
inductive ParentCtrl where
  | fork
  | close (e : End)
  | wait
  | exited (code : Nat) (perror : Option String)
  deriving DecidableEq

/-- How the parent ends where no child is left: `pipe8.c` takes it for an error. -/
def Prog.last : Prog → ParentCtrl
  | .pipe6 => .exited 0 none
  | .pipe8 => .exited 1 (some "waitpid error")

/-- `sent` bytes have been written by the command, and `said` by a child that has exited for a call that has failed;
`got` is what has been read; `eof`: a read has returned `0`. -/
structure State where
  ctrl : ParentCtrl
  fds : Entries File
  kids : Children
  procs : List Proc
  pipe : List UInt8
  sent : Nat
  said : List UInt8
  got : List UInt8
  eof : Bool

inductive Act where
  | fork (ok : Bool)
  | close
  | wait (w : Waited)
  | op (j : Nat)
  | exec (j : Nat) (ok : Bool)
  | write (n : Nat)
  | read (n : Nat)
  | eof
  | fail (j : Nat)
  | finish

def start (v : Setup) : State where
  ctrl := .fork
  fds := v.fds
  kids := .empty
  procs := []
  pipe := []
  sent := 0
  said := []
  got := []
  eof := false

/-- A process has the end open. -/
def State.Has (v : Setup) (s : State) (e : End) : Prop :=
  v.Open s.fds (.pipe e) ∨ ∃ p ∈ s.procs, v.Open p.fds (.pipe e)

instance (v : Setup) (s : State) (e : End) : Decidable (s.Has v e) :=
  inferInstanceAs (Decidable (_ ∨ ∃ p ∈ s.procs, v.Open p.fds (.pipe e)))

def State.set (s : State) (j : Nat) (p : Proc) : State := { s with procs := s.procs.set j p }

/-- Child `j` exits. -/
def State.exit (s : State) (j : Nat) (p : Proc) : Option State :=
  (s.kids.exit j).map fun kids => { s.set j { p with fds := .empty, ctrl := .exited } with kids := kids }

/-- Child `j`, with these descriptors, is about to exit for a call that has failed; without a reader, `SIGPIPE` ends it. -/
def State.flush (g : Prog) (v : Setup) (s : State) (j : Nat) (fds : Entries File) (what : String) : State :=
  let text := if s.Has v .read then g.spill v j fds what else []
  { s with pipe := s.pipe ++ text, said := s.said ++ text }

/-- Child `j` runs its command. -/
def State.command (s : State) (j : Nat) (f : Proc → Option State) : Option State :=
  s.procs[j]?.bind fun p =>
    match p.ctrl with
    | .running => f p
    | .ops _ | .exited => none

def step (g : Prog) (v : Setup) (s : State) : Act → Option State
  | .fork ok =>
    if s.ctrl = .fork then
      some (if ok then
        { s with
          kids := s.kids.fork
          procs := s.procs ++ [⟨s.fds, .ops (g.ops v (.ofIdx s.procs.length)), false⟩]
          ctrl := if s.procs.length + 1 < 2 then .fork else .close .read }
      -- What `perror` prints here has no reader, whatever descriptor 2 is: there is no second child.
      else { s with ctrl := .exited 1 (some "fork error"), fds := .empty })
    else none
  | .close =>
    match s.ctrl with
    | .close .read => some { s with fds := s.fds.remove (v.pipefd .read), ctrl := .close .write }
    | .close .write => some { s with fds := s.fds.remove (v.pipefd .write), ctrl := .wait }
    | _ => none
  | .wait w =>
    -- `pipe6.c` calls `wait`, which does not return while children run.
    if s.ctrl = .wait ∧ (w = .again → g = .pipe8) then
      (s.kids.waitpid w).map fun kids =>
        match w with
        | .echild => { s with kids := kids, ctrl := g.last, fds := .empty }
        | .pid _ | .again => { s with kids := kids }
    else none
  | .op j =>
    s.procs[j]?.bind fun p =>
      match p.ctrl with
      | .ops (op :: l) =>
        match g.table p.fds op with
        | some fds => some (s.set j { p with fds := fds, ctrl := .ops l })
        | none => (s.flush g v j p.fds "dup2 error").exit j p
      | _ => none
  | .exec j ok =>
    s.procs[j]?.bind fun p =>
      match p.ctrl with
      | .ops [] =>
        if ok then some (s.set j { p with ctrl := .running, execed := true })
        else (s.flush g v j p.fds "execlp error").exit j p
      | _ => none
  | .write n =>
    s.command 0 fun p =>
      if p.fds End.write.std = some (.pipe .write) ∧ s.Has v .read ∧ 0 < n ∧ s.sent + n ≤ v.out.length ∧
          s.pipe.length + n ≤ v.capacity then
        some { s with pipe := s.pipe ++ (v.out.drop s.sent).take n, sent := s.sent + n }
      else none
  | .read n =>
    s.command 1 fun p =>
      if p.fds End.read.std = some (.pipe .read) ∧ 0 < n ∧ n ≤ s.pipe.length then
        some { s with got := s.got ++ s.pipe.take n, pipe := s.pipe.drop n }
      else none
  | .eof =>
    s.command 1 fun p =>
      if p.fds End.read.std = some (.pipe .read) ∧ s.pipe = [] ∧ ¬s.Has v .write then
        ({ s with eof := true } : State).exit 1 p
      else none
  -- A command exits when it cannot use its descriptor.
  | .fail j =>
    s.command j fun p =>
      if j = 0 ∧ s.sent < v.out.length ∧
            (p.fds End.write.std = none ∨ p.fds End.write.std = some (.pipe .write) ∧ ¬s.Has v .read) ∨
          j = 1 ∧ p.fds End.read.std = none then
        s.exit j p
      else none
  | .finish => s.command 0 fun p => if s.sent = v.out.length then s.exit 0 p else none

end SystemFunc.Pipeline
