import Mathlib.Data.List.Perm.Basic
import SystemFunc.Barrier.Merge
import SystemFunc.Lib.CondVar

/-!
# The threads of `thread/barrier.c`

`main` creates a thread for every chunk and then waits at the barrier; a thread sorts its chunk and waits there too. A
barrier lets its threads go when all of them, and `main`, have come. `qsort` is not one step: until it returns, the
cells of the chunk may hold anything. A pass of `merge` reads the array as it is then.

Of `pthread_create` nobody looks at the result: where it fails, `pthread_detach` is called with a `tid` that nobody has
set.
-/

namespace SystemFunc.Barrier

def compAsc (a b : CInt) : Int := if a.1 ≤ b.1 then -1 else 1

/-- Of `qsort`: what it may leave, for the comparison and what it has found. -/
abbrev Qsort := (CInt → CInt → Int) → List CInt → List CInt → Bool

/-- What the program asks of `qsort`: that it returns, and leaves what was there in the order of `comp_asc`. Of two
equal elements `comp_asc` says that the first one is the smaller one, whichever comes first; C wants `0` there, and
promises nothing. A sort that only asks whether the left one may stay on the left does not see the difference. -/
structure Sorts (qsort : Qsort) : Prop where
  returns : ∀ orig, ∃ cells, qsort compAsc orig cells = true
  perm : ∀ {orig cells}, qsort compAsc orig cells = true → cells.Perm orig
  sorted : ∀ {orig cells}, qsort compAsc orig cells = true → cells.Pairwise fun a b => compAsc a b ≤ 0

/-- Where a thread is; `sorting` holds what `qsort` has found. -/
inductive ThreadPc where
  | start
  | sorting (orig : List CInt)
  | sorted
  | blocked
  | returned
  deriving DecidableEq

def ThreadPc.isBlocked : ThreadPc → Bool
  | .blocked => true
  | _ => false

/-- `main` at the `i`-th pass of its loop or behind it, at the barrier, in `merge`, or behind it. -/
inductive MainPc where
  | creating (i : Nat)
  | blocked
  | merging (i : Nat) (s : State)
  | done

/-- Thread `j` has the chunk `j`; `waiting` counts who is at the barrier. -/
structure Prog where
  nums : List CInt
  snums : List CInt
  main : MainPc
  threads : List ThreadPc
  waiting : Nat

inductive Act where
  | create (ok : Bool)
  | mainWait
  | merge
  | sort (j : Nat)
  | scratch (j : Nat) (cells : List CInt)
  | sorted (j : Nat) (cells : List CInt)
  | wait (j : Nat)

/-- The chunk of thread `j`. -/
def part (m : Nat) (nums : List CInt) (j : Nat) : List CInt := (nums.drop (m * j)).take m

/-- The array with other cells in the chunk of thread `j`. -/
def setPart (m : Nat) (nums : List CInt) (j : Nat) (cells : List CInt) : List CInt :=
  nums.take (m * j) ++ (cells ++ nums.drop (m * j + m))

/-! ## The barrier -/

/-- `barrier`, on which the threads wait. -/
def barrier : CondVar ThreadPc where
  blocked := ThreadPc.isBlocked
  wake _ := .returned
  wake_blocked _ := rfl

/-- `main` goes on with the first lines of `merge`. -/
def Prog.wakeMain (k m : Nat) (p : Prog) : MainPc :=
  match p.main with
  | .blocked => .merging 0 ⟨(List.range k).map (m * ·), p.snums⟩
  | pc => pc

/-- `pthread_barrier_wait`, by a thread that is marked as blocked in `p`: the barrier is for `k + 1` threads. -/
def Prog.barrierWait (k m : Nat) (p : Prog) : Prog :=
  if p.waiting + 1 = k + 1 then
    { p with main := p.wakeMain k m, threads := barrier.broadcast p.threads, waiting := 0 }
  else { p with waiting := p.waiting + 1 }

/-! ## Steps -/

/-- `pthread_create`, and `pthread_detach` of the thread. -/
def create (k : Nat) (p : Prog) (ok : Bool) : Except Stop Prog :=
  match p.main with
  | .creating i =>
    if i < k then
      if ok then .ok { p with main := .creating (i + 1), threads := p.threads ++ [.start] } else .error .undefined
    else .error .disabled
  | _ => .error .disabled

/-- `main` behind its loop. -/
def mainWait (k m : Nat) (p : Prog) : Except Stop Prog :=
  match p.main with
  | .creating i => if i < k then .error .disabled else .ok (Prog.barrierWait k m { p with main := .blocked })
  | _ => .error .disabled

/-- A pass of the loop of `merge`, or its end. -/
def mergePass (k m : Nat) (p : Prog) : Except Stop Prog :=
  match p.main with
  | .merging i s =>
    if i < k * m then do
      let s ← pass k m p.nums s i
      return { p with main := .merging (i + 1) s }
    else .ok { p with main := .done, snums := s.snums }
  | _ => .error .disabled

/-- `ThreadHandler` calls `qsort`. -/
def callQsort (m : Nat) (p : Prog) (j : Nat) : Except Stop Prog :=
  match p.threads[j]? with
  | some .start => .ok { p with threads := p.threads.set j (.sorting (part m p.nums j)) }
  | _ => .error .disabled

/-- `qsort` has not returned yet. -/
def scratch (m : Nat) (p : Prog) (j : Nat) (cells : List CInt) : Except Stop Prog :=
  match p.threads[j]? with
  | some (.sorting _) =>
    if cells.length = m then .ok { p with nums := setPart m p.nums j cells } else .error .disabled
  | _ => .error .disabled

/-- `qsort` returns. -/
def qsortReturn (qsort : Qsort) (m : Nat) (p : Prog) (j : Nat) (cells : List CInt) : Except Stop Prog :=
  match p.threads[j]? with
  | some (.sorting orig) =>
    if qsort compAsc orig cells then
      .ok { p with nums := setPart m p.nums j cells, threads := p.threads.set j .sorted }
    else .error .disabled
  | _ => .error .disabled

/-- `ThreadHandler` behind the call. -/
def threadWait (k m : Nat) (p : Prog) (j : Nat) : Except Stop Prog :=
  match p.threads[j]? with
  | some .sorted => .ok (Prog.barrierWait k m { p with threads := p.threads.set j .blocked })
  | _ => .error .disabled

def act (qsort : Qsort) (k m : Nat) (p : Prog) : Act → Except Stop Prog
  | .create ok => create k p ok
  | .mainWait => mainWait k m p
  | .merge => mergePass k m p
  | .sort j => callQsort m p j
  | .scratch j cells => scratch m p j cells
  | .sorted j cells => qsortReturn qsort m p j cells
  | .wait j => threadWait k m p j

def step (qsort : Qsort) (k m : Nat) (p : Prog) (a : Act) : Option Prog := (act qsort k m p a).toOption

/-- Somebody has come through the barrier. -/
def Prog.behind (p : Prog) : Prop :=
  .returned ∈ p.threads ∨
    match p.main with
    | .merging .. | .done => True
    | _ => False

/-- Before the first thread. -/
def Prog.start (nums snums : List CInt) : Prog where
  nums := nums
  snums := snums
  main := .creating 0
  threads := []
  waiting := 0

end SystemFunc.Barrier
