import Mathlib.Logic.Function.Basic
import SystemFunc.CLang

/-!
# The shared segment of `process_func/IPC/POSIX_SEMAPHORE/anonymous_semaphore.c`

Two semaphores and a ring of five elements in a System V segment, and the loops of the processes on it. `α` is
`union data_elem_t`. `named_semaphore.c` has the same queue functions and the same loops; its semaphores are named
ones, outside the segment.

A pointer parameter is an `Option`, `none` for `NULL`. What a function prints on `stderr` is part of its result.
`procStep` is one step of a process: `sprintf` into its element, `sem_wait`, `queue_add` or `queue_pop`, `sem_post`.
-/

namespace SystemFunc.ShmQueue

variable {α : Type*}

def QUEUE_MAX_SIZE : Nat := 5

/-- `struct sem_pair_t`, the values of the two semaphores. -/
structure SemPairT where
  semSpace : Nat
  semProduct : Nat

structure QueueDataT (α : Type*) where
  front : Nat
  rear : Nat
  size : Nat
  arr : List α

/-- `fprintf(stderr, "parameter error\n")` and `exit(EXIT_FAILURE)`. -/
def parameterError : Stop := .exit 0 "parameter error\n"

/-- `bzero` of the whole queue; `zero` is an element of zero bytes. -/
def queueInit (zero : α) : Option (QueueDataT α) → Except Stop (QueueDataT α)
  | none => .error parameterError
  | some _ => .ok { front := 0, rear := 0, size := 0, arr := List.replicate QUEUE_MAX_SIZE zero }

def queueGetFreeSpace : Option (QueueDataT α) → Except Stop Nat
  | none => .error parameterError
  | some queue => .ok (u32 (QUEUE_MAX_SIZE - queue.size))

/-- The queue after the call, and what it printed. -/
def queueAdd : Option (QueueDataT α) → Option α → Except Stop (QueueDataT α × Option String)
  | some queue, some tmp =>
    (queueGetFreeSpace (some queue)).map fun free =>
      if free ≤ 0 then (queue, some "no free space\n")
      else ({ queue with
        arr := queue.arr.set queue.rear tmp
        rear := u32 (queue.rear + 1) % QUEUE_MAX_SIZE
        size := u32 (queue.size + 1) }, none)
  | _, _ => .error parameterError

/-- The queue after the call, `*tmp` after the call, and what it printed. -/
def queuePop : Option (QueueDataT α) → Option α → Except Stop (QueueDataT α × Option α × Option String)
  | none, _ => .error parameterError
  | some queue, tmp =>
    if queue.size ≤ 0 then .ok (queue, tmp, some "no elem data\n")
    else .ok ({ queue with
        front := u32 (queue.front + 1) % QUEUE_MAX_SIZE
        size := u32 (queue.size - 1) },
      tmp.map (queue.arr.getD queue.front), none)

/-- The segment, from `OFFSET_SEM` and from `OFFSET_QUEUE` on. -/
structure Segment (α : Type*) where
  semPair : SemPairT
  queue : QueueDataT α

/-! ## The loops -/

inductive Mode where
  | producer
  | consumer
  deriving DecidableEq

/-- The statement a process is about to execute. -/
inductive Pc where
  | format
  | wait
  | queue
  | post
  | exited
  deriving DecidableEq

/-- The variables of `Producer` (`id` and `elem`) and of `Consumer` (`elem`). -/
structure Proc (α : Type*) where
  mode : Mode
  pc : Pc
  id : Nat
  elem : α

/-- What a step did with the queue. -/
inductive Event (α : Type*) where
  | silent
  | added (elem : α)
  | popped (elem : α)
  | printed (msg : String)

def Event.adds : Event α → List α
  | .added elem => [elem]
  | _ => []

def Event.pops : Event α → List α
  | .popped elem => [elem]
  | _ => []

def Event.prints : Event α → List String
  | .printed msg => [msg]
  | _ => []

/-- The next step of a process; `sprintf id` is the element it formats in round `id`. -/
def procStep (sprintf : Nat → α) (seg : Segment α) (p : Proc α) : Option (Segment α × Proc α × Event α) :=
  match p.mode, p.pc with
  | .producer, .format => some (seg, { p with pc := .wait, id := p.id + 1, elem := sprintf p.id }, .silent)
  | .producer, .wait =>
    if 0 < seg.semPair.semSpace then
      some ({ seg with semPair.semSpace := seg.semPair.semSpace - 1 }, { p with pc := .queue }, .silent)
    else none
  | .producer, .queue =>
    match queueAdd (some seg.queue) (some p.elem) with
    | .ok (queue, none) => some ({ seg with queue := queue }, { p with pc := .post }, .added p.elem)
    | .ok (queue, some msg) => some ({ seg with queue := queue }, { p with pc := .post }, .printed msg)
    | .error _ => some (seg, { p with pc := .exited }, .silent)
  | .producer, .post =>
    some ({ seg with semPair.semProduct := seg.semPair.semProduct + 1 }, { p with pc := .format }, .silent)
  | .consumer, .wait =>
    if 0 < seg.semPair.semProduct then
      some ({ seg with semPair.semProduct := seg.semPair.semProduct - 1 }, { p with pc := .queue }, .silent)
    else none
  | .consumer, .queue =>
    match queuePop (some seg.queue) (some p.elem) with
    | .ok (queue, tmp, none) =>
      some ({ seg with queue := queue }, { p with pc := .post, elem := tmp.getD p.elem }, .popped (tmp.getD p.elem))
    | .ok (queue, _, some msg) => some ({ seg with queue := queue }, { p with pc := .post }, .printed msg)
    | .error _ => some (seg, { p with pc := .exited }, .silent)
  | .consumer, .post =>
    some ({ seg with semPair.semSpace := seg.semPair.semSpace + 1 }, { p with pc := .wait }, .silent)
  | .consumer, .format => none
  | _, .exited => none

/-- A process that enters its loop. -/
def Proc.start (mode : Mode) (elem : α) : Proc α :=
  { mode := mode, pc := match mode with | .producer => .format | .consumer => .wait, id := 1, elem := elem }

end SystemFunc.ShmQueue
