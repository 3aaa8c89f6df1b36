import SystemFunc.CLang

/-!
# The queue of `util/queue/queue.c`

A queue of pointers in a ring of `max_size` cells. A pointer is an `Option`: `none` is `NULL`, both for the elements
and for the argument `que`. A function that changes the queue returns its `int` result and the queue it leaves.
-/

namespace SystemFunc

variable {α : Type*}

/-- `struct queue_t`. -/
structure QueueT (α : Type*) where
  head : Nat
  rear : Nat
  maxSize : Nat
  curSize : Nat
  plist : List (Option α)
  deriving DecidableEq

def queueSuccess : Int := 1
def queueFailed : Int := 0

/-- `queue_init`; `ptr` is what `malloc(size * sizeof(void *))` returns. -/
def queueInit (que : Option (QueueT α)) (size : Nat) (ptr : Option (Block (Option α) size)) :
    Int × Option (QueueT α) :=
  match que with
  | none => (queueFailed, none)
  | some que =>
    if size ≤ 0 then (queueFailed, some que)
    else match ptr with
      | none => (queueFailed, some que)
      | some ptr => (queueSuccess, some { head := 0, rear := 0, maxSize := size, curSize := 0, plist := ptr.cells })

/-- `queue_destroy`; a `NULL` `plist` has no cells. -/
def queueDestroy : Option (QueueT α) → Int × Option (QueueT α)
  | none => (queueFailed, none)
  | some _ => (queueSuccess, some { head := 0, rear := 0, maxSize := 0, curSize := 0, plist := [] })

def queueMaxSize : Option (QueueT α) → Int
  | none => queueFailed
  | some que => s32 que.maxSize

def queueCurSize : Option (QueueT α) → Int
  | none => queueFailed
  | some que => s32 que.curSize

def queueIsNotFull : Option (QueueT α) → Int
  | none => queueFailed
  | some que => cbool (que.curSize < que.maxSize)

def queueIsEmpty : Option (QueueT α) → Int
  | none => queueFailed
  | some que => cbool (que.curSize ≤ 0)

def queueEnqueue (que : Option (QueueT α)) (ptr : Option α) : Int × Option (QueueT α) :=
  match que, ptr with
  | some q, some p =>
    if queueIsNotFull (some q) = 0 then (queueFailed, some q)
    else (queueSuccess, some { q with
      curSize := u32 (q.curSize + 1)
      plist := q.plist.set q.rear (some p)
      rear := u32 (q.rear + 1) % q.maxSize })
  | que, _ => (queueFailed, que)

/-- `queue_dequeue`; `ptr` is the variable the caller passes the address of, `none` for a `NULL` address. -/
def queueDequeue (que : Option (QueueT α)) (ptr : Option (Option α)) :
    Int × Option (QueueT α) × Option (Option α) :=
  match que, ptr with
  | some q, some _ =>
    if queueIsEmpty (some q) ≠ 0 then (queueFailed, some q, ptr)
    else (queueSuccess, some { q with
        curSize := u32 (q.curSize - 1)
        head := u32 (q.head + 1) % q.maxSize },
      some (q.plist.getD q.head none))
  | que, ptr => (queueFailed, que, ptr)

end SystemFunc
