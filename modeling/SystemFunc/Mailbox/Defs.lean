import Mathlib.Logic.Function.Basic
import SystemFunc.CString
import SystemFunc.Lib.Steps

/-!
# The producers and consumers of `XSI_IPC/shm.c`

Any number of processes are attached to one segment. A process does its work between `pthread_mutex_lock` and
`pthread_mutex_unlock`, and that is one step. `id++` wraps around. The state remembers what the processes have printed,
each line as the pid of the producer and the text; no step looks at that.
-/

namespace SystemFunc.Mailbox

/-- `struct data_t`. -/
structure Data where
  size : Nat
  buf : List UInt8

/-- The shared memory behind the mutex. -/
structure Segment where
  pid : Int
  data : Data

/-- A process in `Producer`: `head` is the string of its command line. -/
structure Producer where
  head : List UInt8
  pid : Int
  id : Int
  terminated : 0 ∉ head
  live : pid ≠ 0

/-- The pid of a producer, and a text. -/
abbrev Message := Int × List UInt8

/-- What `%s:%d` prints of `head` and `id`. -/
def Producer.text (p : Producer) : List UInt8 := p.head ++ lit ":" ++ decimal p.id

/-- The section of `Producer`. -/
def produce (p : Producer) (seg : Segment) : Except Stop (Producer × Segment × Option Message) :=
  if seg.pid = 0 then do
    let buf ← strcpy seg.data.buf (p.text ++ [0])
    let str ← readStr buf
    return ({ p with id := s32 (p.id + 1) }, ⟨p.pid, ⟨str.length, buf⟩⟩, some (p.pid, str))
  else return (p, seg, none)

/-- The section of `Consumer`. -/
def consume (cache : List UInt8) (seg : Segment) : Except Stop (List UInt8 × Segment × Option Message) :=
  if seg.pid ≠ 0 then do
    let cache ← memcpy cache seg.data.buf seg.data.size
    let cache ← setCell cache seg.data.size 0
    let str ← readStr cache
    return (cache, { seg with pid := 0 }, some (seg.pid, str))
  else return (cache, seg, none)

structure State (ι κ : Type) where
  seg : Segment
  producers : ι → Producer
  caches : κ → List UInt8
  undefined : Bool
  produced : List Message
  consumed : List Message

inductive Act (ι κ : Type) where
  | produce (i : ι)
  | consume (i : κ)

variable {ι κ : Type}

/-- The segment is new, and the processes are at their start. -/
structure Init (s : State ι κ) : Prop where
  pid : s.seg.pid = 0
  buf : s.seg.data.buf.length = 1024
  id : ∀ i, (s.producers i).id = 1
  cache : ∀ i, (s.caches i).length = 1024
  undefined : s.undefined = false
  produced : s.produced = []
  consumed : s.consumed = []

/-- The message that is produced, if one is, is shorter than the buffer. -/
def Fits (s : State ι κ) : Act ι κ → Prop
  | .produce i => s.seg.pid = 0 → (s.producers i).text.length < 1024
  | .consume _ => True

instance (s : State ι κ) : DecidablePred (Fits s)
  | .produce i => inferInstanceAs (Decidable (s.seg.pid = 0 → (s.producers i).text.length < 1024))
  | .consume _ => isTrue trivial

variable [DecidableEq ι] [DecidableEq κ]

def act (s : State ι κ) : Act ι κ → Except Stop (State ι κ)
  | .produce i => do
    let (p, seg, printed) ← produce (s.producers i) s.seg
    return { s with
      seg := seg
      producers := Function.update s.producers i p
      produced := s.produced ++ printed.toList }
  | .consume i => do
    let (cache, seg, printed) ← consume (s.caches i) s.seg
    return { s with
      seg := seg
      caches := Function.update s.caches i cache
      consumed := s.consumed ++ printed.toList }

def step (s : State ι κ) (a : Act ι κ) : Option (State ι κ) :=
  if s.undefined then none
  else
    match act s a with
    | .ok t => some t
    | .error _ => some { s with undefined := true }

end SystemFunc.Mailbox
