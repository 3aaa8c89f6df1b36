import Mathlib.Logic.Function.Basic
import SystemFunc.Lib.LinkedList
import SystemFunc.Lib.Steps

/-!
# The producers and consumers of `thread/semaphore.c`

The threads `θ` run `ThreadProduce` or `ThreadConsume` on one list from `head`; each semaphore operation, each read of
`head` or `next` and each assignment to them is one step. `malloc` answers with an address at which no node lives
(where it fails, the next statement writes through `NULL` and the process is gone). An access to a node that is not
there ends the run in a state that is `undefined`.

A node carries a serial number, given by `malloc`. The state remembers the serial numbers of the nodes whose producer
has executed `sem_post`, and of the nodes that a consumer has taken off the list by `head = head->next`, and whether a
consumer has read `NULL` from `head`. No step looks at these.
-/

namespace SystemFunc.SemList

def NUM : Nat := 5

structure Node where
  next : Option Nat
  serial : Nat

/-- The statement a thread is about to execute. -/
inductive Pc where
  -- ThreadProduce
  | malloc
  | clearNext
  | waitPlace
  | readHead
  | setNext
  | pushHead
  | postProduct
  -- ThreadConsume
  | waitProduct
  | readTmp
  | readAgain
  | readNext
  | popHead
  | postPlace
  | free
  deriving DecidableEq

/-- `tmp`, the value read from `head` in an assignment, the value read from `head->next`, and the serial number of the
node last allocated. -/
structure Thread where
  pc : Pc
  tmp : Option Nat
  seen : Option Nat
  next : Option Nat
  serial : Nat

structure State (θ : Type*) where
  semPlace : Nat
  semProduct : Nat
  head : Option Nat
  mem : Nat → Option Node
  threads : θ → Thread
  fresh : Nat
  posted : List Nat
  consumed : List Nat
  nullRead : Bool
  undefined : Bool

/-- A thread allocates at an address (with whatever is there in `next`), or takes its next step. -/
inductive Act (θ : Type*) where
  | malloc (t : θ) (addr : Nat) (raw : Option Nat)
  | next (t : θ)

variable {θ : Type*} [DecidableEq θ]

/-- Thread `t` becomes `th`. -/
def State.goto (s : State θ) (t : θ) (th : Thread) : State θ :=
  { s with threads := Function.update s.threads t th }

def State.store (s : State θ) (addr : Nat) (n : Option Node) : State θ :=
  { s with mem := Function.update s.mem addr n }

/-- `f` on the node a pointer points to. -/
def State.deref (s : State θ) (p : Option Nat) (f : Nat → Node → State θ) : State θ :=
  match p with
  | none => { s with undefined := true }
  | some addr =>
    match s.mem addr with
    | none => { s with undefined := true }
    | some n => f addr n

/-- The serial number of the node at an address. -/
def serialAt (mem : Nat → Option Node) (addr : Nat) : Option Nat := (mem addr).map Node.serial

/-- The next statement of thread `t`. -/
def next (s : State θ) (t : θ) : Option (State θ) :=
  let th := s.threads t
  match th.pc with
  | .malloc => none
  | .clearNext => some (s.deref th.tmp fun addr n =>
      (s.store addr (some { n with next := none })).goto t { th with pc := .waitPlace })
  | .waitPlace =>
    if 0 < s.semPlace then some ({ s with semPlace := s.semPlace - 1 }.goto t { th with pc := .readHead }) else none
  | .readHead => some (s.goto t { th with pc := .setNext, seen := s.head })
  | .setNext => some (s.deref th.tmp fun addr n =>
      (s.store addr (some { n with next := th.seen })).goto t { th with pc := .pushHead })
  | .pushHead => some ({ s with head := th.tmp }.goto t { th with pc := .postProduct })
  | .postProduct => some ({ s with semProduct := s.semProduct + 1, posted := th.serial :: s.posted }.goto t
      { th with pc := .malloc })
  | .waitProduct =>
    if 0 < s.semProduct then some ({ s with semProduct := s.semProduct - 1 }.goto t { th with pc := .readTmp })
    else none
  | .readTmp => some ({ s with nullRead := s.nullRead || s.head.isNone }.goto t
      { th with pc := .readAgain, tmp := s.head })
  | .readAgain => some ({ s with nullRead := s.nullRead || s.head.isNone }.goto t
      { th with pc := .readNext, seen := s.head })
  | .readNext => some (s.deref th.seen fun _ n => s.goto t { th with pc := .popHead, next := n.next })
  | .popHead => some ({ s with head := th.next, consumed := (th.tmp.bind (serialAt s.mem)).toList ++ s.consumed }.goto t
      { th with pc := .postPlace })
  | .postPlace => some ({ s with semPlace := s.semPlace + 1 }.goto t { th with pc := .free })
  | .free =>
    match th.tmp with
    | none => some (s.goto t { th with pc := .waitProduct })
    | some _ => some (s.deref th.tmp fun addr _ => (s.store addr none).goto t { th with pc := .waitProduct })

def step (s : State θ) : Act θ → Option (State θ)
  | .malloc t addr raw =>
    if s.undefined = false ∧ (s.threads t).pc = .malloc ∧ s.mem addr = none then
      some ({ s.store addr (some { next := raw, serial := s.fresh }) with fresh := s.fresh + 1 }.goto t
        { s.threads t with pc := .clearNext, tmp := some addr, serial := s.fresh })
    else none
  | .next t => if s.undefined = false then next s t else none

/-- After `sem_init`, with every thread at its start. -/
def Init (s : State θ) : Prop :=
  s.semPlace = NUM ∧ s.semProduct = 0 ∧ s.head = none ∧ (∀ addr, s.mem addr = none) ∧
    (∀ t, (s.threads t).pc = .malloc ∨ (s.threads t).pc = .waitProduct) ∧
    s.posted = [] ∧ s.consumed = [] ∧ s.nullRead = false ∧ s.undefined = false

/-! ## Delivery -/

/-- A node of this serial number can be reached from `head`. -/
def State.InList (s : State θ) (serial : Nat) : Prop :=
  ∃ addr, LinkedList.Reaches Node.next s.mem s.head addr ∧ serialAt s.mem addr = some serial

/-- Every node that was posted is consumed at most once and is in the list until then, and no consumer has read `NULL`
from `head`. -/
def Delivered (s : State θ) : Prop :=
  s.nullRead = false ∧ ∀ serial ∈ s.posted, s.consumed.count serial ≤ 1 ∧ (serial ∈ s.consumed ∨ s.InList serial)

/-- The list is as the thread has read it: an assignment to `head` finds there what its thread has read (a consumer also
in the `next` of that node), and the node whose `next` a consumer reads has not been freed. -/
def Undisturbed (s : State θ) : Act θ → Prop
  | .malloc _ _ _ => True
  | .next t =>
    let th := s.threads t
    match th.pc with
    | .pushHead => s.head = th.seen
    | .readNext => ∀ addr ∈ th.seen, s.mem addr ≠ none
    | .popHead => s.head = th.tmp ∧ th.tmp = th.seen ∧ ∀ addr ∈ th.tmp, (s.mem addr).map Node.next = some th.next
    | _ => True

end SystemFunc.SemList
