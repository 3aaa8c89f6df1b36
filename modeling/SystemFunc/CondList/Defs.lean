import Mathlib.Logic.Function.Basic
import SystemFunc.Lib.CondVar
import SystemFunc.Lib.LinkedList
import SystemFunc.Lib.Steps

/-!
# The producers and consumers of `thread/cond.c`

Any number of threads run `ThreadProducer` and `ThreadConsumer`. What a thread does between `pthread_mutex_lock` and
`pthread_mutex_unlock`, or `pthread_cond_wait`, is one step; so are `malloc` and `free`, which are outside. `malloc`
answers with an address at which no node lives.

A node carries a serial number, given by `malloc`. The state remembers the serial numbers of the nodes that have been
put in the list, and of those taken off it, with the consumer that took them. No step looks at these.
-/

namespace SystemFunc.CondList

structure Node where
  next : Option Nat
  no : Int
  serial : Nat

/-- Before `malloc`, or before `pthread_mutex_lock` with a node. -/
inductive Producer where
  | malloc
  | lock (tmp : Nat)
  deriving DecidableEq

/-- Before `pthread_mutex_lock`; in `pthread_cond_wait`, not notified or on its way back; before `free`. -/
inductive Consumer where
  | lock
  | blocked
  | notified
  | free (tmp : Nat)
  deriving DecidableEq

/-- How the process has ended: in `exit`, or by an access through `NULL` or to a node that is not there. -/
inductive End where
  | exited
  | nullHead
  | deadNode
  deriving DecidableEq

structure State where
  head : Option Nat
  mem : Nat → Option Node
  producers : List Producer
  consumers : List Consumer
  ended : Option End
  fresh : Nat
  produced : List Nat
  consumed : List (Nat × Nat)

/-- `malloc` answers `addr`, or `NULL`; `no` is `rand() % 100`. `pick` is the consumer that `pthread_cond_signal`
wakes, if one is blocked. -/
inductive Act where
  | malloc (i : Nat) (addr : Option Nat) (no : Int)
  | produce (i : Nat) (pick : Option Nat)
  | consume (i : Nat)
  | free (i : Nat)
  | spurious (i : Nat)

def Consumer.isBlocked (c : Consumer) : Bool := c = .blocked

def Consumer.isNotified (c : Consumer) : Bool := c = .notified

def cond : CondVar Consumer where
  blocked := Consumer.isBlocked
  wake _ := .notified
  wake_blocked _ := rfl

/-- `f` on the node a pointer points to. -/
def State.deref (s : State) (p : Option Nat) (f : Nat → Node → State) : State :=
  match p with
  | none => { s with ended := some .nullHead }
  | some addr =>
    match s.mem addr with
    | none => { s with ended := some .deadNode }
    | some n => f addr n

def State.store (s : State) (addr : Nat) (n : Option Node) : State :=
  { s with mem := Function.update s.mem addr n }

/-- The section of a producer, after `pthread_cond_signal` has left `consumers`. -/
def produceSection (s : State) (i tmp : Nat) (consumers : List Consumer) : State :=
  s.deref (some tmp) fun tmp n =>
    { s.store tmp (some { n with next := s.head }) with
      head := some tmp
      producers := s.producers.set i .malloc
      consumers := consumers
      produced := s.produced ++ [n.serial] }

/-- The section of a consumer, from the test of `head` on. -/
def consumeSection (s : State) (i : Nat) : State :=
  if s.head = none then { s with consumers := s.consumers.set i .blocked }
  else
    s.deref s.head fun tmp n =>
      { s with
        head := n.next
        consumers := s.consumers.set i (.free tmp)
        consumed := s.consumed ++ [(i, n.serial)] }

def act (s : State) : Act → Option State
  | .malloc i addr no =>
    if s.producers[i]? = some .malloc then
      match addr with
      | none => some { s with ended := some .exited }
      | some addr =>
        if s.mem addr = none then
          some { s.store addr (some { next := none, no := no, serial := s.fresh }) with
            producers := s.producers.set i (.lock addr)
            fresh := s.fresh + 1 }
        else none
    else none
  | .produce i pick =>
    match s.producers[i]? with
    | some (.lock tmp) => (cond.signal s.consumers pick).map fun consumers => produceSection s i tmp consumers
    | _ => none
  | .consume i =>
    match s.consumers[i]? with
    | some .lock => some (consumeSection s i)
    | some .notified => some (consumeSection s i)
    | _ => none
  | .free i =>
    match s.consumers[i]? with
    | some (.free tmp) =>
      some (s.deref (some tmp) fun tmp _ => { s.store tmp none with consumers := s.consumers.set i .lock })
    | _ => none
  | .spurious i => (cond.signal s.consumers (some i)).map fun consumers => { s with consumers := consumers }

def step (s : State) (a : Act) : Option State := if s.ended = none then act s a else none

/-- The threads are at their start. -/
structure Init (s : State) : Prop where
  head : s.head = none
  mem : ∀ addr, s.mem addr = none
  producers : ∀ p ∈ s.producers, p = .malloc
  consumers : ∀ c ∈ s.consumers, c = .lock
  ended : s.ended = none
  produced : s.produced = []
  consumed : s.consumed = []

/-! ## Conservation -/

/-- The serial number of the node at an address. -/
def serialAt (mem : Nat → Option Node) (addr : Nat) : Option Nat := (mem addr).map Node.serial

/-- With `l` the addresses of the list: every node put in it is there once and nowhere else, or has been taken off it
once. -/
def Conserved (s : State) (l : List Nat) : Prop :=
  ∀ serial ∈ s.produced,
    (l.filterMap (serialAt s.mem)).count serial + (s.consumed.map Prod.snd).count serial = 1

/-- While a consumer is blocked, every node of the list is for one that has been woken. -/
def NotStranded (s : State) (l : List Nat) : Prop :=
  (∃ c ∈ s.consumers, c = .blocked) → l.length ≤ s.consumers.countP Consumer.isNotified

end SystemFunc.CondList
