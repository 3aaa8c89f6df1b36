import SystemFunc.Lib.Machine
import SystemFunc.Lib.RingBuf
import SystemFunc.Lib.BoundedFifo
import SystemFunc.Queue.Defs

/-!
# The ring queue is a bounded FIFO

`QueueT.Good` is the invariant of the three counters: `rear` is where `head` gets to after `cur_size` cells, and
nothing leaves the array. The `cur_size` cells from `head` on are the contents (`QueueT.items`), and `Shows que f` says
that they are the elements of the abstract queue `f`.

- `enqueue_sim`, `dequeue_sim`: an operation does to the contents what that of the abstract queue does;
- `queueCall_sim`: every call keeps `Shows` and gives the answer of the abstract queue;
- `queue_refines`: the same for every sequence of calls after `queue_init`.
-/

namespace SystemFunc

variable {α : Type*}

/-! ## The invariant -/

/-- The queued pointers, oldest first. -/
def QueueT.items (que : QueueT α) : List (Option α) :=
  RingBuf.contents none que.plist que.maxSize que.head que.curSize

/-- The counters agree with each other and stay inside the array. -/
structure QueueT.Good (que : QueueT α) : Prop where
  pos : 0 < que.maxSize
  lt : que.maxSize < 2 ^ 32
  len : que.plist.length = que.maxSize
  head_lt : que.head < que.maxSize
  cur_le : que.curSize ≤ que.maxSize
  rear_eq : que.rear = (que.head + que.curSize) % que.maxSize

section Good

variable {que : QueueT α}

theorem QueueT.items_length : que.items.length = que.curSize := RingBuf.contents_length

theorem QueueT.items_eq_nil : que.items = [] ↔ que.curSize = 0 := by
  rw [← List.length_eq_zero_iff, items_length]

theorem QueueT.Good.rear_lt (h : que.Good) : que.rear < que.maxSize := by
  rw [h.rear_eq]; exact Nat.mod_lt _ h.pos

theorem queueIsEmpty_ne_zero : queueIsEmpty (some que) ≠ 0 ↔ que.items = [] := by
  rw [QueueT.items_eq_nil]
  simp [queueIsEmpty]

theorem queueIsNotFull_eq_zero : queueIsNotFull (some que) = 0 ↔ que.maxSize ≤ que.items.length := by
  rw [QueueT.items_length]
  simp [queueIsNotFull]

/-- After `queue_init` the queue is empty. -/
theorem queueInit_good {size : Nat} (h0 : 0 < size) (h : size < 2 ^ 32) (q : QueueT α)
    (ptr : Block (Option α) size) :
    ∃ que, queueInit (some q) size (some ptr) = (queueSuccess, some que) ∧ que.Good ∧ que.maxSize = size ∧
      que.items = [] := by
  refine ⟨{ head := 0, rear := 0, maxSize := size, curSize := 0, plist := ptr.cells }, if_neg (by omega),
    ⟨h0, h, ptr.len, h0, Nat.zero_le _, (Nat.zero_mod _).symm⟩, rfl, rfl⟩

/-! ## One operation -/

/-- The queue after a successful `queue_enqueue`. -/
def QueueT.put (que : QueueT α) (p : α) : QueueT α :=
  { que with
    curSize := u32 (que.curSize + 1)
    plist := que.plist.set que.rear (some p)
    rear := u32 (que.rear + 1) % que.maxSize }

/-- The queue after a successful `queue_dequeue`. -/
def QueueT.drop (que : QueueT α) : QueueT α :=
  { que with
    curSize := u32 (que.curSize - 1)
    head := u32 (que.head + 1) % que.maxSize }

theorem enqueue_full (h : que.maxSize ≤ que.items.length) (p : Option α) :
    queueEnqueue (some que) p = (queueFailed, some que) := by
  cases p with
  | none => rfl
  | some p => exact if_pos (queueIsNotFull_eq_zero.2 h)

theorem enqueue_not_full (h : que.items.length < que.maxSize) (p : α) :
    queueEnqueue (some que) (some p) = (queueSuccess, some (que.put p)) :=
  if_neg (by rw [queueIsNotFull_eq_zero]; omega)

theorem dequeue_empty (h : que.items = []) (ptr : Option (Option α)) :
    queueDequeue (some que) ptr = (queueFailed, some que, ptr) := by
  cases ptr with
  | none => rfl
  | some v => exact if_pos (queueIsEmpty_ne_zero.2 h)

theorem dequeue_nonempty (h : que.items ≠ []) (v : Option α) :
    queueDequeue (some que) (some v) =
      (queueSuccess, some que.drop, some (que.plist.getD que.head none)) :=
  if_neg (by rw [queueIsEmpty_ne_zero]; exact h)

/-- An enqueued pointer goes to the tail. -/
theorem QueueT.Good.put (h : que.Good) (hc : que.items.length < que.maxSize) (p : α) :
    (que.put p).Good ∧ (que.put p).items = que.items ++ [some p] := by
  rw [items_length] at hc
  have hcur : u32 (que.curSize + 1) = que.curSize + 1 := u32_succ (by have := h.lt; omega)
  have hrear : u32 (que.rear + 1) = que.rear + 1 := u32_succ (by have := h.rear_lt; have := h.lt; omega)
  constructor
  · refine ⟨h.pos, h.lt, ?_, h.head_lt, ?_, ?_⟩
    · simp [QueueT.put, h.len]
    · simp only [QueueT.put, hcur]; omega
    · simp only [QueueT.put, hcur, hrear]
      rw [h.rear_eq, Nat.mod_add_mod, Nat.add_assoc]
  · simp only [QueueT.items, QueueT.put, hcur, h.rear_eq]
    exact RingBuf.contents_push h.len hc _

/-- A dequeued pointer comes from the head. -/
theorem QueueT.Good.drop (h : que.Good) (hne : que.items ≠ []) :
    que.drop.Good ∧ que.items = que.plist.getD que.head none :: que.drop.items := by
  have hpos : 0 < que.curSize := by
    rw [← items_length]; exact List.length_pos_iff.2 hne
  have hcur : u32 (que.curSize - 1) = que.curSize - 1 := u32_pred hpos (by have := h.cur_le; have := h.lt; omega)
  have hhead : u32 (que.head + 1) = que.head + 1 := u32_succ (by have := h.head_lt; have := h.lt; omega)
  constructor
  · refine ⟨h.pos, h.lt, h.len, Nat.mod_lt _ h.pos, ?_, ?_⟩
    · have := h.cur_le
      simp only [QueueT.drop, hcur]; omega
    · simp only [QueueT.drop, hcur, hhead, h.rear_eq, Nat.mod_add_mod]
      congr 1; omega
  · obtain ⟨c, hc⟩ : ∃ c, que.curSize = c + 1 := ⟨que.curSize - 1, by omega⟩
    have hmod : que.head % que.maxSize = que.head := Nat.mod_eq_of_lt h.head_lt
    simp only [QueueT.items, QueueT.drop, hcur, hhead]
    rw [hc, RingBuf.contents_pop, hmod]
    rfl

end Good

/-! ## Sequences of calls -/

/-- The calls on a queue. `dequeue old` passes the address of a variable that holds `old`. -/
inductive QueueCall (α : Type*) where
  | enqueue (ptr : α)
  | dequeue (old : Option α)
  | isEmpty
  | isNotFull
  | curSize
  | maxSize

/-- One call: its result, the variable of a `queue_dequeue` afterwards, and the queue it leaves. -/
def queueCall (que : QueueT α) : QueueCall α → (Int × Option α) × QueueT α
  | .enqueue ptr =>
    let r := queueEnqueue (some que) (some ptr)
    ((r.1, none), r.2.getD que)
  | .dequeue old =>
    let r := queueDequeue (some que) (some old)
    ((r.1, r.2.2.join), r.2.1.getD que)
  | .isEmpty => ((queueIsEmpty (some que), none), que)
  | .isNotFull => ((queueIsNotFull (some que), none), que)
  | .curSize => ((queueCurSize (some que), none), que)
  | .maxSize => ((queueMaxSize (some que), none), que)

/-- The same call on the abstract queue. -/
def fifoCall {n : Nat} (f : BoundedFifo α n) : QueueCall α → (Int × Option α) × BoundedFifo α n
  | .enqueue ptr =>
    match f.push ptr with
    | some g => ((1, none), g)
    | none => ((0, none), f)
  | .dequeue old =>
    match f.pop with
    | some (a, g) => ((1, some a), g)
    | none => ((0, old), f)
  | .isEmpty => ((if f.items = [] then 1 else 0, none), f)
  | .isNotFull => ((if f.items.length < n then 1 else 0, none), f)
  | .curSize => ((f.items.length, none), f)
  | .maxSize => ((n, none), f)

/-- The contents of `que` are the elements of `f`. -/
structure Shows {n : Nat} (que : QueueT α) (f : BoundedFifo α n) : Prop where
  good : que.Good
  size : que.maxSize = n
  items : que.items = f.items.map some

namespace Shows

variable {n : Nat} {que : QueueT α} {f : BoundedFifo α n}

theorem length (h : Shows que f) : que.items.length = f.items.length := by rw [h.items, List.length_map]

theorem items_eq_nil (h : Shows que f) : que.items = [] ↔ f.items = [] := by rw [h.items, List.map_eq_nil_iff]

theorem curSize (h : Shows que f) : que.curSize = f.items.length := by rw [← QueueT.items_length, h.length]

end Shows

section Sim

variable {n : Nat} {que : QueueT α} {f : BoundedFifo α n}

theorem enqueue_sim (h : Shows que f) (p : α) :
    (queueCall que (.enqueue p)).1 = (fifoCall f (.enqueue p)).1 ∧
      Shows (queueCall que (.enqueue p)).2 (fifoCall f (.enqueue p)).2 := by
  by_cases hlt : f.items.length < n
  · have hc : que.items.length < que.maxSize := by rw [h.length, h.size]; exact hlt
    obtain ⟨hg, hi⟩ := h.good.put hc p
    simp only [queueCall, fifoCall, enqueue_not_full hc, f.push_of_lt hlt]
    exact ⟨rfl, hg, h.size, by rw [Option.getD_some, hi, h.items]; simp⟩
  · have hc : que.maxSize ≤ que.items.length := by rw [h.length, h.size]; omega
    simp only [queueCall, fifoCall, enqueue_full hc, f.push_full hlt]
    exact ⟨rfl, h⟩

theorem dequeue_sim (h : Shows que f) (old : Option α) :
    (queueCall que (.dequeue old)).1 = (fifoCall f (.dequeue old)).1 ∧
      Shows (queueCall que (.dequeue old)).2 (fifoCall f (.dequeue old)).2 := by
  cases hf : f.items with
  | nil =>
    simp only [queueCall, fifoCall, dequeue_empty (h.items_eq_nil.2 hf), BoundedFifo.pop_nil hf]
    exact ⟨rfl, h⟩
  | cons a l =>
    have hne : que.items ≠ [] := by rw [Ne, h.items_eq_nil, hf]; simp
    obtain ⟨hg, hi⟩ := h.good.drop hne
    obtain ⟨hl, hpop⟩ := BoundedFifo.pop_cons hf
    rw [h.items, hf, List.map_cons, List.cons.injEq] at hi
    simp only [queueCall, fifoCall, dequeue_nonempty hne, hpop]
    exact ⟨by rw [← hi.1]; rfl, hg, h.size, hi.2.symm⟩

/-- **Every call gives the answer of the abstract queue** and leaves related queues. -/
theorem queueCall_sim (hn : n < 2 ^ 31) (h : Shows que f) (c : QueueCall α) :
    (queueCall que c).1 = (fifoCall f c).1 ∧ Shows (queueCall que c).2 (fifoCall f c).2 := by
  cases c with
  | enqueue p => exact enqueue_sim h p
  | dequeue old => exact dequeue_sim h old
  | isEmpty =>
    refine ⟨?_, h⟩
    simp only [queueCall, fifoCall, queueIsEmpty, cbool, h.curSize, Nat.le_zero, List.length_eq_zero_iff]
  | isNotFull =>
    refine ⟨?_, h⟩
    simp only [queueCall, fifoCall, queueIsNotFull, cbool, h.curSize, h.size]
  | curSize =>
    refine ⟨?_, h⟩
    have := f.len_le
    simp only [queueCall, fifoCall, queueCurSize, h.curSize]
    rw [s32_of_lt (by omega) (by omega)]
  | maxSize =>
    refine ⟨?_, h⟩
    simp only [queueCall, fifoCall, queueMaxSize, h.size]
    rw [s32_of_lt (by omega) (by omega)]

end Sim

open Machine in
/-- **The ring queue refines the bounded FIFO**: after `queue_init` with a capacity that an `int` holds, every
sequence of calls gets the answers of the abstract queue. At every step `head` and `rear` are inside the array, and an
operation that fails leaves the queue as it was. -/
theorem queue_refines {n : Nat} (h0 : 1 ≤ n) (hn : n < 2 ^ 31) (q : QueueT α) (ptr : Block (Option α) n) :
    ∃ que₀, queueInit (some q) n (some ptr) = (queueSuccess, some que₀) ∧
      ∀ cs : List (QueueCall α),
        answers queueCall que₀ cs = answers fifoCall (BoundedFifo.empty (n := n)) cs ∧
        ∀ que f, que = after queueCall que₀ cs → f = after fifoCall (BoundedFifo.empty (n := n)) cs →
          que.items = f.items.map some ∧ que.maxSize = n ∧ que.head < que.maxSize ∧ que.rear < que.maxSize ∧
          (f.items.length = n → ∀ p, queueEnqueue (some que) (some p) = (queueFailed, some que)) ∧
          (f.items = [] → ∀ old, queueDequeue (some que) (some old) = (queueFailed, some que, some old)) := by
  obtain ⟨que₀, hinit, hg, hs, hi⟩ := queueInit_good h0 (by omega) q ptr
  have hsim : ∀ que (f : BoundedFifo α n) (c : QueueCall α), Shows que f →
      (queueCall que c).1 = (fifoCall f c).1 ∧ Shows (queueCall que c).2 (fifoCall f c).2 :=
    fun _ _ c h => queueCall_sim hn h c
  have hstart : Shows que₀ (BoundedFifo.empty (n := n)) := ⟨hg, hs, hi⟩
  refine ⟨que₀, hinit, fun cs => ⟨answers_eq_of_sim hsim hstart cs, ?_⟩⟩
  rintro que f rfl rfl
  have h := after_sim hsim hstart cs
  refine ⟨h.items, h.size, h.good.head_lt, h.good.rear_lt, fun hfull p => ?_, fun hempty old => ?_⟩
  · exact enqueue_full (by rw [h.length, h.size, hfull]) (some p)
  · exact dequeue_empty (h.items_eq_nil.2 hempty) (some old)

open Machine in
/-- Two cells, filled and then emptied past the end of the array. -/
theorem queue_refines_two :
    ∃ que₀, queueInit (some ⟨9, 9, 9, 9, []⟩) 2 (some ⟨[some 8, none], rfl⟩) = (queueSuccess, some que₀) ∧
      answers queueCall que₀ [.enqueue 5, .enqueue 6, .enqueue 7, .dequeue none, .enqueue 7, .dequeue none, .curSize] =
        [(1, none), (1, none), (0, none), (1, some 5), (1, none), (1, some 6), (1, none)] := by
  obtain ⟨que₀, hinit, h⟩ := queue_refines (n := 2) (by decide) (by decide) ⟨9, 9, 9, 9, []⟩ ⟨[some 8, none], rfl⟩
  exact ⟨que₀, hinit, (h _).1.trans (by decide)⟩

end SystemFunc
