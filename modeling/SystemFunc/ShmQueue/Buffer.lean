import SystemFunc.Lib.Crowd
import SystemFunc.Lib.RingBuf
import SystemFunc.Lib.Steps
import SystemFunc.ShmQueue.Defs

/-!
# The bounded buffer

Any number of processes `θ` run their loops on one initialized segment. The state remembers the elements added and
popped so far, and what was printed on `stderr`.

- `queueAdd_ok`, `queuePop_ok`: what the two queue functions do where their own guard lets them;
- `Inv`: the free and the full credits, split over the semaphores, the ring and the processes in between;
- `bounded_buffer`: the guards never strike, and the elements are popped in the order they were added.
-/

namespace SystemFunc.ShmQueue

variable {α : Type*}

/-- The elements of the queue in order; `zero` is read outside the array. -/
def QueueDataT.contents (zero : α) (queue : QueueDataT α) : List α :=
  RingBuf.contents zero queue.arr QUEUE_MAX_SIZE queue.front queue.size

/-- Every element is in its place and `rear` is behind the last one. -/
structure QueueDataT.Ok (queue : QueueDataT α) : Prop where
  len : queue.arr.length = QUEUE_MAX_SIZE
  front : queue.front < QUEUE_MAX_SIZE
  rear : queue.rear = (queue.front + queue.size) % QUEUE_MAX_SIZE
  size : queue.size ≤ QUEUE_MAX_SIZE

theorem queueInit_ok (zero : α) {old : Option (QueueDataT α)} {queue : QueueDataT α}
    (h : queueInit zero old = .ok queue) : queue.Ok ∧ queue.size = 0 ∧ queue.contents zero = [] := by
  cases old with
  | none => cases h
  | some q =>
    cases h
    exact ⟨⟨by simp, by simp [QUEUE_MAX_SIZE], by simp, by simp⟩, rfl, rfl⟩

/-- With a free cell, `queue_add` appends. -/
theorem queueAdd_ok (zero tmp : α) {queue : QueueDataT α} (h : queue.Ok) (hfree : queue.size < QUEUE_MAX_SIZE) :
    ∃ q, queueAdd (some queue) (some tmp) = .ok (q, none) ∧ q.Ok ∧ q.size = queue.size + 1 ∧
      q.contents zero = queue.contents zero ++ [tmp] := by
  have hcap : QUEUE_MAX_SIZE = 5 := rfl
  have hspace : u32 ((QUEUE_MAX_SIZE : Int) - queue.size) = QUEUE_MAX_SIZE - queue.size := by unfold u32; omega
  have hlt : queue.rear < QUEUE_MAX_SIZE := by rw [h.rear]; exact Nat.mod_lt _ (by omega)
  have hrear : u32 ((queue.rear : Int) + 1) = queue.rear + 1 := u32_succ (by omega)
  have hsize : u32 ((queue.size : Int) + 1) = queue.size + 1 := u32_succ (by omega)
  have hne : ¬QUEUE_MAX_SIZE - queue.size ≤ 0 := by omega
  refine ⟨{ queue with
    arr := queue.arr.set queue.rear tmp
    rear := (queue.rear + 1) % QUEUE_MAX_SIZE
    size := queue.size + 1 }, ?_, ⟨?_, h.front, ?_, hfree⟩, rfl, ?_⟩
  · simp only [queueAdd, queueGetFreeSpace, Except.map, hspace, hrear, hsize, if_neg hne]
  · simpa using h.len
  · simp only [h.rear, Nat.mod_add_mod, Nat.add_assoc]
  · simp only [QueueDataT.contents, h.rear]
    exact RingBuf.contents_push h.len hfree tmp

/-- With an element in the queue, `queue_pop` takes the first one. -/
theorem queuePop_ok (zero tmp : α) {queue : QueueDataT α} (h : queue.Ok) (hpos : 0 < queue.size) :
    ∃ q a, queuePop (some queue) (some tmp) = .ok (q, some a, none) ∧ q.Ok ∧ q.size + 1 = queue.size ∧
      queue.contents zero = a :: q.contents zero := by
  have hcap : QUEUE_MAX_SIZE = 5 := rfl
  have hlt := h.front
  have hfront : u32 ((queue.front : Int) + 1) = queue.front + 1 := u32_succ (by omega)
  have hsize : u32 ((queue.size : Int) - 1) = queue.size - 1 := u32_pred hpos (by have := h.size; omega)
  have hget : queue.arr.getD queue.front tmp = queue.arr.getD (queue.front % QUEUE_MAX_SIZE) zero := by
    have hin : queue.front < queue.arr.length := by rw [h.len]; exact hlt
    simp [Nat.mod_eq_of_lt hlt, hin]
  obtain ⟨n, hn⟩ : ∃ n, queue.size = n + 1 := ⟨queue.size - 1, by omega⟩
  refine ⟨{ queue with front := (queue.front + 1) % QUEUE_MAX_SIZE, size := queue.size - 1 },
    queue.arr.getD queue.front tmp, ?_, ⟨h.len, Nat.mod_lt _ (by omega), ?_, ?_⟩, ?_, ?_⟩
  · simp only [queuePop, if_neg (Nat.not_le.2 hpos), hfront, hsize, Option.map_some]
  · simp only [h.rear, Nat.mod_add_mod, hn]
    congr 1
    omega
  · have := h.size
    simp only
    omega
  · simp only
    omega
  · simp only [QueueDataT.contents, hget, hn, Nat.add_sub_cancel]
    exact RingBuf.contents_pop

/-! ## The system -/

structure State (θ α : Type*) where
  seg : Segment α
  procs : θ → Proc α
  added : List α
  popped : List α
  stderr : List String

variable {θ : Type*}

/-- Process `t` moves. -/
def State.move [DecidableEq θ] (s : State θ α) (t : θ) (seg : Segment α) (p : Proc α) (e : Event α) : State θ α where
  seg := seg
  procs := Function.update s.procs t p
  added := s.added ++ e.adds
  popped := s.popped ++ e.pops
  stderr := s.stderr ++ e.prints

/-- The next step of process `t`. -/
def step [DecidableEq θ] (sprintf : θ → Nat → α) (s : State θ α) (t : θ) : Option (State θ α) :=
  (procStep (sprintf t) s.seg (s.procs t)).map fun r => s.move t r.1 r.2.1 r.2.2

/-- What `GetShmId` leaves in the segment. -/
def Segment.Fresh (zero : α) (seg : Segment α) : Prop :=
  seg.semPair = { semSpace := QUEUE_MAX_SIZE, semProduct := 0 } ∧ ∃ old, queueInit zero (some old) = .ok seg.queue

/-- An initialized segment, and every process about to enter its loop. -/
def Init (zero : α) (s : State θ α) : Prop :=
  s.seg.Fresh zero ∧ (∀ t, ∃ mode elem, s.procs t = .start mode elem) ∧ s.added = [] ∧ s.popped = [] ∧ s.stderr = []

/-- The process is of this mode and between its `sem_wait` and its `sem_post`. -/
def Proc.between (mode : Mode) (p : Proc α) : Bool := p.mode = mode && (p.pc = .queue || p.pc = .post)

/-- The process has a free cell: a producer before `queue_add`, a consumer after `queue_pop`. -/
def Proc.hasFree (p : Proc α) : Bool :=
  match p.mode, p.pc with
  | .producer, .queue => true
  | .consumer, .post => true
  | _, _ => false

/-- The process has a full cell: a producer after `queue_add`, a consumer before `queue_pop`. -/
def Proc.hasFull (p : Proc α) : Bool :=
  match p.mode, p.pc with
  | .producer, .post => true
  | .consumer, .queue => true
  | _, _ => false

/-- One step of a process: a credit that leaves a semaphore or the ring is then in the process, and back; the ring
takes in what is added and gives out what is popped. -/
theorem procStep_ok (zero : α) {sprintf : Nat → α} {seg seg' : Segment α} {p p' : Proc α} {e : Event α}
    (hq : seg.queue.Ok) (hfree : p.hasFree = true → p.pc = .queue → seg.queue.size < QUEUE_MAX_SIZE)
    (hfull : p.hasFull = true → p.pc = .queue → 0 < seg.queue.size)
    (hs : procStep sprintf seg p = some (seg', p', e)) :
    seg'.queue.Ok ∧
      seg'.queue.size + seg'.semPair.semSpace + p'.hasFree.toNat =
        seg.queue.size + seg.semPair.semSpace + p.hasFree.toNat ∧
      seg'.queue.size + (seg.semPair.semProduct + p.hasFull.toNat) =
        seg.queue.size + (seg'.semPair.semProduct + p'.hasFull.toNat) ∧
      seg.queue.contents zero ++ e.adds = e.pops ++ seg'.queue.contents zero ∧ e.prints = [] := by
  obtain ⟨mode, pc, id, elem⟩ := p
  cases mode <;> cases pc <;> simp only [procStep] at hs
  case producer.format | producer.post | consumer.post =>
    cases hs
    refine ⟨hq, ?_, ?_, by simp [Event.adds, Event.pops], rfl⟩ <;> simp [Proc.hasFree, Proc.hasFull]
    all_goals omega
  case producer.wait | consumer.wait =>
    simp only [Option.ite_none_right_eq_some, Option.some.injEq, Prod.mk.injEq] at hs
    obtain ⟨hpos, rfl, rfl, rfl⟩ := hs
    refine ⟨hq, ?_, ?_, by simp [Event.adds, Event.pops], rfl⟩ <;> simp [Proc.hasFree, Proc.hasFull]
    all_goals omega
  case producer.queue =>
    obtain ⟨q, hadd, hok, hsize, hcont⟩ := queueAdd_ok zero elem hq (hfree rfl rfl)
    rw [hadd] at hs
    cases hs
    refine ⟨hok, ?_, ?_, hcont.symm, rfl⟩ <;> simp [Proc.hasFree, Proc.hasFull, hsize]
    all_goals omega
  case consumer.queue =>
    obtain ⟨q, a, hpop, hok, hsize, hcont⟩ := queuePop_ok zero elem hq (hfull rfl rfl)
    rw [hpop] at hs
    cases hs
    refine ⟨hok, ?_, ?_, by simpa [Event.adds, Event.pops] using hcont, rfl⟩ <;>
      simp [Proc.hasFree, Proc.hasFull, ← hsize]
    all_goals omega
  all_goals cases hs

/-! ## The invariant -/

section Counting

variable [Fintype θ]

/-- The processes of a mode between their `sem_wait` and their `sem_post`. -/
def State.between (s : State θ α) (mode : Mode) : Nat := Crowd.count (Proc.between mode) s.procs

/-- A free cell is counted by `sem_space` or some process has it, a full one by `sem_product` or a process. -/
structure Inv (zero : α) (s : State θ α) : Prop where
  queue : s.seg.queue.Ok
  free : s.seg.queue.size + s.seg.semPair.semSpace + Crowd.count Proc.hasFree s.procs = QUEUE_MAX_SIZE
  full : s.seg.queue.size = s.seg.semPair.semProduct + Crowd.count Proc.hasFull s.procs
  history : s.added = s.popped ++ s.seg.queue.contents zero
  quiet : s.stderr = []

/-- Who is in between has a free cell or a full one. -/
theorem between_eq (s : State θ α) :
    s.between .producer + s.between .consumer =
      Crowd.count Proc.hasFree s.procs + Crowd.count Proc.hasFull s.procs := by
  unfold State.between
  rw [Crowd.count_add (r := fun p => p.between .producer || p.between .consumer) fun p => ?_,
    Crowd.count_add (r := fun p => p.between .producer || p.between .consumer) fun p => ?_]
  all_goals
    obtain ⟨mode, pc, -, -⟩ := p
    cases mode <;> cases pc <;> rfl

theorem inv_init {zero : α} {s : State θ α} (h : Init zero s) : Inv zero s := by
  obtain ⟨⟨hsem, old, hq⟩, hp, ha, hpop, herr⟩ := h
  obtain ⟨hok, hsize, hcont⟩ := queueInit_ok zero hq
  have hfree : Crowd.count Proc.hasFree s.procs = 0 := Crowd.count_eq_zero fun t => by
    obtain ⟨mode, elem, ht⟩ := hp t
    rw [ht]
    cases mode <;> rfl
  have hfull : Crowd.count Proc.hasFull s.procs = 0 := Crowd.count_eq_zero fun t => by
    obtain ⟨mode, elem, ht⟩ := hp t
    rw [ht]
    cases mode <;> rfl
  exact ⟨hok, by simp [hsem, hsize, hfree], by simp [hsem, hsize, hfull], by simp [ha, hpop, hcont], herr⟩

variable [DecidableEq θ]

theorem inv_step {zero : α} {sprintf : θ → Nat → α} {s s' : State θ α} {t : θ} (h : Inv zero s)
    (hs : step sprintf s t = some s') : Inv zero s' := by
  simp only [step, Option.map_eq_some_iff, Prod.exists] at hs
  obtain ⟨seg, p, e, hp, rfl⟩ := hs
  obtain ⟨hok, hfree, hfull, hhist, hquiet⟩ := h
  have hcap : QUEUE_MAX_SIZE = 5 := rfl
  obtain ⟨hok', hfree', hfull', hcont, hprint⟩ := procStep_ok zero hok
    (fun hf _ => by have : 0 < Crowd.count Proc.hasFree s.procs := Crowd.count_pos hf; omega)
    (fun hf _ => by have : 0 < Crowd.count Proc.hasFull s.procs := Crowd.count_pos hf; omega) hp
  have hcf := Crowd.count_update (p := Proc.hasFree) (f := s.procs) t p
  have hcl := Crowd.count_update (p := Proc.hasFull) (f := s.procs) t p
  refine ⟨hok', ?_, ?_, ?_, ?_⟩
  · simp only [State.move]
    omega
  · simp only [State.move]
    omega
  · simp only [State.move]
    rw [hhist, List.append_assoc, hcont, List.append_assoc]
  · simp only [State.move, hquiet, hprint, List.append_nil]

theorem inv_reach {zero : α} {sprintf : θ → Nat → α} {s : State θ α}
    (h : Steps.Reach (Init zero) (step sprintf) s) : Inv zero s :=
  h.inv (fun _ => inv_init) fun _ _ _ => inv_step

/-- **The bounded buffer**: the semaphores and the processes between their two semaphore operations have all credits,
neither guard of the queue functions strikes, and what was added is what was popped and then the queue. -/
theorem bounded_buffer {zero : α} {sprintf : θ → Nat → α} {s : State θ α}
    (h : Steps.Reach (Init zero) (step sprintf) s) :
    s.seg.semPair.semSpace + s.seg.semPair.semProduct + s.between .producer + s.between .consumer = QUEUE_MAX_SIZE ∧
      s.stderr = [] ∧ s.added = s.popped ++ s.seg.queue.contents zero := by
  have hi := inv_reach h
  have hfree := hi.free
  have hfull := hi.full
  have hb := between_eq s
  exact ⟨by omega, hi.quiet, hi.history⟩

end Counting

/-! ## Two processes -/

instance : Fintype Mode where
  elems := {.producer, .consumer}
  complete mode := by cases mode <;> simp

/-- One process that produces, and one that consumes. -/
def twoStart : State Mode Nat where
  seg := { semPair := { semSpace := 5, semProduct := 0 }
           queue := { front := 0, rear := 0, size := 0, arr := [0, 0, 0, 0, 0] } }
  procs mode := .start mode 7
  added := []
  popped := []
  stderr := []

theorem twoStart_init : Init 0 twoStart :=
  ⟨⟨rfl, twoStart.seg.queue, rfl⟩, fun _ => ⟨_, _, rfl⟩, rfl, rfl, rfl⟩

/-- Two elements are added, one of them is popped, and both processes are in between. -/
def twoRun : List Mode :=
  [.producer, .producer, .producer, .producer, .producer, .producer, .producer, .consumer, .consumer]

theorem bounded_buffer_twoRun : ∃ s, Steps.run (step fun _ id => id) twoStart twoRun = some s ∧
    s.seg.semPair.semSpace + s.seg.semPair.semProduct + s.between .producer + s.between .consumer = QUEUE_MAX_SIZE ∧
      s.stderr = [] ∧ s.added = s.popped ++ s.seg.queue.contents 0 := by
  obtain ⟨s, hs⟩ : ∃ s, Steps.run (step fun _ id => id) twoStart twoRun = some s := ⟨_, rfl⟩
  exact ⟨s, hs, bounded_buffer ⟨twoStart, twoRun, twoStart_init, hs⟩⟩

end SystemFunc.ShmQueue
