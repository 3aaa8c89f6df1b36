import SystemFunc.Lib.Slots
import SystemFunc.MsgQueue.Defs

/-!
# Where the messages of `msgqueue.c` go

- `Moves`, `step_moves`: what a step does;
- `Inv`, `inv_run`: the account of the queue, and what each process has sent and printed;
- `routes`: for every type, the messages that the queue has accepted are received in the order in which they came, each
  once and by a process that asks for the type, or are still in the queue.
-/

namespace SystemFunc.MsgQueue

open KeyedFifo (Account ofKey ofKey_append takeFirst takeFirst_perm takeFirst_want)
open Slots (slot_set slot_snoc)

variable {v : Env} {s t : State} {a : Act} {i j : Nat} {p q : Proc} {m : Msg} {queue queue' : List Msg}

/-! ## What a step does -/

/-- What the process sends next. -/
def Proc.Sends (p : Proc) (m : Msg) : Prop :=
  p.sendBuf.mtype = m.mtype ∧ readStr p.sendBuf.mtext.cells = .ok m.text

inductive Moves (v : Env) (s : State) : State → Prop
  | wild : Moves v s { s with wild := true }
  | fork (reader : Bool) : Moves v s { s with procs := s.procs ++ [v.proc s.procs.length reader] }
  | input {i : Nat} {p : Proc} (hp : s.procs[i]? = some p) (hctrl : p.ctrl = .input) : Moves v s (s.set i p.input)
  | exit {i : Nat} {p : Proc} (hp : s.procs[i]? = some p) : Moves v s (s.set i p.exit)
  | tries {i : Nat} {p : Proc} {m : Msg} (live : Bool) (hp : s.procs[i]? = some p) (hctrl : p.ctrl = .msgsnd)
      (hm : p.Sends m) : Moves v s (s.set i { p.tries m with live := live })
  | post {i : Nat} {p : Proc} {m : Msg} (hp : s.procs[i]? = some p) (hctrl : p.ctrl = .msgsnd) (hm : p.Sends m)
      (hpos : 1 ≤ m.mtype) (hroom : HasRoom v.qbytes s.queue m) :
      Moves v s { s.set i (p.tries m) with queue := s.queue ++ [m], posted := s.posted ++ [(i, m)] }
  | receive {i : Nat} {p : Proc} {m : Msg} {queue : List Msg} (hp : s.procs[i]? = some p)
      (hcnt : p.cnt = none) (hm : msgrcv p.cliId s.queue = some (m, queue))
      (hfits : (m.text ++ [0]).length ≤ MTEXT_SIZE) :
      Moves v s { s.set i (p.receive m hfits) with queue := queue, received := s.received ++ [(i, m)] }
  | print {i : Nat} {p : Proc} (hp : s.procs[i]? = some p) : Moves v s (s.set i p.print)

theorem proc_eq_some {f : Proc → Option State} (h : s.proc i f = some t) :
    ∃ p, s.procs[i]? = some p ∧ p.live = true ∧ f p = some t := by
  unfold State.proc at h
  split at h
  · cases h
  · obtain ⟨p, hp, ht⟩ := Option.bind_eq_some_iff.1 h
    obtain ⟨hlive, ht⟩ := Option.ite_none_right_eq_some.1 ht
    exact ⟨p, hp, hlive, ht⟩

theorem send_eq_some {f : Proc → Msg → State} (h : s.send i f = some t) : t = { s with wild := true } ∨
    ∃ p m, s.procs[i]? = some p ∧ p.live = true ∧ p.ctrl = .msgsnd ∧ p.Sends m ∧ f p m = t := by
  obtain ⟨p, hp, hlive, ht⟩ := proc_eq_some h
  obtain ⟨hctrl, ht⟩ := Option.ite_none_right_eq_some.1 ht
  split at ht
  next text htext =>
    cases ht
    exact .inr ⟨p, ⟨p.sendBuf.mtype, text⟩, hp, hlive, hctrl, ⟨rfl, htext⟩, rfl⟩
  next =>
    cases ht
    exact .inl rfl

theorem tries_live (hlive : p.live = true) : { p.tries m with live := true } = p.tries m := by
  rw [← hlive]
  rfl

theorem step_moves (hs : step v s a = some t) : Moves v s t := by
  cases a with
  | fork reader =>
    obtain ⟨-, ht⟩ := Option.ite_none_left_eq_some.1 hs
    cases ht
    exact .fork reader
  | input i =>
    obtain ⟨p, hp, -, ht⟩ := proc_eq_some hs
    obtain ⟨hctrl, ht⟩ := Option.ite_none_right_eq_some.1 ht
    cases ht
    exact .input hp hctrl
  | msgsnd i =>
    obtain rfl | ⟨p, m, hp, hlive, hctrl, hm, rfl⟩ := send_eq_some hs
    · exact .wild
    unfold State.msgsnd
    split
    · exact .tries false hp hctrl hm
    split
    next hpos hroom => exact .post hp hctrl hm (by omega) hroom
    next =>
      rw [← tries_live hlive]
      exact .tries true hp hctrl hm
  | msgsndFailed i e =>
    rw [step] at hs
    obtain rfl | ⟨p, m, hp, -, hctrl, hm, rfl⟩ := send_eq_some hs
    · exact .wild
    · exact .tries _ hp hctrl hm
  | msgrcv i =>
    obtain ⟨p, hp, -, ht⟩ := proc_eq_some hs
    obtain ⟨⟨-, hcnt⟩, ht⟩ := Option.ite_none_right_eq_some.1 ht
    obtain ⟨⟨m, queue⟩, hm, rfl⟩ := Option.map_eq_some_iff.1 ht
    unfold State.msgrcv
    split
    next hfits => exact .receive hp hcnt hm hfits
    next => exact .exit hp
  | msgrcvFailed i e =>
    obtain ⟨p, hp, -, ht⟩ := proc_eq_some hs
    obtain ⟨-, ht⟩ := Option.ite_none_right_eq_some.1 ht
    cases ht
    split
    · exact .wild
    · exact .exit hp
  | print i =>
    obtain ⟨p, hp, -, ht⟩ := proc_eq_some hs
    obtain ⟨-, ht⟩ := Option.ite_none_left_eq_some.1 ht
    cases ht
    exact .print hp

/-! ## The queue -/

/-- `msgrcv` with `cliId` takes messages of this type. -/
def Admits (cliId mtype : Int) : Prop := cliId = 0 ∨ 0 < cliId ∧ mtype = cliId ∨ cliId < 0 ∧ mtype ≤ -cliId

/-- Every call takes the first message of some kind. -/
theorem msgrcv_takes {msgtyp : Int} (h : msgrcv msgtyp queue = some (m, queue')) :
    Admits msgtyp m.mtype ∧ ∃ (want : Int → Prop) (_ : DecidablePred want),
      takeFirst Msg.mtype want queue = some (m, queue') := by
  unfold msgrcv at h
  split at h
  next hzero => exact ⟨.inl hzero, _, _, h⟩
  split at h
  next hpos => exact ⟨.inr (.inl ⟨hpos, takeFirst_want h⟩), _, _, h⟩
  next hzero hpos =>
    obtain ⟨k, hk, h⟩ := Option.bind_eq_some_iff.1 h
    have hle : k ≤ -msgtyp := by
      have hmem := List.min?_mem hk
      simpa using (List.mem_filter.1 hmem).2
    have hm : m.mtype = k := takeFirst_want h
    exact ⟨.inr (.inr ⟨by omega, hm ▸ hle⟩), _, _, h⟩

theorem cbytes_append (xs ys : List Msg) : cbytes (xs ++ ys) = cbytes xs + cbytes ys := by
  rw [cbytes, List.map_append, List.sum_append]
  rfl

theorem cbytes_perm (h : queue.Perm (m :: queue')) : cbytes queue = m.text.length + cbytes queue' := by
  rw [cbytes, (h.map _).sum_nat]
  rfl

/-! ## The invariant -/

/-- What `read_from_msgq` prints of `m`. -/
def Msg.printed (m : Msg) : Printed := ⟨m.text.length, m.mtype, m.text⟩

/-- A message that fits into `mtext` with a `NUL`. -/
structure Msg.Fits (m : Msg) : Prop where
  pos : 1 ≤ m.mtype
  nul : 0 ∉ m.text
  size : m.text.length < MTEXT_SIZE

/-- Process `i` has printed what it has received, or is about to, and what was accepted of it are arguments of its
calls. -/
structure ProcInv (v : Env) (s : State) (i : Nat) (p : Proc) : Prop where
  cliId : p.cliId = v.cliId i
  printed : p.printed ++ p.pending.toList = (ofKey Prod.fst i s.received).map fun x => x.2.printed
  posted : ((ofKey Prod.fst i s.posted).map Prod.snd).Sublist p.tried

structure Inv (v : Env) (s : State) : Prop where
  account : Account Msg.mtype (s.posted.map Prod.snd) (s.received.map Prod.snd) s.queue
  bytes : cbytes s.queue ≤ v.qbytes
  msgs : s.queue.length ≤ v.qbytes
  fits : ∀ x ∈ s.posted, x.2.Fits
  admits : ∀ x ∈ s.received, Admits (v.cliId x.1) x.2.mtype
  known : ∀ x ∈ s.posted ++ s.received, x.1 < s.procs.length
  procs : ∀ i p, s.procs[i]? = some p → ProcInv v s i p

theorem inv_start (v : Env) : Inv v start where
  account := .nil
  bytes := Nat.zero_le _
  msgs := Nat.zero_le _
  fits _ hx := absurd hx List.not_mem_nil
  admits _ hx := absurd hx List.not_mem_nil
  known _ hx := absurd hx List.not_mem_nil
  procs _ _ hp := by cases hp

/-- What is in the queue has been accepted. -/
theorem Inv.queue_fits (h : Inv v s) (hm : m ∈ s.queue) : m.Fits := by
  have hmem : m ∈ s.posted.map Prod.snd := h.account.perm.mem_iff.2 (List.mem_append_right _ hm)
  obtain ⟨x, hx, rfl⟩ := List.mem_map.1 hmem
  exact h.fits x hx

/-- What process `i` sends has a `NUL` behind it in its buffer. -/
theorem Proc.Sends.fits (hm : p.Sends m) (hpos : 1 ≤ m.mtype) : m.Fits := by
  obtain ⟨hnul, htext⟩ := readStr_ok.1 hm.2
  refine ⟨hpos, htext ▸ nul_notMem_strOf, ?_⟩
  have hlen := p.sendBuf.mtext.len
  have hlt : (strOf p.sendBuf.mtext.cells).length < p.sendBuf.mtext.cells.length := by
    refine Nat.lt_of_le_of_ne (List.takeWhile_prefix _).length_le fun he => ?_
    have hall : strOf p.sendBuf.mtext.cells = p.sendBuf.mtext.cells := (List.takeWhile_prefix _).eq_of_length he
    exact nul_notMem_strOf (hall.symm ▸ hnul)
  rw [← htext, hlen] at hlt
  exact hlt

/-- The message will be printed as it was sent. -/
theorem receive_pending (hm : m.Fits) (h : (m.text ++ [0]).length ≤ MTEXT_SIZE) :
    (p.receive m h).pending = some m.printed := by
  have hcells : (overwrite p.recvBuf.mtext (m.text ++ [0]) h).cells =
      m.text ++ 0 :: p.recvBuf.mtext.cells.drop (m.text ++ [0]).length := List.append_assoc ..
  have hstr : strOf (overwrite p.recvBuf.mtext (m.text ++ [0]) h).cells = m.text := by
    rw [hcells]
    exact strOf_append_nul hm.nul
  rw [Proc.pending, Proc.receive, Option.map_some, hstr]
  rfl

theorem print_printed : p.print.printed ++ p.print.pending.toList = p.printed ++ p.pending.toList :=
  List.append_nil _

/-- One process changes, and the logs of the others do not. -/
theorem Inv.set_procs (h : Inv v s) (hprocs : t.procs = s.procs.set i q)
    (hposted : ∀ j, j ≠ i → ofKey Prod.fst j t.posted = ofKey Prod.fst j s.posted)
    (hreceived : ∀ j, j ≠ i → ofKey Prod.fst j t.received = ofKey Prod.fst j s.received)
    (hq : ProcInv v t i q) : ∀ j r, t.procs[j]? = some r → ProcInv v t j r := by
  intro j r hr
  rw [hprocs] at hr
  obtain ⟨rfl, rfl⟩ | ⟨hji, hr⟩ := slot_set hr
  · exact hq
  · have hinv := h.procs j r hr
    refine ⟨hinv.cliId, ?_, ?_⟩
    · rw [hreceived j hji]
      exact hinv.printed
    · rw [hposted j hji]
      exact hinv.posted

/-- A process changes, and the queue does not. -/
theorem Inv.set (h : Inv v s) (hq : ProcInv v s i q) : Inv v (s.set i q) where
  account := h.account
  bytes := h.bytes
  msgs := h.msgs
  fits := h.fits
  admits := h.admits
  known x hx := Nat.lt_of_lt_of_eq (h.known x hx) List.length_set.symm
  procs := h.set_procs rfl (fun _ _ => rfl) (fun _ _ => rfl) ⟨hq.cliId, hq.printed, hq.posted⟩

theorem ProcInv.tries (h : ProcInv v s i p) (m : Msg) (live : Bool) :
    ProcInv v s i { p.tries m with live := live } :=
  ⟨h.cliId, h.printed, h.posted.trans (List.sublist_append_left _ _)⟩

theorem ofKey_fst_ne {xs : List (Nat × Msg)} (h : j ≠ i) :
    ofKey Prod.fst j (xs ++ [(i, m)]) = ofKey Prod.fst j xs := by
  rw [ofKey_append]
  simp [ofKey, Ne.symm h]

theorem ofKey_fst_self (xs : List (Nat × Msg)) :
    ofKey Prod.fst i (xs ++ [(i, m)]) = ofKey Prod.fst i xs ++ [(i, m)] := by
  rw [ofKey_append]
  simp [ofKey]

/-- Nothing has been sent or received by a process that does not exist yet. -/
theorem Inv.ofKey_new (h : Inv v s) : ofKey Prod.fst s.procs.length s.posted = [] ∧
    ofKey Prod.fst s.procs.length s.received = [] := by
  constructor <;> refine List.filter_eq_nil_iff.2 fun x hx he => ?_
  · exact Nat.ne_of_lt (h.known x (List.mem_append_left _ hx)) (by simpa using he)
  · exact Nat.ne_of_lt (h.known x (List.mem_append_right _ hx)) (by simpa using he)

theorem Inv.fork (h : Inv v s) (reader : Bool) :
    Inv v { s with procs := s.procs ++ [v.proc s.procs.length reader] } := by
  refine ⟨h.account, h.bytes, h.msgs, h.fits, h.admits, fun x hx => ?_, fun j r hr => ?_⟩
  · exact Nat.lt_of_lt_of_le (h.known x hx) (List.length_append ▸ Nat.le_add_right ..)
  · obtain ⟨rfl, rfl⟩ | hr := slot_snoc hr
    · obtain ⟨hposted, hreceived⟩ := h.ofKey_new
      refine ⟨rfl, ?_, ?_⟩
      · rw [hreceived]
        rfl
      · rw [hposted]
        exact List.nil_sublist _
    · exact ⟨(h.procs j r hr).cliId, (h.procs j r hr).printed, (h.procs j r hr).posted⟩

theorem Inv.post (h : Inv v s) (hp : s.procs[i]? = some p) (hm : p.Sends m) (hpos : 1 ≤ m.mtype)
    (hroom : HasRoom v.qbytes s.queue m) :
    Inv v { s.set i (p.tries m) with queue := s.queue ++ [m], posted := s.posted ++ [(i, m)] } where
  account := by
    rw [List.map_append]
    exact h.account.put m
  bytes := by
    rw [cbytes_append]
    exact hroom.1
  msgs := by
    rw [List.length_append]
    exact hroom.2
  fits x hx := by
    obtain hx | hx := List.mem_append.1 hx
    · exact h.fits x hx
    · cases List.mem_singleton.1 hx
      exact hm.fits hpos
  admits := h.admits
  known x hx := by
    have hlt := (List.getElem?_eq_some_iff.1 hp).1
    refine Nat.lt_of_lt_of_eq ?_ List.length_set.symm
    rw [List.append_assoc, List.mem_append, List.mem_append, List.mem_singleton] at hx
    obtain hx | rfl | hx := hx
    · exact h.known x (List.mem_append_left _ hx)
    · exact hlt
    · exact h.known x (List.mem_append_right _ hx)
  procs := by
    refine h.set_procs rfl (fun j hj => ofKey_fst_ne hj) (fun _ _ => rfl) ?_
    have hinv := h.procs i p hp
    refine ⟨hinv.cliId, hinv.printed, ?_⟩
    rw [ofKey_fst_self, List.map_append]
    exact hinv.posted.append (.refl _)

theorem Inv.receive (h : Inv v s) (hp : s.procs[i]? = some p) (hcnt : p.cnt = none)
    (hm : msgrcv p.cliId s.queue = some (m, queue)) (hfits : (m.text ++ [0]).length ≤ MTEXT_SIZE) :
    Inv v { s.set i (p.receive m hfits) with queue := queue, received := s.received ++ [(i, m)] } := by
  obtain ⟨hadmits, want, _, htake⟩ := msgrcv_takes hm
  have hinv := h.procs i p hp
  have hperm := takeFirst_perm htake
  refine ⟨?_, ?_, ?_, h.fits, fun x hx => ?_, fun x hx => ?_, ?_⟩
  · rw [List.map_append]
    exact h.account.take htake
  · exact Nat.le_trans (Nat.le_add_left _ _) (cbytes_perm hperm ▸ h.bytes)
  · exact Nat.le_trans (Nat.le_succ _) (hperm.length_eq.symm.trans_le h.msgs)
  · obtain hx | hx := List.mem_append.1 hx
    · exact h.admits x hx
    · cases List.mem_singleton.1 hx
      exact hinv.cliId ▸ hadmits
  · have hlt := (List.getElem?_eq_some_iff.1 hp).1
    refine Nat.lt_of_lt_of_eq ?_ List.length_set.symm
    rw [← List.append_assoc, List.mem_append, List.mem_singleton] at hx
    obtain hx | rfl := hx
    · exact h.known x hx
    · exact hlt
  · refine h.set_procs rfl (fun _ _ => rfl) (fun j hj => ofKey_fst_ne hj) ⟨hinv.cliId, ?_, hinv.posted⟩
    have hmem : m ∈ s.queue := hperm.mem_iff.2 List.mem_cons_self
    have hnone : p.pending = none := by rw [Proc.pending, hcnt, Option.map_none]
    have hprinted := hinv.printed
    rw [hnone, Option.toList_none, List.append_nil] at hprinted
    rw [receive_pending (h.queue_fits hmem), ofKey_fst_self, List.map_append, ← hprinted]
    rfl

theorem inv_step (h : Inv v s) (hs : step v s a = some t) : Inv v t := by
  cases step_moves hs with
  | wild =>
    exact ⟨h.account, h.bytes, h.msgs, h.fits, h.admits, h.known,
      fun i p hp => ⟨(h.procs i p hp).cliId, (h.procs i p hp).printed, (h.procs i p hp).posted⟩⟩
  | fork reader => exact h.fork reader
  | input hp _ => exact h.set ⟨(h.procs _ _ hp).cliId, (h.procs _ _ hp).printed, (h.procs _ _ hp).posted⟩
  | exit hp => exact h.set ⟨(h.procs _ _ hp).cliId, (h.procs _ _ hp).printed, (h.procs _ _ hp).posted⟩
  | tries live hp _ hm => exact h.set ((h.procs _ _ hp).tries _ live)
  | post hp _ hm hpos hroom => exact h.post hp hm hpos hroom
  | receive hp hcnt hm hfits => exact h.receive hp hcnt hm hfits
  | print hp =>
    have hinv := h.procs _ _ hp
    exact h.set ⟨hinv.cliId, print_printed.trans hinv.printed, hinv.posted⟩

theorem inv_run {as : List Act} (hr : Steps.run (step v) start as = some s) : Inv v s :=
  Steps.run_inv (fun _ _ _ h hs => inv_step h hs) (inv_start v) hr

/-! ## The result -/

structure Routed (v : Env) (s : State) : Prop where
  /-- What the queue accepts of a type is received in order, or waits. -/
  inOrder : ∀ k, ofKey Msg.mtype k (s.posted.map Prod.snd) =
    ofKey Msg.mtype k (s.received.map Prod.snd) ++ ofKey Msg.mtype k s.queue
  once : (s.posted.map Prod.snd).Perm (s.received.map Prod.snd ++ s.queue)
  bytes : cbytes s.queue ≤ v.qbytes
  msgs : s.queue.length ≤ v.qbytes
  /-- What waits does not make `msgrcv` fail. -/
  fits : ∀ m ∈ s.queue, m.Fits
  admits : ∀ x ∈ s.received, Admits (v.cliId x.1) x.2.mtype
  /-- What a process has received it has printed as it was sent, but for what it is about to print. -/
  printed : ∀ i p, s.procs[i]? = some p →
    p.printed ++ p.pending.toList = (ofKey Prod.fst i s.received).map fun x => x.2.printed
  sent : ∀ i p, s.procs[i]? = some p → ((ofKey Prod.fst i s.posted).map Prod.snd).Sublist p.tried

/-- **For every type, what the queue accepts is received in order and once**, and printed as it was sent, if the process
that has received it is not ended before. -/
theorem routes {as : List Act} (hr : Steps.run (step v) start as = some s) : Routed v s := by
  have h := inv_run hr
  exact {
    inOrder := h.account
    once := h.account.perm
    bytes := h.bytes
    msgs := h.msgs
    fits := fun _ hm => h.queue_fits hm
    admits := h.admits
    printed := fun i p hp => (h.procs i p hp).printed
    sent := fun i p hp => (h.procs i p hp).posted }

/-- Process 0 sends "7 h", "9 i" and "7 j"; process 1 has the `cliId` 7 and process 2 the `cliId` -9. -/
def threeProcs : Env where
  qbytes := 5
  cliId i := if i = 1 then 7 else -9
  stdin i := if i = 0 then lit "7\nh\n9\ni\n7\nj\n" else []
  junk _ :=
    let buf : Msgbuf := ⟨0, ⟨List.replicate MTEXT_SIZE 0, List.length_replicate⟩⟩
    (buf, buf)

/-- The third message has no room at first; what process 1 has received, it has not printed yet. -/
def threeProcsRun : List Act :=
  [.fork true, .fork true, .fork true, .input 0, .msgsnd 0, .input 0, .msgsnd 0, .input 0, .msgsnd 0, .msgrcv 2,
    .print 2, .input 0, .msgsnd 0, .msgrcv 1]

theorem routes_threeProcs : ∃ s, Steps.run (step threeProcs) start threeProcsRun = some s ∧
    s.received.length = 2 ∧ Routed threeProcs s := by
  have hr : Steps.run (step threeProcs) start threeProcsRun = some _ := rfl
  exact ⟨_, hr, rfl, routes hr⟩

end SystemFunc.MsgQueue
