import SystemFunc.Reactor.Table

/-!
# What the handlers come to

What the functions on a node do to the node of a connection that has what is its own (`Owns`): no `epoll_ctl` fails, and
nothing is freed or printed that is not there. Most of them leave what the table speaks of as it is (`setNode_core`,
`modified_core`, `onConn_core`).
-/

namespace SystemFunc.Reactor

open Function

variable {s s' : State}

/-! ## The node of a connection -/

/-- `Core.Holds`, in terms of the state. -/
structure Owns (s : State) (c : Nat) : Prop where
  slot : (s.conns c).slot < EVENT_NODE_MAX
  status : (s.nodes (s.conns c).slot).status = true
  fd : (s.nodes (s.conns c).slot).fd = (s.conns c).fd
  regArgs : (s.nodes (s.conns c).slot).regArgs = some (s.conns c).addr
  pfunc : ∃ f, (s.nodes (s.conns c).slot).pfunc = some f ∧ f ≠ .doAccept
  desc : s.fds (s.conns c).fd = some (.conn c)
  reg : ∃ r, s.reg (s.conns c).fd = some r ∧ r.ptr = (s.conns c).slot
  block : s.heap (s.conns c).addr = some c

theorem Table.owns (h : Table s.core) {c : Nat} (hc : s.core.live c) : Owns s c := by
  obtain ⟨hslot, hnode, hdesc, hptr, hblock, -⟩ := h.holds c hc
  simp only [State.core, Conn.core, EventNode.core, Slot.mk.injEq] at hslot hnode hdesc hptr hblock
  obtain ⟨hstatus, hfd, hargs, hpf⟩ := hnode
  refine ⟨hslot, hstatus, hfd, hargs, ?_, hdesc, ?_, hblock⟩
  · obtain ⟨f, hf, hne⟩ := Option.map_eq_some_iff.1 hpf
    exact ⟨f, hf, of_decide_eq_false hne⟩
  · exact Option.map_eq_some_iff.1 hptr

/-- Connection `c` is closed: its block is freed, its node and its descriptor are given back. -/
def State.closed (s : State) (c : Nat) (reason : Reason) : State :=
  let k := s.conns c
  { s with
    nodes := update s.nodes k.slot
      { s.nodes k.slot with status := false, bufLen := 0, wIndex := 0, regArgs := none }
    fds := update s.fds k.fd none
    reg := update s.reg k.fd none
    heap := update s.heap k.addr none
    conns := update s.conns c { k with frees := k.frees + 1, closed := some reason } }

theorem closeNode_eq {c : Nat} (ho : Owns s c) (reason : Reason) :
    s.closeNode (s.conns c).slot (s.conns c).fd reason = s.closed c reason := by
  obtain ⟨r, hr, -⟩ := ho.reg
  simp [State.closeNode, State.freeRegArgs, State.eventDel, State.close, State.onConn, State.setNode, State.closed,
    ho.regArgs, ho.block, ho.fd, hr, ho.desc]

theorem closed_core {c : Nat} (ho : Owns s c) (reason : Reason) :
    (s.closed c reason).core = s.core.shut c reason := by
  obtain ⟨f, hf, hne⟩ := ho.pfunc
  simp only [State.core, Core.shut, State.closed, Core.mk.injEq, and_true]
  refine ⟨?_, rfl, ?_, rfl, ?_⟩
  · funext j
    by_cases hj : j = (s.conns c).slot
    · subst hj
      simp [EventNode.core, Conn.core, ho.fd, hf, hne]
    · simp [Conn.core, hj]
  · funext fd
    by_cases hfd : fd = (s.conns c).fd
    · subst hfd
      simp [Conn.core]
    · simp [Conn.core, hfd]
  · funext d
    by_cases hd : d = c
    · subst hd
      simp [Conn.core]
    · simp [hd]

/-- The registration of a node that is modified. -/
def State.modified (s : State) (i : Nat) (node : EventNode) : State :=
  { s.setNode i node with
    reg := update s.reg node.fd ((s.reg node.fd).map fun r =>
      { r with events := node.event, mark := r.mark || (node.event.epollin && s.readable node.fd) }) }

theorem eventMod_eq {c : Nat} (ho : Owns s c) (node : EventNode) (hfd : node.fd = (s.conns c).fd)
    (hstatus : node.status = true) :
    (s.setNode (s.conns c).slot node).eventMod (s.conns c).slot = s.modified (s.conns c).slot node := by
  obtain ⟨r, hr, hptr⟩ := ho.reg
  cases node
  simp only at hfd hstatus
  subst hfd hstatus
  simp [State.eventMod, State.modified, State.setNode, State.readable, hr, hptr]

/-- A node that changes in what the table does not speak of. -/
theorem setNode_core {i : Nat} {node : EventNode} (hn : node.core = (s.nodes i).core) :
    (s.setNode i node).core = s.core := by
  simp only [State.core, State.setNode, Core.mk.injEq, and_true]
  funext j
  by_cases hj : j = i
  · subst hj
    simpa using hn
  · simp [hj]

theorem modified_core {i : Nat} {node : EventNode} (hn : node.core = (s.nodes i).core) :
    (s.modified i node).core = s.core := by
  refine Eq.trans ?_ (setNode_core hn)
  simp only [State.core, State.modified, State.setNode, Core.mk.injEq, true_and, and_true]
  funext fd
  by_cases hfd : fd = node.fd
  · subst hfd
    cases s.reg node.fd <;> simp
  · simp [hfd]

/-- Connection `c` becomes `k`. -/
def State.setConn (s : State) (c : Nat) (k : Conn) : State := { s with conns := update s.conns c k }

theorem onConn_eq {fd c : Nat} (hd : s.fds fd = some (.conn c)) (f : Conn → Conn) :
    s.onConn fd f = s.setConn c (f (s.conns c)) := by
  simp [State.onConn, State.setConn, hd]

theorem setConn_core {c : Nat} {k : Conn} (hk : k.core = (s.conns c).core) : (s.setConn c k).core = s.core := by
  simp only [State.core, State.setConn, Core.mk.injEq, true_and, and_true]
  funext d
  by_cases hd : d = c
  · subst hd
    simpa using hk
  · simp [hd]

theorem onConn_core {fd : Nat} {f : Conn → Conn} (hf : ∀ k, (f k).core = k.core) :
    (s.onConn fd f).core = s.core := by
  by_cases hd : ∃ c, s.fds fd = some (.conn c)
  · obtain ⟨c, hd⟩ := hd
    rw [onConn_eq hd, setConn_core (hf _)]
  · unfold State.onConn
    split
    · rename_i c hc
      exact absurd ⟨c, hc⟩ hd
    · rfl

theorem arrived_core {c : Nat} {k : Conn} (hk : k.core = (s.conns c).core) : (s.arrived c k).core = s.core := by
  simp only [State.core, State.arrived, Core.mk.injEq, true_and, and_true]
  refine ⟨?_, ?_⟩
  · funext fd
    by_cases hfd : fd = k.fd
    · subst hfd
      cases s.reg k.fd <;> simp
    · simp [hfd]
  · funext d
    by_cases hd : d = c
    · subst hd
      simpa using hk
    · simp [hd]

theorem ctrl_core (ctrl : Ctrl) : { s with ctrl := ctrl }.core = s.core := rfl

theorem doRead_core {i fd totalCnt : Nat} {bytes : List UInt8} {evs : List Pending} :
    (s.doRead i fd totalCnt bytes evs).core = s.core := by
  unfold State.doRead
  rw [ctrl_core, onConn_core, setNode_core]
  · rfl
  · exact fun k => rfl

theorem doWrite_core {i fd cnt : Nat} {evs : List Pending} : (s.doWrite i fd cnt evs).core = s.core := by
  unfold State.doWrite
  rw [ctrl_core, onConn_core, setNode_core]
  · rfl
  · exact fun k => rfl

/-! ## The handlers -/

theorem Owns.ctrl {c : Nat} (ho : Owns s c) (ctrl : Ctrl) : Owns { s with ctrl := ctrl } c :=
  ⟨ho.slot, ho.status, ho.fd, ho.regArgs, ho.pfunc, ho.desc, ho.reg, ho.block⟩

theorem toWrite_eq {c : Nat} (ho : Owns s c) (totalCnt : Nat) (t : Int) (evs : List Pending) :
    s.toWrite (s.conns c).slot (s.conns c).fd totalCnt t evs =
      { s with ctrl := .batch evs }.modified (s.conns c).slot
        (setEventNode { s.nodes (s.conns c).slot with bufLen := totalCnt, wIndex := 0 } (s.conns c).fd .writing .doWrite
          (some (s.conns c).addr) t) := by
  have h := eventMod_eq (ho.ctrl (.batch evs)) (setEventNode
    { s.nodes (s.conns c).slot with bufLen := totalCnt, wIndex := 0 } (s.conns c).fd .writing .doWrite
      (some (s.conns c).addr) t) rfl ho.status
  rw [← h]
  simp [State.toWrite, State.printAddr, ho.regArgs, ho.block, State.setNode]

theorem afterWrite_more {c : Nat} (ho : Owns s c) (hlen : (s.nodes (s.conns c).slot).bufLen ≠ 0) (t : Int)
    (evs : List Pending) :
    s.afterWrite (s.conns c).slot (s.conns c).fd t evs = { s with ctrl := .batch evs } := by
  simp [State.afterWrite, State.printAddr, ho.regArgs, ho.block, hlen]

theorem afterWrite_done {c : Nat} (ho : Owns s c) (hlen : (s.nodes (s.conns c).slot).bufLen = 0) (t : Int)
    (evs : List Pending) :
    s.afterWrite (s.conns c).slot (s.conns c).fd t evs =
      { s with ctrl := .batch evs }.modified (s.conns c).slot
        (setEventNode (s.nodes (s.conns c).slot) (s.conns c).fd .reading .doReadLoop (some (s.conns c).addr) t) := by
  have h := eventMod_eq (ho.ctrl (.batch evs)) (setEventNode (s.nodes (s.conns c).slot) (s.conns c).fd .reading
    .doReadLoop (some (s.conns c).addr) t) rfl ho.status
  rw [← h]
  simp [State.afterWrite, State.printAddr, ho.regArgs, ho.block, State.setNode, hlen]

theorem doRead_eq {c : Nat} (ho : Owns s c) (totalCnt : Nat) (bytes : List UInt8) (evs : List Pending) :
    s.doRead (s.conns c).slot (s.conns c).fd totalCnt bytes evs =
      { (s.setNode (s.conns c).slot { s.nodes (s.conns c).slot with
          buf := Buffer.store (s.nodes (s.conns c).slot).buf totalCnt bytes }).setConn c
            { s.conns c with
              pending := (s.conns c).pending.drop bytes.length
              got := (s.conns c).got ++ bytes
              burst := (s.conns c).burst ++ bytes } with
        ctrl := .handler (s.conns c).slot (s.conns c).fd (.reading (totalCnt + bytes.length)) evs } := by
  simp [State.doRead, State.onConn, State.setConn, State.setNode, ho.desc]

theorem doWrite_eq {c : Nat} (ho : Owns s c) (cnt : Nat) (evs : List Pending) :
    s.doWrite (s.conns c).slot (s.conns c).fd cnt evs =
      { (s.setNode (s.conns c).slot { s.nodes (s.conns c).slot with
          bufLen := (s.nodes (s.conns c).slot).bufLen - cnt
          wIndex := (s.nodes (s.conns c).slot).wIndex + cnt }).setConn c
            { s.conns c with
              out := (s.conns c).out ++
                Buffer.slice (s.nodes (s.conns c).slot).buf (s.nodes (s.conns c).slot).wIndex cnt } with
        ctrl := .handler (s.conns c).slot (s.conns c).fd .wrote evs } := by
  simp [State.doWrite, State.onConn, State.setConn, State.setNode, ho.desc]

/-- A connection is accepted: it has slot `i`, and its node is registered for reading. -/
def State.opened (s : State) (i cfd addr : Nat) (pending : List UInt8) (eof : Bool) (t : Int) : State :=
  { s with
    heap := update s.heap addr (some s.accepted)
    fds := update s.fds cfd (some (.conn s.accepted))
    conns := update s.conns s.accepted
      { pending := pending, eof := eof, fd := cfd, addr := addr, slot := i, got := [], out := [], burst := [],
        frees := 0, closed := none }
    accepted := s.accepted + 1
    nodes := update s.nodes i
      { setEventNode (s.nodes i) cfd .reading .doReadLoop (some addr) t with status := true, bufLen := 0, wIndex := 0 }
    reg := update s.reg cfd (some { events := .reading, ptr := i, mark := !pending.isEmpty || eof }) }

theorem doAccept_eq (h : Table s.core) {i cfd addr : Nat} {pending : List UInt8} {eof : Bool} {t : Int}
    (hfd : s.fds cfd = none) : s.doAccept i cfd addr pending eof t = s.opened i cfd addr pending eof t := by
  have hreg : s.reg cfd = none := by simpa [State.core] using h.ptr_none hfd
  simp [State.doAccept, State.eventAdd, State.opened, State.setNode, State.readable, setEventNode, hreg, Events.reading]

theorem opened_core {i cfd addr : Nat} {pending : List UInt8} {eof : Bool} {t : Int} :
    (s.opened i cfd addr pending eof t).core = s.core.opened i cfd addr := by
  simp only [State.core, Core.opened, State.opened, Core.mk.injEq, true_and, and_true]
  refine ⟨?_, ?_, ?_⟩
  · funext j
    by_cases hj : j = i
    · subst hj
      simp [EventNode.core, setEventNode]
    · simp [hj]
  · funext fd
    by_cases hfd : fd = cfd
    · subst hfd
      simp
    · simp [hfd]
  · funext d
    by_cases hd : d = s.accepted
    · subst hd
      simp [Conn.core]
    · simp [hd]

/-- `FindUnuseNode` answers with an unused node, or there is none. -/
theorem findUnuseNode_status {nodes : Nat → EventNode} {i n : Nat} (h : findUnuseNode nodes i n < i + n) :
    (nodes (findUnuseNode nodes i n)).status = false := by
  induction n generalizing i with
  | zero => simp [findUnuseNode] at h
  | succ n ih =>
    simp only [findUnuseNode] at h ⊢
    split
    · assumption
    · rename_i hne
      rw [if_neg hne] at h
      exact ih (by omega)

end SystemFunc.Reactor
