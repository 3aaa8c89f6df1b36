import SystemFunc.Reactor.Sound

/-!
# The life of one connection

`State.view` is what a state says about one connection: its record, its node and registration, whether an event of it
waits in the batch, and where its handler is. A step of the reactor is, for each connection that stays open, a step of
its `Life` (`Move.life`); so an invariant of single connections is proved over `Life` (`view_inv`).

- `Move.fresh`: the view of a connection that is accepted;
- `Move.record`: what a step makes of the record of a connection that is closed, or closes it with.
-/

namespace SystemFunc.Reactor

open Buffer Function

variable {s s' : State} {a : Act} {c : Nat}

/-- An event waits for the node with index `i`. -/
def Ctrl.waiting (ctrl : Ctrl) (i : Nat) : Bool := i ∈ ctrl.evs.map Pending.ptr

/-- What the handler does for the node with index `i`. -/
def Ctrl.doing (ctrl : Ctrl) (i : Nat) : Option Doing :=
  match ctrl with
  | .handler j _ doing _ => if j = i then some doing else none
  | _ => none

structure View where
  conn : Conn
  node : EventNode
  reg : Option Registration
  waiting : Bool
  doing : Option Doing

def State.view (s : State) (c : Nat) : View where
  conn := s.conns c
  node := s.nodes (s.conns c).slot
  reg := s.reg (s.conns c).fd
  waiting := s.ctrl.waiting (s.conns c).slot
  doing := s.ctrl.doing (s.conns c).slot

/-- Something has arrived. -/
def View.arrived (v : View) (k : Conn) : View :=
  { v with conn := k, reg := v.reg.map fun r => { r with mark := r.mark || r.events.epollin } }

/-- Bytes or the end of the stream are pending. -/
def Conn.readable (k : Conn) : Bool := !k.pending.isEmpty || k.eof

/-- The node is modified, at the end of a handler. -/
def View.modified (v : View) (node : EventNode) : View :=
  { v with
    node := node
    reg := v.reg.map fun r => { r with events := node.event, mark := r.mark || (node.event.epollin && v.conn.readable) }
    doing := none }

/-- The steps of one connection. -/
inductive Life (v : View) : View → Prop
  | same : Life v v
  | arrive {bytes : List UInt8} (heof : v.conn.eof = false) :
      Life v (v.arrived { v.conn with pending := v.conn.pending ++ bytes })
  | peerClose (heof : v.conn.eof = false) : Life v (v.arrived { v.conn with eof := true })
  | report (hdoing : v.doing = none) :
      Life v { v with waiting := true, reg := v.reg.map fun r => { r with mark := r.mark && !r.events.epollet } }
  | startRead {t : Int} (hdoing : v.doing = none) (hp : v.node.pfunc = some .doReadLoop) :
      Life v { v with
        conn := { v.conn with burst := [] }
        node := { v.node with lastAccess := t }
        waiting := false
        doing := some (.reading 0) }
  | startWrite {t : Int} (hdoing : v.doing = none) (hp : v.node.pfunc = some .doWrite) :
      Life v { v with node := { v.node with lastAccess := t }, waiting := false, doing := some .writing }
  | read {n totalCnt : Nat} (hdoing : v.doing = some (.reading totalCnt)) (hn : 1 ≤ n ∧ n ≤ v.conn.pending.length) :
      Life v { v with
        conn := { v.conn with
          pending := v.conn.pending.drop n
          got := v.conn.got ++ v.conn.pending.take n
          burst := v.conn.burst ++ v.conn.pending.take n }
        node := { v.node with buf := store v.node.buf totalCnt (v.conn.pending.take n) }
        doing := some (.reading (totalCnt + n)) }
  | readEagain {totalCnt : Nat} (hdoing : v.doing = some (.reading totalCnt))
      (hdry : v.conn.pending = [] ∧ v.conn.eof = false) : Life v { v with doing := some (.readDone totalCnt) }
  | toWrite {totalCnt fd : Nat} {regArgs : Option Nat} {t : Int} (hdoing : v.doing = some (.readDone totalCnt)) :
      Life v (v.modified (setEventNode { v.node with bufLen := totalCnt, wIndex := 0 } fd .writing .doWrite regArgs t))
  | write {cnt : Nat} (hdoing : v.doing = some .writing) (hcnt : cnt ≤ v.node.bufLen) :
      Life v { v with
        conn := { v.conn with out := v.conn.out ++ slice v.node.buf v.node.wIndex cnt }
        node := { v.node with bufLen := v.node.bufLen - cnt, wIndex := v.node.wIndex + cnt }
        doing := some .wrote }
  | more (hdoing : v.doing = some .wrote) : Life v { v with doing := none }
  | toRead {fd : Nat} {regArgs : Option Nat} {t : Int} (hdoing : v.doing = some .wrote) (hlen : v.node.bufLen = 0) :
      Life v (v.modified (setEventNode v.node fd .reading .doReadLoop regArgs t))

/-! ## What a step leaves alone -/

theorem Life.unchanged (hconn : s'.conns c = s.conns c)
    (hnode : s'.nodes (s.conns c).slot = s.nodes (s.conns c).slot)
    (hreg : s'.reg (s.conns c).fd = s.reg (s.conns c).fd)
    (hwaiting : s'.ctrl.waiting (s.conns c).slot = s.ctrl.waiting (s.conns c).slot)
    (hdoing : s'.ctrl.doing (s.conns c).slot = s.ctrl.doing (s.conns c).slot) : Life (s.view c) (s'.view c) := by
  have hv : s'.view c = s.view c := by simp only [State.view, hconn, hnode, hreg, hwaiting, hdoing]
  exact hv ▸ .same

theorem waiting_of_outside {ctrl : Ctrl} (h : ctrl.outside = true) (i : Nat) : ctrl.waiting i = false := by
  unfold Ctrl.outside at h
  split at h <;> first | rfl | cases h

theorem doing_of_outside {ctrl : Ctrl} (h : ctrl.outside = true) (i : Nat) : ctrl.doing i = none := by
  unfold Ctrl.outside at h
  split at h <;> first | rfl | cases h

theorem running_of_outside {ctrl : Ctrl} (h : ctrl.outside = true) : ctrl.stopped = false := by
  unfold Ctrl.outside at h
  split at h <;> first | rfl | cases h

@[simp] theorem waiting_batch {evs : List Pending} {i : Nat} :
    (Ctrl.batch evs).waiting i = decide (i ∈ evs.map Pending.ptr) := rfl

@[simp] theorem waiting_handler {j fd i : Nat} {doing : Doing} {evs : List Pending} :
    (Ctrl.handler j fd doing evs).waiting i = decide (i ∈ evs.map Pending.ptr) := rfl

@[simp] theorem doing_batch {evs : List Pending} {i : Nat} : (Ctrl.batch evs).doing i = none := rfl

@[simp] theorem doing_handler_self {i fd : Nat} {doing : Doing} {evs : List Pending} :
    (Ctrl.handler i fd doing evs).doing i = some doing := if_pos rfl

theorem doing_handler_of_ne {i j fd : Nat} {doing : Doing} {evs : List Pending} (h : j ≠ i) :
    (Ctrl.handler j fd doing evs).doing i = none := if_neg h

/-- The things of another connection are others. -/
theorem Sound.apart (h : Sound s) {d : Nat} (hc : s.core.live c) (hd : s.core.live d) (hne : d ≠ c) :
    (s.conns d).slot ≠ (s.conns c).slot ∧ (s.conns d).fd ≠ (s.conns c).fd :=
  ⟨fun he => hne (h.table.slot_inj hd hc he), fun he => hne (h.table.fd_inj hd hc he)⟩

/-- The listening socket has neither slot nor descriptor of a connection. -/
theorem Sound.apart_listener (h : Sound s) (hc : s.core.live c) : EVENT_NODE_MAX ≠ (s.conns c).slot :=
  Nat.ne_of_gt (h.table.owns hc).slot

/-- The event that is handled next is at the slot of its connection, and the others are not. -/
theorem Sound.head_event (h : Sound s) {e : Pending} {evs : List Pending} (hctrl : s.ctrl = .batch (e :: evs)) :
    e.ptr ∉ evs.map Pending.ptr ∧ ∀ d, e.conn = some d → e.ptr = (s.conns d).slot := by
  have hnodup := h.placed.nodup
  simp only [hctrl, Ctrl.evs, List.map_cons, List.nodup_cons] at hnodup
  refine ⟨hnodup.1, fun d hd => ?_⟩
  have hentry := h.placed.entries e (by simp [hctrl, Ctrl.evs])
  simp only [Entry, hd] at hentry
  exact hentry.2.symm

/-- `readable` is that of the connection. -/
theorem readable_eq {fd : Nat} (hd : s.fds fd = some (.conn c)) : s.readable fd = (s.conns c).readable := by
  simp [State.readable, hd, Conn.readable]

/-- An event waits for a slot after `epoll_wait` when its descriptor was reported. -/
theorem waiting_report (h : Sound s) (hc : s.core.live c) (fds : List Nat) :
    (Ctrl.batch (fds.filterMap s.report)).waiting (s.conns c).slot = decide ((s.conns c).fd ∈ fds) := by
  obtain ⟨r, hr, hptr⟩ := (h.table.owns hc).reg
  simp only [waiting_batch, decide_eq_decide, List.mem_map, List.mem_filterMap]
  constructor
  · rintro ⟨e, ⟨fd, hmem, hfd⟩, he⟩
    obtain ⟨r', hr', rfl⟩ := Option.map_eq_some_iff.1 hfd
    have hpc : s.core.ptr (s.conns c).fd = some (s.conns c).slot := by simp [State.core, hr, hptr]
    have hp : s.core.ptr fd = some (s.conns c).slot := by simpa [State.core, hr'] using he
    exact h.table.ptr_inj hp hpc ▸ hmem
  · intro hmem
    exact ⟨_, ⟨_, hmem, by simp only [State.report, hr]; rfl⟩, hptr⟩

/-- The handler of connection `d` goes on or returns, and connection `c` is another. -/
theorem Life.elsewhere (h : Sound s) {d : Nat} (hc : s.core.live c) (hd : s.core.live d) (hne : c ≠ d)
    {fd : Nat} {doing : Doing} {evs : List Pending} (hctrl : s.ctrl = .handler (s.conns d).slot fd doing evs)
    (hctrl' : s'.ctrl = .batch evs ∨ ∃ doing', s'.ctrl = .handler (s.conns d).slot fd doing' evs)
    (hconn : s'.conns c = s.conns c) (hnode : s'.nodes (s.conns c).slot = s.nodes (s.conns c).slot)
    (hreg : s'.reg (s.conns c).fd = s.reg (s.conns c).fd) : Life (s.view c) (s'.view c) := by
  have hslot := (h.apart hd hc hne).1.symm
  rcases hctrl' with hctrl' | ⟨doing', hctrl'⟩
  · refine .unchanged hconn hnode hreg (by rw [hctrl, hctrl']; rfl) ?_
    rw [hctrl, hctrl', doing_handler_of_ne hslot, doing_batch]
  · refine .unchanged hconn hnode hreg (by rw [hctrl, hctrl']; rfl) ?_
    rw [hctrl, hctrl', doing_handler_of_ne hslot, doing_handler_of_ne hslot]

/-- Something arrives at connection `d`, and connection `c` is another. -/
theorem Life.arrived_elsewhere (h : Sound s) {d : Nat} (hc : s.core.live c) (hd : s.core.live d) (hne : c ≠ d)
    {k : Conn} (hk : k.fd = (s.conns d).fd) : Life (s.view c) ((s.arrived d k).view c) := by
  obtain ⟨-, hfd⟩ := h.apart hd hc hne
  apply Life.unchanged <;> simp [State.arrived, hne, hk, hfd]

/-- The handler of the event at slot `i` starts, and connection `c` is at another slot. -/
theorem Life.started {e : Pending} {evs : List Pending} {i fd : Nat} {doing : Doing}
    (hctrl : s.ctrl = .batch (e :: evs)) (hptr : e.ptr = i) (hslot : (s.conns c).slot ≠ i)
    (hctrl' : s'.ctrl = .handler i fd doing evs) (hconn : s'.conns c = s.conns c)
    (hnode : s'.nodes (s.conns c).slot = s.nodes (s.conns c).slot)
    (hreg : s'.reg (s.conns c).fd = s.reg (s.conns c).fd) : Life (s.view c) (s'.view c) := by
  refine .unchanged hconn hnode hreg ?_ ?_
  · simp [hctrl, hctrl', hptr, hslot]
  · rw [hctrl, hctrl', doing_handler_of_ne hslot.symm, doing_batch]

/-! ## The simulation -/

/-- **A step is a step of every connection that stays open.** -/
theorem Move.life (h : Sound s) (hm : Move s a s') (hrun : s'.ctrl.stopped = false) (hc : s.core.live c)
    (hc' : s'.core.live c) : Life (s.view c) (s'.view c) := by
  have ho := h.table.owns hc
  cases hm with
  | @arrive d bytes hd heof =>
    by_cases hdc : c = d
    · subst hdc
      have hv : (s.arrived c { s.conns c with pending := (s.conns c).pending ++ bytes }).view c =
          (s.view c).arrived { s.conns c with pending := (s.conns c).pending ++ bytes } := by
        simp [State.view, State.arrived, View.arrived]
      exact hv ▸ .arrive heof
    · exact .arrived_elsewhere h hc hd hdc rfl
  | @peerClose d hd heof =>
    by_cases hdc : c = d
    · subst hdc
      have hv : (s.arrived c { s.conns c with eof := true }).view c =
          (s.view c).arrived { s.conns c with eof := true } := by
        simp [State.view, State.arrived, View.arrived]
      exact hv ▸ .peerClose heof
    · exact .arrived_elsewhere h hc hd hdc rfl
  | loop hold hnew =>
    exact .unchanged rfl rfl rfl ((waiting_of_outside hnew _).trans (waiting_of_outside hold _).symm)
      ((doing_of_outside hnew _).trans (doing_of_outside hold _).symm)
  | stop hstop => exact absurd hstop (by simp [hrun])
  | @timeout now i d hctrl hd =>
    have hold : s.ctrl.outside = true := by rw [hctrl]; rfl
    by_cases hdc : c = d
    · subst hdc
      exact absurd hc'.2 (by simp [State.core, State.closed, Conn.core])
    · obtain ⟨hslot, hfd⟩ := h.apart hd hc hdc
      refine .unchanged ?_ ?_ ?_ (waiting_of_outside hold _).symm (doing_of_outside hold _).symm <;>
        simp [State.closed, hdc, hfd, hslot]
  | @report fds hctrl hnodup hreg =>
    have hold : s.ctrl.outside = true := by rw [hctrl]; rfl
    have hw := waiting_report h hc fds
    by_cases hmem : (s.conns c).fd ∈ fds
    · have hlife := Life.report (v := s.view c) (doing_of_outside hold _)
      convert hlife using 1
      simp [State.view, hw, hmem, doing_of_outside hold]
    · refine .unchanged rfl rfl (if_neg hmem) (hw.trans ?_) (doing_of_outside hold _).symm
      rw [waiting_of_outside hold, decide_eq_false hmem]
  | @startAccept t e evs hctrl hconn =>
    have hne := h.apart_listener hc
    have hentry := h.placed.entries e (by simp [hctrl, Ctrl.evs])
    simp only [Entry, hconn] at hentry
    exact .started hctrl hentry hne.symm rfl rfl (by simp [State.setNode, hne.symm]) rfl
  | @startRead t e evs d hctrl hconn hd hp =>
    obtain ⟨hnot, hptr⟩ := h.head_event hctrl
    have hptr := hptr d hconn
    by_cases hdc : c = d
    · subst hdc
      have hdoing : (s.view c).doing = none := by simp [State.view, hctrl]
      have hlife := Life.startRead (t := t) hdoing hp
      convert hlife using 1
      simp [State.view, State.setConn, State.setNode, ← hptr, hnot]
    · obtain ⟨hslot, -⟩ := h.apart hd hc hdc
      exact .started hctrl hptr hslot rfl (by simp [State.setConn, State.setNode, hdc])
        (by simp [State.setConn, State.setNode, hslot]) rfl
  | @startWrite t e evs d hctrl hconn hd hp =>
    obtain ⟨hnot, hptr⟩ := h.head_event hctrl
    have hptr := hptr d hconn
    by_cases hdc : c = d
    · subst hdc
      have hdoing : (s.view c).doing = none := by simp [State.view, hctrl]
      have hlife := Life.startWrite (t := t) hdoing hp
      convert hlife using 1
      simp [State.view, State.setNode, ← hptr, hnot]
    · obtain ⟨hslot, -⟩ := h.apart hd hc hdc
      exact .started hctrl hptr hslot rfl rfl (by simp [State.setNode, hslot]) rfl
  | @tableFull i fd cfd addr pending eof t evs hctrl =>
    refine .unchanged rfl rfl rfl (by rw [hctrl]; rfl) ?_
    obtain ⟨-, rfl⟩ := h.placed.handler _ _ _ _ hctrl
    rw [hctrl, doing_handler_of_ne (h.apart_listener hc), doing_batch]
  | @opened i fd slot cfd addr pending eof t evs hctrl hslot hfree hfd haddr =>
    obtain ⟨-, rfl⟩ := h.placed.handler _ _ _ _ hctrl
    have hne : c ≠ s.accepted := Nat.ne_of_lt hc.1
    have hslot' : (s.conns c).slot ≠ slot := fun he => by simp [← he, ho.status] at hfree
    have hfd' : (s.conns c).fd ≠ cfd := fun he => by simp [← he, ho.desc] at hfd
    refine .unchanged ?_ ?_ ?_ (by rw [hctrl]; rfl) ?_
    · simp [State.opened, hne]
    · simp [State.opened, hslot']
    · simp [State.opened, hfd']
    · rw [hctrl, doing_handler_of_ne (h.apart_listener hc)]
      rfl
  | @read d n totalCnt evs hd hctrl hn hfits =>
    by_cases hdc : c = d
    · subst hdc
      have hdoing : (s.view c).doing = some (.reading totalCnt) := by simp [State.view, hctrl]
      have hlife := Life.read hdoing hn
      convert hlife using 1
      simp [doRead_eq ho, State.view, State.setConn, State.setNode, hctrl, Nat.min_eq_left hn.2]
    · obtain ⟨hslot, hfd⟩ := h.apart hd hc hdc
      rw [doRead_eq (h.table.owns hd)]
      refine .elsewhere h hc hd hdc hctrl (.inr ⟨_, rfl⟩) ?_ ?_ rfl <;>
        simp [State.setConn, State.setNode, hdc, hslot]
  | @readEagain d totalCnt evs hd hctrl hdry =>
    by_cases hdc : c = d
    · subst hdc
      have hdoing : (s.view c).doing = some (.reading totalCnt) := by simp [State.view, hctrl]
      have hlife := Life.readEagain hdoing hdry
      convert hlife using 1
      simp [State.view, hctrl]
    · exact .elsewhere h hc hd hdc hctrl (.inr ⟨_, rfl⟩) rfl rfl rfl
  | readEintr => exact .same
  | @endOfStream d totalCnt evs hd hctrl hdry =>
    by_cases hdc : c = d
    · subst hdc
      exact absurd hc'.2 (by simp [State.core, State.closed, Conn.core])
    · obtain ⟨hslot, hfd⟩ := h.apart hd hc hdc
      refine .elsewhere h hc hd hdc hctrl (.inl rfl) ?_ ?_ ?_ <;> simp [State.closed, hdc, hfd, hslot]
  | @toWrite d totalCnt t evs hd hctrl =>
    by_cases hdc : c = d
    · subst hdc
      have hdoing : (s.view c).doing = some (.readDone totalCnt) := by simp [State.view, hctrl]
      have hlife := @Life.toWrite _ totalCnt (s.conns c).fd (some (s.conns c).addr) t hdoing
      convert hlife using 1
      simp [State.view, State.modified, View.modified, State.setNode, setEventNode, hctrl, Events.writing]
    · obtain ⟨hslot, hfd⟩ := h.apart hd hc hdc
      refine .elsewhere h hc hd hdc hctrl (.inl rfl) rfl ?_ ?_ <;>
        simp [State.modified, State.setNode, setEventNode, hslot, hfd]
  | @write d cnt evs hd hctrl hcnt =>
    by_cases hdc : c = d
    · subst hdc
      have hdoing : (s.view c).doing = some .writing := by simp [State.view, hctrl]
      have hlife := Life.write hdoing hcnt
      convert hlife using 1
      simp [doWrite_eq ho, State.view, State.setConn, State.setNode, hctrl]
    · obtain ⟨hslot, hfd⟩ := h.apart hd hc hdc
      rw [doWrite_eq (h.table.owns hd)]
      refine .elsewhere h hc hd hdc hctrl (.inr ⟨_, rfl⟩) ?_ ?_ rfl <;>
        simp [State.setConn, State.setNode, hdc, hslot]
  | @more d t evs hd hctrl =>
    by_cases hdc : c = d
    · subst hdc
      have hdoing : (s.view c).doing = some .wrote := by simp [State.view, hctrl]
      have hlife := Life.more hdoing
      convert hlife using 1
      simp [State.view, hctrl]
    · exact .elsewhere h hc hd hdc hctrl (.inl rfl) rfl rfl rfl
  | @toRead d t evs hd hctrl hlen =>
    by_cases hdc : c = d
    · subst hdc
      have hdoing : (s.view c).doing = some .wrote := by simp [State.view, hctrl]
      have hlife := @Life.toRead _ (s.conns c).fd (some (s.conns c).addr) t hdoing hlen
      have hreadable := readable_eq (s := { s with ctrl := .batch evs }) ho.desc
      convert hlife using 1
      simp [State.view, State.modified, View.modified, State.setNode, setEventNode, hctrl, Events.reading, hreadable]
    · obtain ⟨hslot, hfd⟩ := h.apart hd hc hdc
      refine .elsewhere h hc hd hdc hctrl (.inl rfl) rfl ?_ ?_ <;>
        simp [State.modified, State.setNode, setEventNode, hslot, hfd]

/-! ## The ends of a life -/

/-- A connection that has just been accepted. -/
structure View.Fresh (v : View) : Prop where
  got : v.conn.got = []
  out : v.conn.out = []
  closed : v.conn.closed = none
  pfunc : v.node.pfunc = some .doReadLoop
  event : v.node.event = .reading
  reg : ∃ r, v.reg = some r ∧ r.events = .reading ∧ r.mark = v.conn.readable
  doing : v.doing = none

/-- What a step makes of connection `c`: nothing, as far as its record goes; something arrives; its handler does
something; its end; or its beginning. -/
inductive Change (s : State) (a : Act) (s' : State) (c : Nat) : Prop
  | kept (hconn : s'.conns c = s.conns c)
      (hacc : s'.accepted = s.accepted ∨ c ≠ s.accepted ∧ s'.accepted = s.accepted + 1)
  | arrived {pending : List UInt8} {eof : Bool} (hlive : s.core.live c)
      (hconn : s'.conns c = { s.conns c with pending := pending, eof := eof }) (hacc : s'.accepted = s.accepted)
  | moved (hlive : s.core.live c) (hopen : (s'.conns c).closed = none) (hacc : s'.accepted = s.accepted)
      (hrun : s'.ctrl.stopped = false)
  | timeout (hlive : s.core.live c)
      (hconn : s'.conns c = { s.conns c with frees := (s.conns c).frees + 1, closed := some .timeout })
      (hacc : s'.accepted = s.accepted)
  | endOfStream {totalCnt : Nat} {evs : List Pending} (hlive : s.core.live c) (hact : a = .readZero)
      (hctrl : s.ctrl = .handler (s.conns c).slot (s.conns c).fd (.reading totalCnt) evs)
      (hdry : (s.conns c).pending = [] ∧ (s.conns c).eof = true)
      (hconn : s'.conns c = { s.conns c with frees := (s.conns c).frees + 1, closed := some .endOfStream })
      (hacc : s'.accepted = s.accepted)
  | opened (hnew : c = s.accepted) (hfresh : (s'.view c).Fresh) (hrun : s.ctrl.stopped = false)

/-- A step of the handler of connection `d`. -/
theorem Change.on {d : Nat} {k : Conn} (hd : s.core.live d) (hconns : s'.conns = update s.conns d k)
    (hk : k.closed = none) (hacc : s'.accepted = s.accepted) (hrun : s'.ctrl.stopped = false) :
    Change s a s' c := by
  by_cases hcd : c = d
  · subst hcd
    exact .moved hd (by simp [hconns, hk]) hacc hrun
  · exact .kept (by simp [hconns, hcd]) (.inl hacc)

/-- Something arrives at connection `d`. -/
theorem Change.arrive {d : Nat} {pending : List UInt8} {eof : Bool} (hd : s.core.live d)
    (hconns : s'.conns = update s.conns d { s.conns d with pending := pending, eof := eof })
    (hacc : s'.accepted = s.accepted) : Change s a s' c := by
  by_cases hcd : c = d
  · subst hcd
    exact .arrived hd (by rw [hconns, update_self]) hacc
  · exact .kept (by simp [hconns, hcd]) (.inl hacc)

theorem Move.change (h : Sound s) (hm : Move s a s') : Change s a s' c := by
  cases hm with
  | arrive hd heof => exact .arrive hd rfl rfl
  | peerClose hd heof => exact .arrive hd rfl rfl
  | loop hold hnew => exact .kept rfl (.inl rfl)
  | stop hstop => exact .kept rfl (.inl rfl)
  | @timeout now i d hctrl hd =>
    by_cases hcd : c = d
    · subst hcd
      exact .timeout hd (by simp [State.closed]) rfl
    · exact .kept (by simp [State.closed, hcd]) (.inl rfl)
  | report hctrl hnodup hreg => exact .kept rfl (.inl rfl)
  | startAccept hctrl hconn => exact .kept rfl (.inl rfl)
  | @startRead t e evs d hctrl hconn hd hp => exact .on hd rfl hd.2 rfl rfl
  | startWrite hctrl hconn hd hp => exact .kept rfl (.inl rfl)
  | tableFull hctrl => exact .kept rfl (.inl rfl)
  | @opened i fd slot cfd addr pending eof t evs hctrl hslot hfree hfd haddr =>
    by_cases hc : c = s.accepted
    · refine .opened hc ?_ (by rw [hctrl]; rfl)
      subst hc
      constructor <;> simp [State.view, State.opened, setEventNode, Conn.readable]
    · exact .kept (by simp [State.opened, hc]) (.inr ⟨hc, rfl⟩)
  | @read d n totalCnt evs hd hctrl hn hfits =>
    rw [doRead_eq (h.table.owns hd)]
    exact .on hd rfl hd.2 rfl rfl
  | readEagain hd hctrl hdry => exact .kept rfl (.inl rfl)
  | readEintr => exact .kept rfl (.inl rfl)
  | @endOfStream d totalCnt evs hd hctrl hdry =>
    by_cases hcd : c = d
    · subst hcd
      exact .endOfStream hd rfl hctrl hdry (by simp [State.closed]) rfl
    · exact .kept (by simp [State.closed, hcd]) (.inl rfl)
  | toWrite hd hctrl => exact .kept rfl (.inl rfl)
  | @write d cnt evs hd hctrl hcnt =>
    rw [doWrite_eq (h.table.owns hd)]
    exact .on hd rfl hd.2 rfl rfl
  | more hd hctrl => exact .kept rfl (.inl rfl)
  | toRead hd hctrl hlen => exact .kept rfl (.inl rfl)

/-- An open connection was open before, or has just been accepted. -/
theorem Move.live_or_fresh (h : Sound s) (hm : Move s a s') (hc' : s'.core.live c) :
    s.core.live c ∨ (s'.view c).Fresh := by
  obtain ⟨hlt, hopen⟩ : c < s'.accepted ∧ (s'.conns c).closed = none := hc'
  cases hm.change (c := c) h with
  | kept hconn hacc =>
    have hlt' : c < s.accepted := by omega
    exact .inl ⟨hlt', (congrArg Conn.closed hconn).symm.trans hopen⟩
  | arrived hlive _ _ => exact .inl hlive
  | moved hlive _ _ _ => exact .inl hlive
  | timeout hlive _ _ => exact .inl hlive
  | endOfStream hlive _ _ _ _ _ => exact .inl hlive
  | opened _ hfresh _ => exact .inr hfresh

/-- The process goes on only from a state where it did. -/
theorem Move.running (hm : Move s a s') (hrun : s'.ctrl.stopped = false) : s.ctrl.stopped = false := by
  cases hm with
  | arrive _ _ => exact hrun
  | peerClose _ _ => exact hrun
  | readEintr => exact hrun
  | loop hold _ => exact running_of_outside hold
  | stop hstop => exact absurd hstop (by simp [hrun])
  | timeout hctrl _ => rw [hctrl]; rfl
  | report hctrl _ _ => rw [hctrl]; rfl
  | startAccept hctrl _ => rw [hctrl]; rfl
  | startRead hctrl _ _ _ => rw [hctrl]; rfl
  | startWrite hctrl _ _ _ => rw [hctrl]; rfl
  | tableFull hctrl => rw [hctrl]; rfl
  | opened hctrl _ _ _ _ => rw [hctrl]; rfl
  | read _ hctrl _ _ => rw [hctrl]; rfl
  | readEagain _ hctrl _ => rw [hctrl]; rfl
  | endOfStream _ hctrl _ => rw [hctrl]; rfl
  | toWrite _ hctrl => rw [hctrl]; rfl
  | write _ hctrl _ => rw [hctrl]; rfl
  | more _ hctrl => rw [hctrl]; rfl
  | toRead _ hctrl _ => rw [hctrl]; rfl

/-- **An invariant of single connections**, in the states of a process that runs. -/
theorem view_inv {P : View → Prop} (hfresh : ∀ v : View, v.Fresh → P v) (hlife : ∀ v w, P v → Life v w → P w)
    (h : Steps.Reach Init step s) : s.ctrl.stopped = false → ∀ c, s.core.live c → P (s.view c) := by
  refine h.inv_reach (P := fun s => s.ctrl.stopped = false → ∀ c, s.core.live c → P (s.view c)) ?_ ?_
  · intro s hs _ c hc
    have hacc : s.core.accepted = 0 := hs.accepted
    have hlt := hc.1
    omega
  · intro s a s' hr hP hs hrun c hc'
    have hi := sound_reach hr
    have hm := hi.move hs
    rcases hm.live_or_fresh hi hc' with hc | hf
    · exact hlife _ _ (hP (hm.running hrun) c hc) (hm.life hi hrun hc hc')
    · exact hfresh _ hf

end SystemFunc.Reactor
