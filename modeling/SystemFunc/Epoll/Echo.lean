import SystemFunc.Epoll.Table

/-!
# The echo of `epoll_normal.c` in every state

`Placed` says that the events that are left are for registered nodes, no two for the same.

- `inv_step`: each step keeps it, and the table;
- `echoes`: no freed node is used, nothing is leaked, and a connection is closed when all its bytes have been sent back.
-/

namespace SystemFunc.Epoll

open Buffer Entries

variable {lfd : Nat} {s t : State} {ptr fd k : Nat} {n m : Node} {c d : Conn} {r : Registration} {e : Event}
  {evs : List Event}

/-! ## The events -/

/-- The event is for a node that is registered, with the bits that it has been registered for. -/
def Entry (s : State) (e : Event) : Prop :=
  ∃ fd r, s.reg fd = some r ∧ r.ptr = e.ptr ∧ (e.epollin = true → r.epollout = false) ∧
    (e.epollout = true → r.epollout = true)

/-- Such events, no two for the same node. -/
structure Queued (s : State) (evs : List Event) : Prop where
  entry : ∀ e ∈ evs, Entry s e
  nodup : (evs.map Event.ptr).Nodup

/-- The events that are left; the node of an event may be gone when its bits have been looked at. -/
inductive Placed (s : State) : Ctrl → Prop
  | wait : Placed s .wait
  | batch {evs : List Event} (hevs : Queued s evs) : Placed s (.batch evs)
  | accepting {evs : List Event} (hevs : Queued s evs) : Placed s (.accepting evs)
  | conn {e : Event} {evs : List Event} (hevs : Queued s evs) (hnot : e.ptr ∉ evs.map Event.ptr)
      (hhead : e.epollin = true ∨ e.epollout = true → Entry s e) : Placed s (.conn e evs)
  | exited (headStr : String) : Placed s (.exited headStr)

structure Inv (lfd : Nat) (s : State) : Prop where
  table : Table lfd s
  placed : Placed s s.ctrl

/-- What a step does to the registration of one node does not change the events for others. -/
theorem Queued.keep (h : Queued s evs)
    (hreg : ∀ fd r, s.reg fd = some r → r.ptr ∈ evs.map Event.ptr → t.reg fd = some r) : Queued t evs := by
  refine ⟨fun e he => ?_, h.nodup⟩
  obtain ⟨fd, r, hr, hp, hbits⟩ := h.entry e he
  exact ⟨fd, r, hreg fd r hr (hp ▸ List.mem_map_of_mem he), hp, hbits⟩

theorem Placed.keep {ctrl : Ctrl} (h : Placed s ctrl) (hreg : t.reg = s.reg) : Placed t ctrl := by
  have hentry : ∀ {e}, Entry s e → Entry t e := fun he => by rwa [Entry, hreg]
  have hevs : ∀ {evs}, Queued s evs → Queued t evs := fun he => ⟨fun e hm => hentry (he.entry e hm), he.nodup⟩
  cases h with
  | wait => exact .wait
  | batch h => exact .batch (hevs h)
  | accepting h => exact .accepting (hevs h)
  | conn h hnot hhead => exact .conn (hevs h) hnot fun hb => hentry (hhead hb)
  | exited headStr => exact .exited headStr

/-! ## The steps -/

/-- The node of an event, with everything that belongs to it. -/
structure Found (s : State) (e : Event) (n : Node) (k : Nat) (c : Conn) (r : Registration) : Prop where
  heap : s.heap e.ptr = some n
  fds : s.fds n.fd = some (.conn k)
  conns : s.conns[k]? = some c
  reg : s.reg n.fd = some r
  ptr : r.ptr = e.ptr
  closed : c.closed = false
  buffered : Buffered c n r.epollout
  epollin : e.epollin = true → r.epollout = false
  epollout : e.epollout = true → r.epollout = true

theorem Points.found (hp : Points s e n k c) (h : Table lfd s) (he : Entry s e) : ∃ r, Found s e n k c r := by
  obtain ⟨hn, hk, hc⟩ := hp
  obtain ⟨fd, r, hr, hptr, hin, hout⟩ := he
  obtain ⟨n', hn', rfl⟩ := h.reg fd r hr
  rw [hptr] at hn'
  cases hn.symm.trans hn'
  obtain ⟨hclosed, r', hr', -, hbuf⟩ := h.get hn hk hc
  cases hr.symm.trans hr'
  exact ⟨r, hn, hk, hc, hr, hptr, hclosed, hbuf, hin, hout⟩

theorem Entry.not_freed (he : Entry s e) (h : Table lfd s) : s.heap e.ptr ≠ none := by
  obtain ⟨fd, r, hr, hptr, -⟩ := he
  obtain ⟨n, hn, -⟩ := h.reg fd r hr
  rw [← hptr, hn]
  exact nofun

theorem not_bits {b b' : Bool} {P : Prop} (hb : b = false) (hb' : b' = false) (hor : b = true ∨ b' = true) : P := by
  rw [hb, hb'] at hor
  cases hor.elim id id

namespace Found

variable (hf : Found s e n k c r)
include hf

/-- The events for other nodes are still there. -/
theorem queued (hevs : Queued s evs) (hnot : e.ptr ∉ evs.map Event.ptr)
    (hreg : ∀ fd, fd ≠ n.fd → t.reg fd = s.reg fd) : Queued t evs := by
  refine hevs.keep fun fd r' hr' hmem => (hreg fd ?_).trans hr'
  rintro rfl
  rw [hf.reg] at hr'
  cases hr'
  exact hnot (hf.ptr ▸ hmem)

/-- A node is registered for one of the bits. -/
theorem not_epollout (hin : e.epollin = true) : e.epollout = false := by
  by_contra hout
  have htrue := hf.epollout (Bool.of_not_eq_false hout)
  rw [hf.epollin hin] at htrue
  cases htrue

theorem read {cnt : Nat} (h : Table lfd s) (hin : e.epollin = true) (hevs : Queued s evs)
    (hnot : e.ptr ∉ evs.map Event.ptr) (hcnt : 1 ≤ cnt ∧ cnt ≤ BUF_SIZE ∧ c.got + cnt ≤ c.stream.length) :
    Inv lfd ({ s with ctrl := .conn { e with epollin := false } evs }.doRead e.ptr n k c cnt) := by
  have hbuf := hf.buffered
  rw [hf.epollin hin] at hbuf
  have htable := h.serve (m := { n with
    buf := store n.buf 0 ((c.stream.drop c.got).take cnt)
    bufLen := cnt
    wIndex := 0 }) hf.heap hf.fds hf.conns rfl (show ({ c with got := c.got + cnt } : Conn).closed = false from hf.closed)
    (hbuf.read hcnt)
  have hout := hf.not_epollout hin
  have heq : ({ s with ctrl := .conn { e with epollin := false } evs } : State).doRead e.ptr n k c cnt = { s with
      heap := s.heap.add e.ptr { n with
        buf := store n.buf 0 ((c.stream.drop c.got).take cnt)
        bufLen := cnt
        wIndex := 0 }
      reg := s.reg.add n.fd { epollout := true, ptr := e.ptr }
      conns := s.conns.set k { c with got := c.got + cnt }
      ctrl := .conn { e with epollin := false } evs } := by
    simp only [State.doRead, State.setNode, State.eventMod, hf.reg]
  rw [heq]
  exact ⟨htable.with_ctrl _, .conn (hf.queued hevs hnot fun fd hfd => add_of_ne hfd _) hnot (not_bits rfl hout)⟩

theorem readZero (h : Table lfd s) (hin : e.epollin = true) (hevs : Queued s evs) (hnot : e.ptr ∉ evs.map Event.ptr)
    (hend : c.got = c.stream.length ∧ c.eof = true) :
    Inv lfd ({ s with ctrl := .conn { e with epollin := false } evs }.doReadZero e.ptr n k c) := by
  have hbuf := hf.buffered
  rw [hf.epollin hin] at hbuf
  have hempty : n.bufLen = 0 := by
    by_contra hne
    exact absurd (hbuf.mask.2 (Nat.pos_of_ne_zero hne)) nofun
  have hout : c.out = c.stream := by
    have hsplit := hbuf.split
    rw [hempty, slice_zero, List.append_nil, hend.1, List.take_length] at hsplit
    exact hsplit.symm
  have htable := h.close hf.heap hf.fds hf.conns hout hend.2
  have heq : ({ s with ctrl := .conn { e with epollin := false } evs } : State).doReadZero e.ptr n k c = { s with
      heap := s.heap.remove e.ptr
      reg := s.reg.remove n.fd
      fds := s.fds.remove n.fd
      conns := s.conns.set k { c with closed := true }
      ctrl := .conn { e with epollin := false } evs } := by
    simp only [State.doReadZero, State.eventDel, hf.reg]
  rw [heq]
  exact ⟨htable.with_ctrl _, .conn (hf.queued hevs hnot fun fd hfd => remove_of_ne hfd) hnot
    (not_bits rfl (hf.not_epollout hin))⟩

theorem write {cnt : Nat} (h : Table lfd s) (hin : e.epollin = false) (hout : e.epollout = true) (hevs : Queued s evs)
    (hnot : e.ptr ∉ evs.map Event.ptr) (hcnt : cnt ≤ min n.bufLen MAX_WRITE_BYTE) :
    Inv lfd ({ s with ctrl := .conn { e with epollout := false } evs }.doWrite e.ptr n k c cnt) := by
  have hbuf := hf.buffered
  rw [hf.epollout hout] at hbuf
  have htable := h.serve (m := { n with bufLen := n.bufLen - cnt, wIndex := n.wIndex + cnt }) hf.heap hf.fds hf.conns rfl
    (show ({ c with out := c.out ++ slice n.buf n.wIndex cnt } : Conn).closed = false from hf.closed)
    (hbuf.write (Nat.le_trans hcnt (Nat.min_le_left ..)))
  have heq : ({ s with ctrl := .conn { e with epollout := false } evs } : State).doWrite e.ptr n k c cnt = { s with
      heap := s.heap.add e.ptr { n with bufLen := n.bufLen - cnt, wIndex := n.wIndex + cnt }
      reg := s.reg.add n.fd { epollout := decide (0 < n.bufLen - cnt), ptr := e.ptr }
      conns := s.conns.set k { c with out := c.out ++ slice n.buf n.wIndex cnt }
      ctrl := .conn { e with epollout := false } evs } := by
    by_cases hleft : n.bufLen - cnt ≤ 0
    · have hdec : decide (0 < n.bufLen - cnt) = false := decide_eq_false (Nat.not_lt.2 hleft)
      simp only [State.doWrite, if_pos hleft, State.setNode, State.eventMod, hf.reg, hdec]
    · have hdec : decide (0 < n.bufLen - cnt) = true := decide_eq_true (Nat.not_le.1 hleft)
      have hreg : s.reg n.fd = some { epollout := true, ptr := e.ptr } := by
        rw [hf.reg, ← hf.epollout hout, ← hf.ptr]
      simp only [State.doWrite, if_neg hleft, State.setNode, hdec, add_of_eq hreg]
  rw [heq]
  exact ⟨htable.with_ctrl _, .conn (hf.queued hevs hnot fun fd hfd => add_of_ne hfd _) hnot (not_bits hin rfl)⟩

end Found

/-- Something arrives at a connection. -/
theorem onConn_arrive {f : Conn → Option Conn} (h : Inv lfd s) (hs : s.onConn k f = some t)
    (hf : ∀ c d, f c = some d → ∃ bytes eof, d = { c with stream := c.stream ++ bytes, eof := eof }) : Inv lfd t := by
  obtain ⟨c, hc, ht⟩ := Option.bind_eq_some_iff.1 hs
  obtain ⟨hclosed, hmap⟩ := Option.ite_none_left_eq_some.1 ht
  obtain ⟨d, hd, rfl⟩ := Option.map_eq_some_iff.1 hmap
  obtain ⟨bytes, eof, rfl⟩ := hf c d hd
  have hopen : c.closed = false := Bool.eq_false_iff.2 hclosed
  obtain ⟨fd, hfd⟩ := h.table.live k c hc hopen
  obtain ⟨r, hr⟩ := Option.isSome_iff_exists.1 (h.table.open_reg fd k hfd)
  obtain ⟨n, hn, rfl⟩ := h.table.reg fd r hr
  obtain ⟨-, r', hr', -, hbuf⟩ := h.table.get hn hfd hc
  cases hr.symm.trans hr'
  have htable := h.table.serve hn hfd hc rfl (d := { c with stream := c.stream ++ bytes, eof := eof }) hopen
    (hbuf.arrive bytes eof)
  rw [add_of_eq hn, add_of_eq hr] at htable
  exact ⟨htable, h.placed.keep rfl⟩

/-- What `epoll_wait` answers. -/
theorem queued_report {ready : List Ready} (h : Table lfd s) (hnodup : (ready.map Ready.fd).Nodup)
    (hall : ready.all s.mayReport = true) : Queued s (ready.filterMap s.event) := by
  induction ready with
  | nil => exact ⟨nofun, List.nodup_nil⟩
  | cons x ready ih =>
    rw [List.all_cons, Bool.and_eq_true] at hall
    rw [List.map_cons, List.nodup_cons] at hnodup
    have hrest := ih hnodup.2 hall.2
    have hx := hall.1
    unfold State.mayReport at hx
    cases hr : s.reg x.fd with
    | none =>
      rw [hr] at hx
      cases hx
    | some r =>
      rw [hr] at hx
      simp only [Bool.and_eq_true, Bool.or_eq_true, Bool.not_eq_true'] at hx
      have hevent : s.event x = some { ptr := r.ptr, epollin := x.epollin, epollout := x.epollout } := by
        rw [State.event, hr]
        rfl
      rw [List.filterMap_cons_some hevent]
      refine ⟨List.forall_mem_cons.2 ⟨⟨x.fd, r, hr, rfl, fun hin => ?_, fun hout => ?_⟩, hrest.entry⟩, ?_⟩
      · obtain hno | hyes := hx.1
        · exact absurd hin (Bool.eq_false_iff.1 hno)
        · exact hyes.1
      · obtain hno | hyes := hx.2
        · exact absurd hout (Bool.eq_false_iff.1 hno)
        · exact hyes
      · rw [List.map_cons, List.nodup_cons]
        refine ⟨fun hmem => ?_, hrest.nodup⟩
        obtain ⟨e, he, hptr⟩ := List.mem_map.1 hmem
        obtain ⟨y, hy, hey⟩ := List.mem_filterMap.1 he
        obtain ⟨r', hr', rfl⟩ := Option.map_eq_some_iff.1 hey
        have hfd := h.reg_inj hr hr' hptr.symm
        exact hnodup.1 (List.mem_map.2 ⟨y, hy, hfd.symm⟩)

theorem Inv.accept {cfd addr : Nat} (h : Inv lfd s) (hevs : Queued s evs) (hcfd : s.fds cfd = none)
    (haddr : s.heap addr = none) : Inv lfd ({ s with ctrl := .batch evs }.doAccept cfd addr) := by
  obtain ⟨hreg, htable⟩ := h.table.open_conn hcfd haddr
  have heq : ({ s with ctrl := .batch evs } : State).doAccept cfd addr = { s with
      heap := s.heap.add addr (createNode cfd)
      reg := s.reg.add cfd { epollout := false, ptr := addr }
      fds := s.fds.add cfd (.conn s.conns.length)
      conns := s.conns ++ [{ stream := [], got := 0, out := [], eof := false, closed := false }]
      ctrl := .batch evs } := by
    simp only [State.doAccept, State.eventAdd, State.setNode, createNode, hreg]
  rw [heq]
  exact ⟨htable.with_ctrl _, .batch (hevs.keep fun fd r hr _ => add_eq_some.2 (.inr ⟨ne_of_none hreg hr, hr⟩))⟩

theorem Inv.next (h : Inv lfd s) (hevs : Queued s (e :: evs)) :
    Inv lfd { s with ctrl := if n.fd = lfd then .accepting evs else .conn e evs } := by
  have hnodup := hevs.nodup
  rw [List.map_cons, List.nodup_cons] at hnodup
  have hrest : Queued s evs := ⟨fun e' he' => hevs.entry e' (List.mem_cons_of_mem _ he'), hnodup.2⟩
  refine ⟨h.table.with_ctrl _, ?_⟩
  dsimp only
  split
  · exact (Placed.accepting hrest).keep rfl
  · exact (Placed.conn hrest hnodup.1 fun _ => hevs.entry e List.mem_cons_self).keep rfl

theorem inv_step {a : Act} (h : Inv lfd s) (hs : step lfd s a = some t) : Inv lfd t := by
  have hplaced := h.placed
  cases step_moves hs with
  | arrive hs hf => exact onConn_arrive h hs hf
  | report hnodup hall =>
    have hqueued := queued_report h.table hnodup hall
    exact ⟨h.table.with_ctrl _, (Placed.batch hqueued).keep rfl⟩
  | again => exact h
  | wait => exact ⟨h.table.with_ctrl _, .wait⟩
  | next hctrl hn =>
    rw [hctrl] at hplaced
    cases hplaced with
    | batch hevs => exact h.next hevs
  | accept hctrl hcfd haddr =>
    rw [hctrl] at hplaced
    cases hplaced with
    | accepting hevs => exact h.accept hevs hcfd haddr
  | read hctrl hin hp hcnt =>
    rw [hctrl] at hplaced
    cases hplaced with
    | conn hevs hnot hhead =>
      obtain ⟨r, hf⟩ := hp.found h.table (hhead (.inl hin))
      exact hf.read h.table hin hevs hnot hcnt
  | readZero hctrl hin hp hend =>
    rw [hctrl] at hplaced
    cases hplaced with
    | conn hevs hnot hhead =>
      obtain ⟨r, hf⟩ := hp.found h.table (hhead (.inl hin))
      exact hf.readZero h.table hin hevs hnot hend
  | write hctrl hin hout hp hcnt =>
    rw [hctrl] at hplaced
    cases hplaced with
    | conn hevs hnot hhead =>
      obtain ⟨r, hf⟩ := hp.found h.table (hhead (.inr hout))
      exact hf.write h.table hin hout hevs hnot hcnt
  | pass hctrl =>
    rw [hctrl] at hplaced
    cases hplaced with
    | conn hevs => exact ⟨h.table.with_ctrl _, (Placed.batch hevs).keep rfl⟩
  | freed hn hctrl =>
    -- Its event is for a registered node.
    obtain hctrl | ⟨hctrl, hbits⟩ := hctrl <;> rw [hctrl] at hplaced
    · cases hplaced with
      | batch hevs => exact absurd hn ((hevs.entry _ List.mem_cons_self).not_freed h.table)
    · cases hplaced with
      | conn _ _ hhead => exact absurd hn ((hhead hbits).not_freed h.table)
  | fail headStr => exact ⟨h.table.with_ctrl _, .exited headStr⟩

theorem inv_init (h : Init lfd s) : Inv lfd s := by
  obtain ⟨ptr, hreg, hheap, hfree⟩ := h.node
  have honly : ∀ {fd r}, s.reg fd = some r → fd = lfd ∧ r = { epollout := false, ptr := ptr } := by
    intro fd r hr
    by_cases hfd : fd = lfd
    · subst hfd
      exact ⟨rfl, (Option.some.inj (hreg.symm.trans hr)).symm⟩
    · rw [h.reg fd hfd] at hr
      cases hr
  have hno : ∀ {k : Nat} {c : Conn}, s.conns[k]? ≠ some c := by
    intro k c hc
    rw [h.conns] at hc
    cases hc
  refine ⟨⟨h.listen, fun r hr => ?_, fun p n hn => ?_, fun fd r hr => ?_, fun fd r n hr _ hfd => absurd (honly hr).1 hfd,
    fun fd k hk => absurd hk (h.fds fd k), fun fd _ k hk _ => absurd hk (h.fds fd k), fun k c hc => absurd hc hno,
    fun k c hc => absurd hc hno⟩, h.ctrl ▸ .wait⟩
  · rw [(honly hr).2]
  · by_cases hp : p = ptr
    · rw [hp, hheap] at hn
      cases hn
      exact ⟨_, hreg, hp.symm⟩
    · rw [hfree p hp] at hn
      cases hn
  · obtain ⟨rfl, rfl⟩ := honly hr
    exact ⟨_, hheap, rfl⟩

/-! ## The server -/

structure Echoes (lfd : Nat) (s : State) : Prop where
  defined : s.ctrl ≠ .undefined
  blocks : ∀ ptr, (s.heap ptr).isSome ↔ ∃ fd r, s.reg fd = some r ∧ r.ptr = ptr
  descriptors : ∀ (k : Nat) (c : Conn), s.conns[k]? = some c → (c.closed = false ↔ ∃ fd, s.fds fd = some (.conn k))
  sent : ∀ (k : Nat) (c : Conn), s.conns[k]? = some c → c.out <+: c.stream
  closed : ∀ (k : Nat) (c : Conn), s.conns[k]? = some c → c.closed = true → c.out = c.stream ∧ c.eof = true
  fits : ∀ ptr n k, s.heap ptr = some n → s.fds n.fd = some (.conn k) → n.wIndex + n.bufLen ≤ BUF_SIZE
  level : s.ctrl = .wait → ∀ (fd k : Nat) (c : Conn), s.fds fd = some (.conn k) → s.conns[k]? = some c →
    c.out ≠ c.stream ∨ c.eof = true → ∃ x : Ready, x.fd = fd ∧ (x.epollin = true ∨ x.epollout = true) ∧
      (step lfd s (.epollWait [x])).isSome

namespace Table

variable (h : Table lfd s)
include h

theorem found (hfd : s.fds fd = some (.conn k)) (hc : s.conns[k]? = some c) :
    ∃ n r, s.heap r.ptr = some n ∧ n.fd = fd ∧ s.reg fd = some r ∧ Buffered c n r.epollout := by
  obtain ⟨r, hr⟩ := Option.isSome_iff_exists.1 (h.open_reg fd k hfd)
  obtain ⟨n, hn, rfl⟩ := h.reg fd r hr
  obtain ⟨-, r', hr', -, hbuf⟩ := h.get hn hfd hc
  cases hr.symm.trans hr'
  exact ⟨n, r, hn, rfl, hr, hbuf⟩

/-- A connection at which there is something to do can be reported. -/
theorem level (hctrl : s.ctrl = .wait) (hfd : s.fds fd = some (.conn k)) (hc : s.conns[k]? = some c)
    (htodo : c.out ≠ c.stream ∨ c.eof = true) : ∃ x : Ready, x.fd = fd ∧ (x.epollin = true ∨ x.epollout = true) ∧
      (step lfd s (.epollWait [x])).isSome := by
  obtain ⟨n, r, hn, -, hr, hbuf⟩ := h.found hfd hc
  cases hout : r.epollout with
  | true =>
    refine ⟨⟨fd, false, true⟩, rfl, .inr rfl, ?_⟩
    simp [step, hctrl, State.mayReport, hr, hout, EVENTS_MAX]
  | false =>
    have hreadable : c.readable = true := by
      rw [Conn.readable, Bool.or_eq_true, decide_eq_true_eq]
      refine htodo.imp (fun hne => ?_) id
      have hempty : n.bufLen = 0 := by
        by_contra hpos
        have htrue := hbuf.mask.2 (Nat.pos_of_ne_zero hpos)
        rw [hout] at htrue
        cases htrue
      have hsplit := hbuf.split
      rw [hempty, slice_zero, List.append_nil] at hsplit
      refine Nat.lt_of_le_of_ne hbuf.got_le fun hall => hne ?_
      rw [← hsplit, hall, List.take_length]
    refine ⟨⟨fd, true, false⟩, rfl, .inl rfl, ?_⟩
    simp [step, hctrl, State.mayReport, hr, hout, hfd, hc, hreadable, EVENTS_MAX]

end Table

/-- **The server.** No event leads to a node that has been freed; the blocks are the nodes of the registrations, and the
descriptors those of the open connections; each client is sent its own bytes back, in order, and its connection is closed
only when all of them have been sent; and `epoll_wait` may report every connection at which there is something to do. -/
theorem echoes (hr : Steps.Reach (Init lfd) (step lfd) s) : Echoes lfd s := by
  have h := hr.inv (P := Inv lfd) (fun _ => inv_init) fun _ _ _ => inv_step
  have ht := h.table
  refine ⟨fun hu => ?_, fun ptr => ⟨fun hsome => ?_, fun ⟨fd, r, hr, hp⟩ => ?_⟩, fun k c hc => ⟨ht.live k c hc, ?_⟩,
    fun k c hc => ?_, ht.done, fun ptr n k hn hk => ?_, fun hctrl fd k c hfd hc => ht.level hctrl hfd hc⟩
  · have hplaced := h.placed
    rw [hu] at hplaced
    cases hplaced
  · obtain ⟨n, hn⟩ := Option.isSome_iff_exists.1 hsome
    obtain ⟨r, hr, hp⟩ := ht.block ptr n hn
    exact ⟨n.fd, r, hr, hp⟩
  · obtain ⟨n, hn, -⟩ := ht.reg fd r hr
    rw [← hp, hn]
    rfl
  · rintro ⟨fd, hfd⟩
    obtain ⟨n, r, hn, rfl, -, -⟩ := ht.found hfd hc
    exact (ht.get hn hfd hc).1
  · cases hcl : c.closed with
    | true => exact (ht.done k c hc hcl).1 ▸ List.prefix_refl _
    | false =>
      obtain ⟨fd, hfd⟩ := ht.live k c hc hcl
      obtain ⟨n, r, -, -, -, hbuf⟩ := ht.found hfd hc
      have hpre : c.out <+: c.stream.take c.got := ⟨_, hbuf.split.symm⟩
      exact hpre.trans (List.take_prefix ..)
  · obtain ⟨r, hr, rfl⟩ := ht.block ptr n hn
    obtain ⟨k', c, hk', hc, -, hbuf⟩ := ht.conn n.fd r n hr hn (ht.ne_lfd hk)
    exact hbuf.fits

def listening : State where
  heap := empty.add 0 (createNode 3)
  fds := empty.add 3 .listen
  reg := empty.add 3 { epollout := false, ptr := 0 }
  conns := []
  ctrl := .wait

theorem listening_init : Init 3 listening where
  ctrl := rfl
  listen := rfl
  node := ⟨0, rfl, rfl, fun _ hp => add_of_ne hp _⟩
  reg := fun _ hfd => add_of_ne hfd _
  fds := by
    intro fd k hk
    obtain ⟨-, hd⟩ | ⟨-, hd⟩ := add_eq_some.1 hk <;> cases hd
  conns := rfl

/-- One client, whose bytes are written in two parts, and who has gone when they are. -/
def oneClient : List Act :=
  [.epollWait [⟨3, true, false⟩], .next, .accept 5 7, .next, .arrive 0 [104, 105], .peerClose 0,
    .epollWait [⟨5, true, false⟩], .next, .read 2, .pass, .next, .epollWait [⟨5, false, true⟩], .next, .write 1, .pass,
    .next, .epollWait [⟨5, false, true⟩], .next, .write 1, .pass, .next, .epollWait [⟨5, true, false⟩], .next, .readZero]

theorem echoes_oneClient : ∃ s, Steps.run (step 3) listening oneClient = some s ∧
    s.conns = [⟨[104, 105], 2, [104, 105], true, true⟩] ∧ Echoes 3 s :=
  ⟨_, rfl, rfl, echoes ⟨listening, oneClient, listening_init, rfl⟩⟩

end SystemFunc.Epoll
