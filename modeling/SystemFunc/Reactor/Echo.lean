import SystemFunc.Reactor.Life

/-!
# What is written back

In every phase of a connection, what has been read is what has been written and the bytes the node still holds (`Echo`,
kept by every step of a life). So the bytes written are a prefix of those read, and nothing is lost by a node; what is
lost is the burst of a `DoReadLoop` that meets the end of the stream.

- `echo_order`: order and isolation of the echo, in every reachable state;
- `echoed_iff`: when everything that was sent has been written at the end of the stream.
-/

namespace SystemFunc.Reactor

open Buffer Function

variable {s s' : State} {a : Act} {c : Nat} {v w : View}

/-- The node is registered for what its callback waits for. -/
structure View.Mode (v : View) (f : Handler) (e : Events) : Prop where
  pfunc : v.node.pfunc = some f
  event : v.node.event = e
  reg : ∃ r, v.reg = some r ∧ r.events = e

/-- What has been read, in the phases of a connection: everything is written; `DoReadLoop` has a burst in `buf`; the
rest of the burst is written. -/
inductive Echo (v : View) : Prop
  | idle (hmode : v.Mode .doReadLoop .reading) (hdoing : v.doing = none) (hgot : v.conn.got = v.conn.out)
  | reading {totalCnt : Nat} (hmode : v.Mode .doReadLoop .reading)
      (hdoing : v.doing = some (.reading totalCnt) ∨ v.doing = some (.readDone totalCnt))
      (hgot : v.conn.got = v.conn.out ++ v.conn.burst) (hlen : v.conn.burst.length = totalCnt)
      (hbuf : slice v.node.buf 0 totalCnt = v.conn.burst)
  | writing (hmode : v.Mode .doWrite .writing)
      (hdoing : v.doing = none ∨ v.doing = some .writing ∨ v.doing = some .wrote)
      (hgot : v.conn.got = v.conn.out ++ slice v.node.buf v.node.wIndex v.node.bufLen)
      (hlen : v.node.wIndex + v.node.bufLen = v.conn.burst.length)
      (hbuf : slice v.node.buf 0 v.conn.burst.length = v.conn.burst)

theorem View.Fresh.echo (h : v.Fresh) : Echo v := by
  obtain ⟨hgot, hout, -, hpfunc, hevent, ⟨r, hr, hre, -⟩, hdoing⟩ := h
  exact .idle ⟨hpfunc, hevent, r, hr, hre⟩ hdoing (hgot.trans hout.symm)

theorem View.Mode.same {f : Handler} {e : Events} (h : v.Mode f e)
    (hnode : w.node.pfunc = v.node.pfunc ∧ w.node.event = v.node.event) (hreg : w.reg = v.reg) : w.Mode f e :=
  ⟨hnode.1.trans h.pfunc, hnode.2.trans h.event, hreg ▸ h.reg⟩

/-- A registration that is marked, or not. -/
theorem View.Mode.marked {f : Handler} {e : Events} (h : v.Mode f e) {g : Registration → Bool}
    (hnode : w.node = v.node) (hreg : w.reg = v.reg.map fun r => { r with mark := g r }) : w.Mode f e := by
  obtain ⟨hpf, hev, r, hr, hre⟩ := h
  exact ⟨hnode ▸ hpf, hnode ▸ hev, { r with mark := g r }, by simp [hreg, hr], hre⟩

/-- A node that has been modified. -/
theorem View.Mode.modified {f f' : Handler} {e : Events} (h : v.Mode f e) {node : EventNode}
    (hp : node.pfunc = some f') : (v.modified node).Mode f' node.event := by
  obtain ⟨-, -, r, hr, -⟩ := h
  exact ⟨hp, rfl, _, by simp only [View.modified, hr]; rfl, rfl⟩

/-- What has been read and written is not touched. -/
theorem Echo.marked (h : Echo v) {g : Registration → Bool}
    (hreg : w.reg = v.reg.map fun r => { r with mark := g r }) (hnode : w.node = v.node) (hdoing : w.doing = v.doing)
    (hconn : w.conn.got = v.conn.got ∧ w.conn.out = v.conn.out ∧ w.conn.burst = v.conn.burst) : Echo w := by
  obtain ⟨hgot', hout', hburst'⟩ := hconn
  cases h with
  | idle hmode hd hgot => exact .idle (hmode.marked hnode hreg) (hdoing.trans hd) (by rw [hgot', hout', hgot])
  | reading hmode hd hgot hlen hbuf =>
    exact .reading (hmode.marked hnode hreg) (by rwa [hdoing]) (by rw [hgot', hout', hburst', hgot])
      (by rw [hburst', hlen]) (by rw [hburst', hnode, hbuf])
  | writing hmode hd hgot hlen hbuf =>
    exact .writing (hmode.marked hnode hreg) (by rwa [hdoing]) (by rw [hgot', hout', hnode, hgot])
      (by rw [hburst', hnode, hlen]) (by rw [hburst', hnode, hbuf])

theorem Echo.out_le_got (h : Echo v) : v.conn.out <+: v.conn.got := by
  cases h with
  | idle _ _ hgot => exact hgot ▸ List.prefix_refl _
  | reading _ _ hgot _ _ => exact hgot ▸ List.prefix_append _ _
  | writing _ _ hgot _ _ => exact hgot ▸ List.prefix_append _ _

/-- **Every step of a connection keeps it.** -/
theorem Life.echo (h : Echo v) (hl : Life v w) : Echo w := by
  cases hl with
  | same => exact h
  | arrive _ => exact h.marked rfl rfl rfl ⟨rfl, rfl, rfl⟩
  | peerClose _ => exact h.marked rfl rfl rfl ⟨rfl, rfl, rfl⟩
  | report _ => exact h.marked rfl rfl rfl ⟨rfl, rfl, rfl⟩
  | startRead hdoing hp =>
    cases h with
    | idle hmode _ hgot => exact .reading (hmode.same ⟨rfl, rfl⟩ rfl) (.inl rfl) (by simpa using hgot) rfl slice_zero
    | reading _ hd _ _ _ => simp [hdoing] at hd
    | writing hmode _ _ _ _ => simp [hmode.pfunc] at hp
  | startWrite hdoing hp =>
    cases h with
    | idle hmode _ _ => simp [hmode.pfunc] at hp
    | reading hmode _ _ _ _ => simp [hmode.pfunc] at hp
    | writing hmode _ hgot hlen hbuf => exact .writing (hmode.same ⟨rfl, rfl⟩ rfl) (.inr (.inl rfl)) hgot hlen hbuf
  | @read n totalCnt hdoing hn =>
    cases h with
    | idle _ hd _ => simp [hd] at hdoing
    | writing _ hd _ _ _ => simp [hdoing] at hd
    | @reading tot hmode hd hgot hlen hbuf =>
      obtain rfl : tot = totalCnt := by simpa [hdoing, eq_comm] using hd
      have htake : (v.conn.pending.take n).length = n := List.length_take_of_le hn.2
      refine .reading (hmode.same ⟨rfl, rfl⟩ rfl) (.inl rfl) ?_ ?_ ?_
      · simp [hgot]
      · simp [hlen, htake]
      · have hstore := @slice_store _ v.node.buf 0 tot (v.conn.pending.take n)
        rwa [Nat.zero_add, htake, hbuf] at hstore
  | @readEagain totalCnt hdoing hdry =>
    cases h with
    | idle _ hd _ => simp [hd] at hdoing
    | writing _ hd _ _ _ => simp [hdoing] at hd
    | @reading tot hmode hd hgot hlen hbuf =>
      obtain rfl : tot = totalCnt := by simpa [hdoing, eq_comm] using hd
      exact .reading (hmode.same ⟨rfl, rfl⟩ rfl) (.inr rfl) hgot hlen hbuf
  | @toWrite totalCnt fd regArgs t hdoing =>
    cases h with
    | idle _ hd _ => simp [hd] at hdoing
    | writing _ hd _ _ _ => simp [hdoing] at hd
    | @reading tot hmode hd hgot hlen hbuf =>
      obtain rfl : tot = totalCnt := by simpa [hdoing, eq_comm] using hd
      refine .writing (hmode.modified rfl) (.inl rfl) ?_ ?_ ?_
      · simpa [View.modified, setEventNode, hbuf] using hgot
      · simp [View.modified, setEventNode, hlen]
      · simpa [View.modified, setEventNode, hlen] using hbuf
  | @write cnt hdoing hcnt =>
    cases h with
    | idle _ hd _ => simp [hd] at hdoing
    | reading _ hd _ _ _ => simp [hdoing] at hd
    | writing hmode hd hgot hlen hbuf =>
      refine .writing (hmode.same ⟨rfl, rfl⟩ rfl) (.inr (.inr rfl)) ?_ ?_ hbuf
      · obtain ⟨k, hk⟩ := Nat.exists_eq_add_of_le hcnt
        rw [hk, slice_add] at hgot
        simpa [hk] using hgot
      · simp only
        omega
  | more hdoing =>
    cases h with
    | idle _ hd _ => simp [hd] at hdoing
    | reading _ hd _ _ _ => simp [hdoing] at hd
    | writing hmode hd hgot hlen hbuf => exact .writing (hmode.same ⟨rfl, rfl⟩ rfl) (.inl rfl) hgot hlen hbuf
  | toRead hdoing hzero =>
    cases h with
    | idle _ hd _ => simp [hd] at hdoing
    | reading _ hd _ _ _ => simp [hdoing] at hd
    | writing hmode hd hgot hlen hbuf =>
      refine .idle (hmode.modified rfl) rfl ?_
      simpa [View.modified, hzero] using hgot

theorem echo_reach (h : Steps.Reach Init step s) (hrun : s.ctrl.stopped = false) (hc : s.core.live c) :
    Echo (s.view c) :=
  view_inv (fun _ hf => hf.echo) (fun _ _ he hl => hl.echo he) h hrun c hc

/-- The bytes written to a client are a prefix of those read from it, also after it is closed. -/
theorem out_le_got (h : Steps.Reach Init step s) : ∀ c < s.accepted, (s.conns c).out <+: (s.conns c).got := by
  refine h.inv_reach (P := fun s => ∀ c < s.accepted, (s.conns c).out <+: (s.conns c).got) ?_ ?_
  · intro s hs c hc
    rw [hs.accepted] at hc
    omega
  · intro s a s' hr hP hs c hc
    have hi := sound_reach hr
    cases (hi.move hs).change (c := c) hi with
    | kept hconn hacc => exact hconn ▸ hP c (by omega)
    | arrived hlive hconn _ => rw [hconn]; exact hP c hlive.1
    | moved hlive hopen hacc hrun => exact (echo_reach (hr.next hs) hrun ⟨hc, hopen⟩).out_le_got
    | timeout hlive hconn _ => rw [hconn]; exact hP c hlive.1
    | endOfStream hlive _ _ _ hconn _ => rw [hconn]; exact hP c hlive.1
    | opened _ hfresh _ =>
      have hout : (s'.conns c).out = [] := hfresh.out
      rw [hout]
      exact List.nil_prefix

/-- The node is in write mode: the unsent bytes of the burst are the `bufLen` bytes from `wIndex` on. -/
structure Unsent (node : EventNode) (k : Conn) : Prop where
  cursors : node.wIndex + node.bufLen = k.burst.length
  unsent : slice node.buf node.wIndex node.bufLen = k.burst.drop node.wIndex
  got : k.got = k.out ++ slice node.buf node.wIndex node.bufLen

/-- The bytes that a `DoReadLoop` has read, while it runs. -/
def Conn.inLoop (k : Conn) (doing : Option Doing) : List UInt8 :=
  match doing with
  | some (.reading _) => k.burst
  | some (.readDone _) => k.burst
  | _ => []

theorem Echo.unsent (h : Echo v) {r : Registration} (hr : v.reg = some r)
    (hw : v.node.pfunc = some .doWrite ∨ r.events.epollout = true) : Unsent v.node v.conn := by
  have hread : ¬v.Mode .doReadLoop .reading := by
    rintro ⟨hpf, -, r', hr', he⟩
    cases hr.symm.trans hr'
    rcases hw with hw | hw
    · simp [hpf] at hw
    · simp [he, Events.reading] at hw
  cases h with
  | idle hmode _ _ => exact absurd hmode hread
  | reading hmode _ _ _ _ => exact absurd hmode hread
  | writing hmode _ hgot hlen hbuf =>
    refine ⟨hlen, ?_, hgot⟩
    have hdrop := @slice_drop _ v.node.buf 0 v.conn.burst.length v.node.wIndex (by omega)
    rw [hbuf, Nat.zero_add] at hdrop
    rw [hdrop]
    congr 1
    omega

theorem Echo.got_eq (h : Echo v) {r : Registration} (hr : v.reg = some r) (hin : r.events.epollin = true) :
    v.conn.got = v.conn.out ++ v.conn.inLoop v.doing := by
  cases h with
  | idle _ hdoing hgot => simpa [hdoing, Conn.inLoop] using hgot
  | reading _ hdoing hgot _ _ =>
    rcases hdoing with hdoing | hdoing <;> simpa [hdoing, Conn.inLoop] using hgot
  | writing hmode _ _ _ _ =>
    obtain ⟨-, -, r', hr', he⟩ := hmode
    cases hr.symm.trans hr'
    simp [he, Events.writing] at hin

/-- **Order and isolation**: the bytes written to a client are a prefix of those read from it; and each node that is
used belongs to a connection, with the unsent bytes of its burst in write mode, and with everything written in read
mode but what its `DoReadLoop`, while it runs, has read. -/
theorem echo_order (h : Steps.Reach Init step s) :
    (∀ c < s.accepted, (s.conns c).out <+: (s.conns c).got) ∧
      (s.ctrl.stopped = false → ∀ i < EVENT_NODE_MAX, (s.nodes i).status = true →
        ∃ c r, Belongs s i c ∧ s.reg (s.nodes i).fd = some r ∧
          ((s.nodes i).pfunc = some .doWrite ∨ r.events.epollout = true → Unsent (s.nodes i) (s.conns c)) ∧
          (r.events.epollin = true → (s.conns c).got = (s.conns c).out ++ (s.conns c).inLoop (s.ctrl.doing i))) := by
  refine ⟨out_le_got h, fun hrun i hi hs => ?_⟩
  have hsound := sound_reach h
  obtain ⟨c, hc, rfl⟩ := hsound.owner hi hs
  have ho := hsound.table.owns hc
  obtain ⟨r, hr, -⟩ := ho.reg
  have hecho := echo_reach h hrun hc
  have hreg : s.reg (s.nodes (s.conns c).slot).fd = some r := by rw [ho.fd, hr]
  exact ⟨c, r, hsound.belongs hc, hreg, fun hw => hecho.unsent hr hw, fun hin => hecho.got_eq hr hin⟩

/-- The bytes of a `DoReadLoop` that runs are not written yet, and the node is registered for reading. -/
theorem read_not_written : ∃ s, Steps.Reach Init step s ∧ s.ctrl.stopped = false ∧
    ∃ r, s.fds (s.nodes 0).fd = some (.conn 0) ∧ s.reg (s.nodes 0).fd = some r ∧ r.ptr = 0 ∧ r.events.epollin = true ∧
      (s.conns 0).got = [104, 105] ∧ (s.conns 0).out = [] := by
  obtain ⟨t, u, -, ht, -, hu, ⟨hctrl, hgot, hout, hfd, hdesc, hreg⟩, -⟩ := acceptRun_runs
  have hr : Steps.Reach Init step u := Steps.Reach.run ⟨startState, acceptRun, startState_init, ht⟩ _ hu
  exact ⟨u, hr, by rw [hctrl]; rfl, _, by rw [hfd, hdesc], by rw [hfd, hreg], rfl, rfl, hgot, hout⟩

theorem echo_order_acceptRun : ∃ s, Steps.Reach Init step s ∧ ∃ c r, Belongs s 0 c ∧ s.reg (s.nodes 0).fd = some r ∧
    ((s.nodes 0).pfunc = some .doWrite ∨ r.events.epollout = true → Unsent (s.nodes 0) (s.conns c)) ∧
      (r.events.epollin = true → (s.conns c).got = (s.conns c).out ++ (s.conns c).inLoop (s.ctrl.doing 0)) := by
  obtain ⟨s, hs, hctrl, -, hstatus⟩ := acceptRun_reach
  exact ⟨s, hs, (echo_order hs).2 (by rw [hctrl]; rfl) 0 (by decide) hstatus⟩

/-! ## The end of the stream -/

/-- What the client has sent. -/
def Conn.sent (k : Conn) : List UInt8 := k.got ++ k.pending

/-- What a client has sent has been written back when it is closed at the end of the stream. -/
def Echoed (s : State) : Prop :=
  ∀ c < s.accepted, (s.conns c).closed = some .endOfStream → (s.conns c).out = (s.conns c).sent

/-- The end of the stream is the first thing that a `DoReadLoop` reads. -/
def EndsAlone (s : State) (a : Act) : Prop := a = .readZero → ∃ i fd evs, s.ctrl = .handler i fd (.reading 0) evs

/-- What a connection has that meets the end of the stream. -/
theorem sent_at_end (h : Steps.Reach Init step s) (hc : s.core.live c) {totalCnt : Nat} {evs : List Pending}
    (hctrl : s.ctrl = .handler (s.conns c).slot (s.conns c).fd (.reading totalCnt) evs)
    (hdry : (s.conns c).pending = []) :
    (s.conns c).sent = (s.conns c).out ++ (s.conns c).burst ∧ (s.conns c).burst.length = totalCnt := by
  have hdoing : (s.view c).doing = some (.reading totalCnt) := by simp [State.view, hctrl]
  cases echo_reach h (by rw [hctrl]; rfl) hc with
  | idle _ hd _ => simp [hdoing] at hd
  | writing _ hd _ _ _ => simp [hdoing] at hd
  | @reading tot _ hd hgot hlen _ =>
    obtain rfl : totalCnt = tot := by simpa [hdoing] using hd
    have hgot : (s.conns c).got = (s.conns c).out ++ (s.conns c).burst := hgot
    exact ⟨by rw [Conn.sent, hdry, List.append_nil, hgot], hlen⟩

/-- **Nothing is dropped at the end of the stream** in the runs in which no `DoReadLoop` meets it after it has read
something, and only in these. -/
theorem echoed_iff (hs : Init s) (as : List Act) :
    Steps.Along step Echoed s as ↔ Steps.Meets step EndsAlone s as := by
  refine Steps.along_iff_meets (I := Steps.Reach Init step) (fun s a t hr hst => hr.next hst) ?_ ?_ ⟨s, [], hs, rfl⟩ ?_
  · intro s a t hr hP hC hst c hc hclosed
    have hi := sound_reach hr
    cases (hi.move hst).change (c := c) hi with
    | kept hconn hacc =>
      rw [hconn] at hclosed ⊢
      exact hP c (by omega) hclosed
    | arrived hlive hconn _ =>
      have hopen : (s.conns c).closed = none := hlive.2
      simp [hconn, hopen] at hclosed
    | moved _ hopen _ _ => simp [hopen] at hclosed
    | timeout _ hconn _ => simp [hconn] at hclosed
    | endOfStream hlive hact hctrl hdry hconn _ =>
      obtain ⟨i, fd, evs', hzero⟩ := hC hact
      obtain ⟨hsent, hlen⟩ := sent_at_end hr hlive hctrl hdry.1
      cases hctrl.symm.trans hzero
      have hsent' : (t.conns c).sent = (s.conns c).sent := by rw [hconn]; rfl
      rw [hsent', hsent, List.length_eq_zero_iff.1 hlen, hconn, List.append_nil]
    | opened _ hfresh _ =>
      have hopen : (t.conns c).closed = none := hfresh.closed
      simp [hopen] at hclosed
  · rintro s a t hr - hPt hst rfl
    obtain ⟨c, totalCnt, evs, hc, hctrl, hdry, rfl⟩ := (sound_reach hr).readZero hst
    obtain ⟨hsent, hlen⟩ := sent_at_end hr hc hctrl hdry.1
    have hconn : ({ s with ctrl := .batch evs }.closed c .endOfStream).conns c =
        { s.conns c with frees := (s.conns c).frees + 1, closed := some .endOfStream } := by simp [State.closed]
    have hout := hPt c hc.1 (by rw [hconn])
    rw [hconn] at hout
    -- what was read in this call is not in `out`
    have hburst : (s.conns c).burst = [] := by
      have hout' : (s.conns c).out = (s.conns c).sent := hout
      simpa [hsent] using hout'
    rw [hburst, List.length_nil] at hlen
    exact ⟨_, _, evs, hlen ▸ hctrl⟩
  · intro c hc
    rw [hs.accepted] at hc
    omega

/-- A run that reads two bytes and the end of the stream in one call. -/
theorem echoed_readRun : Steps.Along step Echoed startState (acceptRun ++ [.dispatch 0, .read 2, .readZero]) ↔
    Steps.Meets step EndsAlone startState (acceptRun ++ [.dispatch 0, .read 2, .readZero]) :=
  echoed_iff startState_init _

/-- Two bytes and the end of the stream arrive at once: the bytes are read, and never written. -/
theorem burst_dropped : ∃ s, Steps.Reach Init step s ∧ s.accepted = 1 ∧ (s.conns 0).closed = some .endOfStream ∧
    (s.conns 0).got = [104, 105] ∧ (s.conns 0).out = [] := by
  obtain ⟨t, u, v, ht, -, hu, -, hv, hend⟩ := acceptRun_runs
  have hr : Steps.Reach Init step u := Steps.Reach.run ⟨startState, acceptRun, startState_init, ht⟩ _ hu
  exact ⟨v, hr.next hv, hend⟩

end SystemFunc.Reactor
