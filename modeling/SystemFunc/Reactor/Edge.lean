import SystemFunc.Reactor.Echo

/-!
# No edge is missed

While a node is registered for reading and something is pending, its registration is marked ready, its event waits in
the batch, or its `DoReadLoop` has not seen `EAGAIN` yet (`Edge`). An edge that comes between `EAGAIN` and the switch to
writing is not lost, as the registration still has `EPOLLIN`; one that comes while the node writes is found by the
`EPOLL_CTL_MOD` back to reading.

- `no_stuck`: a node that waits for an edge has nothing pending.
-/

namespace SystemFunc.Reactor

variable {s : State} {v w : View}

/-- What is pending at a node registered for reading will be read. -/
def Edge (v : View) : Prop :=
  ∀ r, v.reg = some r → r.events.epollin = true → v.conn.readable = true →
    r.mark = true ∨ v.waiting = true ∨ ∃ totalCnt, v.doing = some (.reading totalCnt)

theorem View.Fresh.edge (h : v.Fresh) : Edge v := by
  intro r hr _ hreadable
  obtain ⟨r', hr', -, hmark⟩ := h.reg
  cases hr.symm.trans hr'
  exact .inl (hmark.trans hreadable)

/-- What arrives while the node is registered for reading marks it. -/
theorem Edge.arrived {k : Conn} : Edge (v.arrived k) := by
  intro r hr hin _
  obtain ⟨r', -, rfl⟩ := Option.map_eq_some_iff.1 hr
  exact .inl (by simp [show r'.events.epollin = true from hin])

/-- A registration that is modified is marked when something is pending. -/
theorem Edge.modified {node : EventNode} : Edge (v.modified node) := by
  intro r hr hin hreadable
  obtain ⟨r', -, rfl⟩ := Option.map_eq_some_iff.1 hr
  have hreadable' : v.conn.readable = true := hreadable
  exact .inl (by simp [show node.event.epollin = true from hin, hreadable'])

/-- **Every step of a connection keeps it.** -/
theorem Life.edge (he : Echo v) (h : Edge v) (hl : Life v w) : Edge w := by
  cases hl with
  | same => exact h
  | arrive _ => exact .arrived
  | peerClose _ => exact .arrived
  | report _ => exact fun _ _ _ _ => .inr (.inl rfl)
  | startRead _ _ => exact fun _ _ _ _ => .inr (.inr ⟨0, rfl⟩)
  | startWrite hdoing hp =>
    intro r hr hin _
    cases he with
    | idle hmode _ _ => simp [hmode.pfunc] at hp
    | reading hmode _ _ _ _ => simp [hmode.pfunc] at hp
    | writing hmode _ _ _ _ =>
      obtain ⟨r', hr', hev⟩ := hmode.reg
      cases hr.symm.trans hr'
      simp [hev, Events.writing] at hin
  | read _ _ => exact fun _ _ _ _ => .inr (.inr ⟨_, rfl⟩)
  | readEagain _ hdry =>
    intro r _ _ hreadable
    simp [Conn.readable, hdry] at hreadable
  | toWrite _ => exact .modified
  | write hdoing _ =>
    intro r hr hin hreadable
    have hv := h r hr hin hreadable
    simpa [hdoing] using hv
  | more hdoing =>
    intro r hr hin hreadable
    have hv := h r hr hin hreadable
    simpa [hdoing] using hv
  | toRead _ _ => exact .modified

/-- **No connection is stuck**: a node that is registered for reading, is not marked ready, has no event in the batch
and is not being handled has nothing pending. -/
theorem no_stuck (h : Steps.Reach Init step s) (hrun : s.ctrl.stopped = false) :
    ∀ i < EVENT_NODE_MAX, (s.nodes i).status = true → ∃ c, Belongs s i c ∧
      ∀ r, s.reg (s.nodes i).fd = some r → r.events = .reading → r.mark = false → s.ctrl.waiting i = false →
        s.ctrl.doing i = none → (s.conns c).pending = [] ∧ (s.conns c).eof = false := by
  intro i hi hs
  have hsound := sound_reach h
  obtain ⟨c, hc, rfl⟩ := hsound.owner hi hs
  obtain ⟨-, hedge⟩ := view_inv (P := fun v => Echo v ∧ Edge v) (fun _ hf => ⟨hf.echo, hf.edge⟩)
    (fun _ _ hp hl => ⟨hl.echo hp.1, hl.edge hp.1 hp.2⟩) h hrun c hc
  refine ⟨c, hsound.belongs hc, fun r hr hev hmark hwaiting hdoing => ?_⟩
  rw [(hsound.table.owns hc).fd] at hr
  by_contra hpending
  have hreadable : (s.conns c).readable = true := by
    simpa [Conn.readable, or_iff_not_and_not] using hpending
  rcases hedge r hr (by rw [hev]; rfl) hreadable with hm | hw | ⟨totalCnt, hd⟩
  · simp [hmark] at hm
  · exact absurd (hwaiting.symm.trans hw) (by simp)
  · exact absurd (hdoing.symm.trans hd) (by simp)

/-- A client is accepted that has sent nothing. -/
def quietRun : List Act := timeoutLoop 0 ++ [.epollWait [3], .dispatch 0, .accept 5 16 [] false 0]

theorem quietRun_runs : ∃ s, Steps.run step startState quietRun = some s ∧ s.ctrl = .batch [] ∧
    (s.nodes 0).status = true ∧ (s.nodes 0).fd = 5 ∧
    s.reg 5 = some { events := .reading, ptr := 0, mark := false } := by
  obtain ⟨s, hs, hfacts⟩ : ∃ s, Steps.run step { startState with ctrl := .wait }
      [.epollWait [3], .dispatch 0, .accept 5 16 [] false 0] = some s ∧ s.ctrl = .batch [] ∧
        (s.nodes 0).status = true ∧ (s.nodes 0).fd = 5 ∧
        s.reg 5 = some { events := .reading, ptr := 0, mark := false } := ⟨_, rfl, rfl, rfl, rfl, rfl⟩
  refine ⟨s, Steps.run_append.2 ⟨_, run_timeoutLoop rfl fun i _ => ?_, hs⟩, hfacts⟩
  simp [startState_lastAccess, EVNET_NODE_LIVE_TIMESTAMP]

theorem no_stuck_quietRun : ∃ s, Steps.Reach Init step s ∧ s.reg (s.nodes 0).fd ≠ none ∧
    ∃ c, Belongs s 0 c ∧ (s.conns c).pending = [] ∧ (s.conns c).eof = false := by
  obtain ⟨s, hs, hctrl, hstatus, hfd, hreg⟩ := quietRun_runs
  have hr : Steps.Reach Init step s := ⟨startState, quietRun, startState_init, hs⟩
  obtain ⟨c, hc, hdry⟩ := no_stuck hr (by rw [hctrl]; rfl) 0 (by decide) hstatus
  refine ⟨s, hr, by simp [hfd, hreg], c, hc, hdry _ (by rw [hfd, hreg]) rfl rfl ?_ ?_⟩
  · rw [hctrl]; rfl
  · rw [hctrl]; rfl

end SystemFunc.Reactor
