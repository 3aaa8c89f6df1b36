import Mathlib.Data.List.Nodup
import SystemFunc.Reactor.Moves

/-!
# The table in every state

The invariant is the slot table together with `Placed`: every event still to be handled is at the slot of its
connection, or at that of the listening socket, no two at one slot, and none at the slot of the handler that runs.
From it a step is one of a list of moves (`Move`, `Sound.move`), on one connection or on none.

- `slot_table`: the table, in every reachable state;
- `batch_delivered`: every event of a batch is handled on the node of its connection.
-/

namespace SystemFunc.Reactor

open Function

variable {s s' : State} {T : Core}

/-- The events still to be handled. -/
def Ctrl.evs : Ctrl → List Pending
  | .batch evs => evs
  | .handler _ _ _ evs => evs
  | _ => []

/-- The event is at the slot of the connection for which it was reported. -/
def Entry (T : Core) (e : Pending) : Prop :=
  match e.conn with
  | none => e.ptr = EVENT_NODE_MAX
  | some c => T.live c ∧ (T.conns c).slot = e.ptr

/-- The handler runs on the node of a connection, with its descriptor; `DoAccept` on that of the listening socket. -/
def Handled (T : Core) (i fd : Nat) : Doing → Prop
  | .accepting => i = EVENT_NODE_MAX
  | _ => ∃ c, T.live c ∧ (T.conns c).slot = i ∧ (T.conns c).fd = fd

structure Placed (T : Core) (ctrl : Ctrl) : Prop where
  entries : ∀ e ∈ ctrl.evs, Entry T e
  nodup : (ctrl.evs.map Pending.ptr).Nodup
  handler : ∀ i fd doing evs, ctrl = .handler i fd doing evs → i ∉ evs.map Pending.ptr ∧ Handled T i fd doing

structure Sound (s : State) : Prop where
  table : Table s.core
  placed : Placed s.core s.ctrl

/-- The process does not go on. -/
def Ctrl.stopped : Ctrl → Bool
  | .exited _ => true
  | .undefined => true
  | _ => false

/-- `EventLoop` is outside its batch of events. -/
def Ctrl.outside : Ctrl → Bool
  | .top => true
  | .scan _ _ => true
  | .wait => true
  | .batch [] => true
  | _ => false

/-- The steps from a sound state. -/
inductive Move (s : State) : Act → State → Prop
  | arrive {c : Nat} {bytes : List UInt8} (hc : s.core.live c) (heof : (s.conns c).eof = false) :
      Move s (.arrive c bytes) (s.arrived c { s.conns c with pending := (s.conns c).pending ++ bytes })
  | peerClose {c : Nat} (hc : s.core.live c) (heof : (s.conns c).eof = false) :
      Move s (.peerClose c) (s.arrived c { s.conns c with eof := true })
  | loop {a : Act} {ctrl : Ctrl} (hold : s.ctrl.outside = true) (hnew : ctrl.outside = true) :
      Move s a { s with ctrl := ctrl }
  | stop {a : Act} {ctrl : Ctrl} (hstop : ctrl.stopped = true) : Move s a { s with ctrl := ctrl }
  | timeout {now : Int} {i c : Nat} (hctrl : s.ctrl = .scan now i) (hc : s.core.live c) :
      Move s .scan ({ s with ctrl := .scan now (i + 1) }.closed c .timeout)
  | report {fds : List Nat} (hctrl : s.ctrl = .wait) (hnodup : fds.Nodup) (hreg : ∀ fd ∈ fds, (s.reg fd).isSome) :
      Move s (.epollWait fds)
        { s with
          ctrl := .batch (fds.filterMap s.report)
          reg := fun fd =>
            if fd ∈ fds then (s.reg fd).map fun r => { r with mark := r.mark && !r.events.epollet } else s.reg fd }
  | startAccept {t : Int} {e : Pending} {evs : List Pending} (hctrl : s.ctrl = .batch (e :: evs))
      (hconn : e.conn = none) :
      Move s (.dispatch t)
        { s.setNode EVENT_NODE_MAX { s.nodes EVENT_NODE_MAX with lastAccess := t } with
          ctrl := .handler EVENT_NODE_MAX (s.nodes EVENT_NODE_MAX).fd .accepting evs }
  | startRead {t : Int} {e : Pending} {evs : List Pending} {c : Nat} (hctrl : s.ctrl = .batch (e :: evs))
      (hconn : e.conn = some c) (hc : s.core.live c)
      (hp : (s.nodes (s.conns c).slot).pfunc = some .doReadLoop) :
      Move s (.dispatch t)
        { (s.setNode (s.conns c).slot { s.nodes (s.conns c).slot with lastAccess := t }).setConn c
            { s.conns c with burst := [] } with
          ctrl := .handler (s.conns c).slot (s.conns c).fd (.reading 0) evs }
  | startWrite {t : Int} {e : Pending} {evs : List Pending} {c : Nat} (hctrl : s.ctrl = .batch (e :: evs))
      (hconn : e.conn = some c) (hc : s.core.live c) (hp : (s.nodes (s.conns c).slot).pfunc = some .doWrite) :
      Move s (.dispatch t)
        { s.setNode (s.conns c).slot { s.nodes (s.conns c).slot with lastAccess := t } with
          ctrl := .handler (s.conns c).slot (s.conns c).fd .writing evs }
  | tableFull {i fd cfd addr : Nat} {pending : List UInt8} {eof : Bool} {t : Int} {evs : List Pending}
      (hctrl : s.ctrl = .handler i fd .accepting evs) :
      Move s (.accept cfd addr pending eof t) { s with ctrl := .batch evs }
  | opened {i fd slot cfd addr : Nat} {pending : List UInt8} {eof : Bool} {t : Int} {evs : List Pending}
      (hctrl : s.ctrl = .handler i fd .accepting evs) (hslot : slot < EVENT_NODE_MAX)
      (hfree : (s.nodes slot).status = false) (hfd : s.fds cfd = none) (haddr : s.heap addr = none) :
      Move s (.accept cfd addr pending eof t) ({ s with ctrl := .batch evs }.opened slot cfd addr pending eof t)
  | read {c n totalCnt : Nat} {evs : List Pending} (hc : s.core.live c)
      (hctrl : s.ctrl = .handler (s.conns c).slot (s.conns c).fd (.reading totalCnt) evs)
      (hn : 1 ≤ n ∧ n ≤ (s.conns c).pending.length) (hfits : totalCnt + n ≤ MAX_SEGMENT_LENGTH) :
      Move s (.read n) (s.doRead (s.conns c).slot (s.conns c).fd totalCnt ((s.conns c).pending.take n) evs)
  | readEagain {c totalCnt : Nat} {evs : List Pending} (hc : s.core.live c)
      (hctrl : s.ctrl = .handler (s.conns c).slot (s.conns c).fd (.reading totalCnt) evs)
      (hdry : (s.conns c).pending = [] ∧ (s.conns c).eof = false) :
      Move s .readEagain { s with ctrl := .handler (s.conns c).slot (s.conns c).fd (.readDone totalCnt) evs }
  | readEintr : Move s .readEintr s
  | endOfStream {c totalCnt : Nat} {evs : List Pending} (hc : s.core.live c)
      (hctrl : s.ctrl = .handler (s.conns c).slot (s.conns c).fd (.reading totalCnt) evs)
      (hdry : (s.conns c).pending = [] ∧ (s.conns c).eof = true) :
      Move s .readZero ({ s with ctrl := .batch evs }.closed c .endOfStream)
  | toWrite {c totalCnt : Nat} {t : Int} {evs : List Pending} (hc : s.core.live c)
      (hctrl : s.ctrl = .handler (s.conns c).slot (s.conns c).fd (.readDone totalCnt) evs) :
      Move s (.toWrite t)
        ({ s with ctrl := .batch evs }.modified (s.conns c).slot
          (setEventNode { s.nodes (s.conns c).slot with bufLen := totalCnt, wIndex := 0 } (s.conns c).fd .writing
            .doWrite (some (s.conns c).addr) t))
  | write {c cnt : Nat} {evs : List Pending} (hc : s.core.live c)
      (hctrl : s.ctrl = .handler (s.conns c).slot (s.conns c).fd .writing evs)
      (hcnt : cnt ≤ (s.nodes (s.conns c).slot).bufLen) :
      Move s (.write cnt) (s.doWrite (s.conns c).slot (s.conns c).fd cnt evs)
  | more {c : Nat} {t : Int} {evs : List Pending} (hc : s.core.live c)
      (hctrl : s.ctrl = .handler (s.conns c).slot (s.conns c).fd .wrote evs) :
      Move s (.afterWrite t) { s with ctrl := .batch evs }
  | toRead {c : Nat} {t : Int} {evs : List Pending} (hc : s.core.live c)
      (hctrl : s.ctrl = .handler (s.conns c).slot (s.conns c).fd .wrote evs)
      (hlen : (s.nodes (s.conns c).slot).bufLen = 0) :
      Move s (.afterWrite t)
        ({ s with ctrl := .batch evs }.modified (s.conns c).slot
          (setEventNode (s.nodes (s.conns c).slot) (s.conns c).fd .reading .doReadLoop (some (s.conns c).addr) t))

theorem State.live_conns {c : Nat} : (s.core.conns c).slot = (s.conns c).slot ∧ (s.core.conns c).fd = (s.conns c).fd :=
  ⟨rfl, rfl⟩

/-- The connection whose node a handler works on. -/
theorem Sound.handled (h : Sound s) {i fd : Nat} {doing : Doing} {evs : List Pending}
    (hctrl : s.ctrl = .handler i fd doing evs) (hd : doing ≠ .accepting) :
    ∃ c, s.core.live c ∧ (s.conns c).slot = i ∧ (s.conns c).fd = fd := by
  have hh := (h.placed.handler i fd doing evs hctrl).2
  cases doing with
  | accepting => exact absurd rfl hd
  | reading _ => exact hh
  | readDone _ => exact hh
  | writing => exact hh
  | wrote => exact hh

/-- The end of the stream closes the connection whose node is read. -/
theorem Sound.readZero (h : Sound s) (hs : step s .readZero = some s') :
    ∃ c totalCnt evs, s.core.live c ∧ s.ctrl = .handler (s.conns c).slot (s.conns c).fd (.reading totalCnt) evs ∧
      ((s.conns c).pending = [] ∧ (s.conns c).eof = true) ∧
      s' = { s with ctrl := .batch evs }.closed c .endOfStream := by
  simp only [step] at hs
  split at hs
  · rename_i i fd totalCnt evs hctrl
    obtain ⟨c, hc, rfl, rfl⟩ := h.handled hctrl (by simp)
    have ho := h.table.owns hc
    rw [ho.desc] at hs
    simp only [Option.ite_none_right_eq_some, Option.some.injEq] at hs
    obtain ⟨hdry, rfl⟩ := hs
    exact ⟨c, totalCnt, evs, hc, hctrl, hdry, closeNode_eq (ho.ctrl (.batch evs)) .endOfStream⟩
  · cases hs

/-- The timeout loop goes on to the next node, or closes the connection of this one. -/
theorem Sound.move_scan (h : Sound s) (hs : step s .scan = some s') : Move s .scan s' := by
  simp only [step] at hs
  split at hs
  · rename_i now i hctrl
    split at hs
    · split at hs
      · rename_i hi hexp
        cases hs
        obtain ⟨c, hc, rfl⟩ := h.table.used i hi hexp.1
        have ho := h.table.owns hc
        have heq := closeNode_eq (ho.ctrl (.scan now ((s.conns c).slot + 1))) .timeout
        simp only [State.live_conns] at hctrl heq ⊢
        rw [ho.fd, heq]
        exact .timeout hctrl hc
      · cases hs
        exact .loop (by simp [hctrl, Ctrl.outside]) rfl
    · cases hs
      exact .loop (by simp [hctrl, Ctrl.outside]) rfl
  · cases hs

/-- The handler of the next event starts: `DoAccept` on the listening socket, or one of the two of a connection. -/
theorem Sound.move_dispatch (h : Sound s) {e : Pending} {evs : List Pending} (hctrl : s.ctrl = .batch (e :: evs))
    (t : Int) : Move s (.dispatch t) (s.dispatch e.ptr t evs) := by
  have hentry := h.placed.entries e (by simp [hctrl, Ctrl.evs])
  unfold Entry at hentry
  cases hconn : e.conn with
  | none =>
    simp only [hconn] at hentry
    have hpf : (s.nodes EVENT_NODE_MAX).pfunc = some .doAccept := by
      have hacc := h.table.listener.2.2
      simp only [State.core, EventNode.core, Option.map_eq_some_iff, decide_eq_true_eq] at hacc
      obtain ⟨f, hf, rfl⟩ := hacc
      exact hf
    have heq : s.dispatch e.ptr t evs =
        { s.setNode EVENT_NODE_MAX { s.nodes EVENT_NODE_MAX with lastAccess := t } with
          ctrl := .handler EVENT_NODE_MAX (s.nodes EVENT_NODE_MAX).fd .accepting evs } := by
      simp [State.dispatch, hentry, hpf]
    rw [heq]
    exact .startAccept hctrl hconn
  | some c =>
    simp only [hconn] at hentry
    obtain ⟨hc, hslot⟩ := hentry
    have ho := h.table.owns hc
    obtain ⟨f, hf, hne⟩ := ho.pfunc
    have hslot' : e.ptr = (s.conns c).slot := hslot.symm
    cases f with
    | doAccept => exact absurd rfl hne
    | doReadLoop =>
      have heq : s.dispatch e.ptr t evs =
          { (s.setNode (s.conns c).slot { s.nodes (s.conns c).slot with lastAccess := t }).setConn c
              { s.conns c with burst := [] } with
            ctrl := .handler (s.conns c).slot (s.conns c).fd (.reading 0) evs } := by
        simp [State.dispatch, hslot', hf, ho.fd, State.onConn, State.setNode, State.setConn, ho.desc]
      rw [heq]
      exact .startRead hctrl hconn hc hf
    | doWrite =>
      have heq : s.dispatch e.ptr t evs =
          { s.setNode (s.conns c).slot { s.nodes (s.conns c).slot with lastAccess := t } with
            ctrl := .handler (s.conns c).slot (s.conns c).fd .writing evs } := by
        simp [State.dispatch, hslot', hf, ho.fd]
      rw [heq]
      exact .startWrite hctrl hconn hc hf

theorem Sound.move (h : Sound s) {a : Act} (hs : step s a = some s') : Move s a s' := by
  cases a with
  | arrive c bytes =>
    simp only [step, Option.ite_none_right_eq_some, Option.some.injEq] at hs
    obtain ⟨⟨hlt, hopen, heof, -⟩, rfl⟩ := hs
    exact .arrive ⟨hlt, hopen⟩ heof
  | peerClose c =>
    simp only [step, Option.ite_none_right_eq_some, Option.some.injEq] at hs
    obtain ⟨⟨hlt, hopen, heof⟩, rfl⟩ := hs
    exact .peerClose ⟨hlt, hopen⟩ heof
  | time now =>
    simp only [step] at hs
    split at hs
    · rename_i hctrl
      cases hs
      exact .loop (by simp [hctrl, Ctrl.outside]) rfl
    · cases hs
  | scan => exact h.move_scan hs
  | epollWait fds =>
    simp only [step] at hs
    split at hs
    · rename_i hctrl
      simp only [Option.ite_none_right_eq_some, Option.some.injEq] at hs
      obtain ⟨⟨hnodup, -, hreg⟩, rfl⟩ := hs
      exact .report hctrl hnodup hreg
    · cases hs
  | epollEintr =>
    simp only [step] at hs
    split at hs
    · rename_i hctrl
      cases hs
      exact .loop (by simp [hctrl, Ctrl.outside]) rfl
    · cases hs
  | dispatch t =>
    simp only [step] at hs
    split at hs
    · rename_i hctrl
      cases hs
      exact .loop (by simp [hctrl, Ctrl.outside]) rfl
    · rename_i e evs hctrl
      cases hs
      exact h.move_dispatch hctrl t
    · cases hs
  | accept cfd addr pending eof t =>
    simp only [step] at hs
    split at hs
    · rename_i i fd evs hctrl
      split at hs
      · cases hs
        exact .tableFull hctrl
      · rename_i hlt
        split at hs
        · simp only [Option.ite_none_right_eq_some, Option.some.injEq, Option.isNone_iff_eq_none] at hs
          obtain ⟨⟨haddr, hfd⟩, rfl⟩ := hs
          have hindex : findUnuseNode s.nodes 0 EVENT_NODE_MAX < 0 + EVENT_NODE_MAX := by omega
          have hstatus := findUnuseNode_status hindex
          rw [doAccept_eq (s := { s with ctrl := .batch evs }) h.table hfd]
          exact .opened hctrl (Nat.not_le.1 hlt) hstatus hfd haddr
        · cases hs
    · cases hs
  | read n =>
    simp only [step] at hs
    split at hs
    · rename_i i fd totalCnt evs hctrl
      obtain ⟨c, hc, rfl, rfl⟩ := h.handled hctrl (by simp)
      have ho := h.table.owns hc
      rw [ho.desc] at hs
      simp only [Option.ite_none_right_eq_some] at hs
      obtain ⟨⟨h1, -, hlen⟩, hs⟩ := hs
      split at hs
      · rename_i hfits
        cases hs
        exact .read hc hctrl ⟨h1, hlen⟩ hfits
      · cases hs
        exact .stop rfl
    · cases hs
  | readEagain =>
    simp only [step] at hs
    split at hs
    · rename_i i fd totalCnt evs hctrl
      obtain ⟨c, hc, rfl, rfl⟩ := h.handled hctrl (by simp)
      have ho := h.table.owns hc
      rw [ho.desc] at hs
      simp only [Option.ite_none_right_eq_some, Option.some.injEq] at hs
      obtain ⟨hdry, rfl⟩ := hs
      exact .readEagain hc hctrl hdry
    · cases hs
  | readEintr =>
    simp only [step] at hs
    split at hs
    · cases hs
      exact .readEintr
    · cases hs
  | readZero =>
    obtain ⟨c, totalCnt, evs, hc, hctrl, hdry, rfl⟩ := h.readZero hs
    exact .endOfStream hc hctrl hdry
  | toWrite t =>
    simp only [step] at hs
    split at hs
    · rename_i i fd totalCnt evs hctrl
      obtain ⟨c, hc, rfl, rfl⟩ := h.handled hctrl (by simp)
      cases hs
      rw [toWrite_eq (h.table.owns hc)]
      exact .toWrite hc hctrl
    · cases hs
  | write cnt =>
    simp only [step] at hs
    split at hs
    · rename_i i fd evs hctrl
      obtain ⟨c, hc, rfl, rfl⟩ := h.handled hctrl (by simp)
      have ho := h.table.owns hc
      rw [ho.desc] at hs
      simp only [Option.ite_none_right_eq_some, Option.some.injEq] at hs
      obtain ⟨hcnt, rfl⟩ := hs
      exact .write hc hctrl (Nat.le_trans hcnt (Nat.min_le_left _ _))
    · cases hs
  | afterWrite t =>
    simp only [step] at hs
    split at hs
    · rename_i i fd evs hctrl
      obtain ⟨c, hc, rfl, rfl⟩ := h.handled hctrl (by simp)
      have ho := h.table.owns hc
      cases hs
      by_cases hlen : (s.nodes (s.conns c).slot).bufLen = 0
      · rw [afterWrite_done ho hlen]
        exact .toRead hc hctrl hlen
      · rw [afterWrite_more ho hlen]
        exact .more hc hctrl
    · cases hs
  | fail =>
    simp only [step, Option.map_eq_some_iff] at hs
    obtain ⟨msg, -, rfl⟩ := hs
    exact .stop rfl

/-! ## Every step keeps it -/

theorem placed_outside {ctrl : Ctrl} (h : ctrl.outside = true) : Placed T ctrl := by
  have hevs : ctrl.evs = [] := by
    unfold Ctrl.outside at h
    split at h <;> first | rfl | cases h
  refine ⟨by simp [hevs], by simp [hevs], ?_⟩
  rintro i fd doing evs rfl
  cases h

theorem placed_stopped {ctrl : Ctrl} (h : ctrl.stopped = true) : Placed T ctrl := by
  cases ctrl with
  | exited _ => exact ⟨nofun, List.nodup_nil, nofun⟩
  | undefined => exact ⟨nofun, List.nodup_nil, nofun⟩
  | _ => cases h

/-- The rest of a batch. -/
theorem Placed.tail {e : Pending} {evs : List Pending} (h : Placed T (.batch (e :: evs))) {i fd : Nat} {doing : Doing}
    (hi : e.ptr = i) (hh : Handled T i fd doing) : Placed T (.handler i fd doing evs) := by
  have hnodup := List.nodup_cons.1 h.nodup
  refine ⟨fun e' he => h.entries e' (List.mem_cons_of_mem _ he), hnodup.2, ?_⟩
  rintro _ _ _ _ he
  cases he
  exact ⟨hi ▸ hnodup.1, hh⟩

/-- The batch after a handler. -/
theorem Placed.rest {i fd : Nat} {doing : Doing} {evs : List Pending} (h : Placed T (.handler i fd doing evs)) :
    Placed T (.batch evs) :=
  ⟨h.entries, h.nodup, nofun⟩

/-- A handler goes on. -/
theorem Placed.next {i fd : Nat} {doing doing' : Doing} {evs : List Pending} (h : Placed T (.handler i fd doing evs))
    (hh : Handled T i fd doing') : Placed T (.handler i fd doing' evs) := by
  refine ⟨h.entries, h.nodup, ?_⟩
  rintro _ _ _ _ he
  cases he
  exact ⟨(h.handler i fd doing evs rfl).1, hh⟩

theorem Placed.opened {evs : List Pending} (h : Placed T (.batch evs)) {i cfd addr : Nat} :
    Placed (T.opened i cfd addr) (.batch evs) := by
  refine ⟨fun e he => ?_, h.nodup, nofun⟩
  have hentry := h.entries e he
  unfold Entry at hentry ⊢
  cases hconn : e.conn with
  | none => simpa [hconn] using hentry
  | some c =>
    simp only [hconn] at hentry ⊢
    have hne : c ≠ T.accepted := Nat.ne_of_lt hentry.1.1
    exact ⟨opened_live.2 (.inl hentry.1), by simpa [Core.opened, update_of_ne hne] using hentry.2⟩

/-- No event of the rest of the batch is for the connection that is closed. -/
theorem Placed.shut {evs : List Pending} (h : Placed T (.batch evs)) {c : Nat} {reason : Reason}
    (hc : (T.conns c).slot ∉ evs.map Pending.ptr) : Placed (T.shut c reason) (.batch evs) := by
  refine ⟨fun e he => ?_, h.nodup, nofun⟩
  have hentry := h.entries e he
  unfold Entry at hentry ⊢
  cases hconn : e.conn with
  | none => simpa [hconn] using hentry
  | some d =>
    simp only [hconn] at hentry ⊢
    have hne : d ≠ c := fun hdc => hc (hdc ▸ hentry.2 ▸ List.mem_map_of_mem he)
    exact ⟨shut_live.2 ⟨hentry.1, hne⟩, by simpa [Core.shut, update_of_ne hne] using hentry.2⟩

/-- What `epoll_wait` reports is at the slot of its connection. -/
theorem placed_report (h : Table s.core) {fds : List Nat} (hnodup : fds.Nodup) :
    Placed s.core (.batch (fds.filterMap s.report)) := by
  refine ⟨fun e he => ?_, ?_, nofun⟩
  · obtain ⟨fd, -, hfd⟩ := List.mem_filterMap.1 he
    obtain ⟨r, hr, rfl⟩ := Option.map_eq_some_iff.1 hfd
    have hptr : s.core.ptr fd = some r.ptr := by simp [State.core, hr]
    unfold Entry
    rcases h.regs fd r.ptr hptr with ⟨rfl, hi⟩ | ⟨c, hc⟩
    · have hl : s.fds (s.core.nodes EVENT_NODE_MAX).fd = some .listen := h.listener.1
      simpa [State.connOf, hl] using hi
    · have hc' : s.fds fd = some (.conn c) := hc
      obtain ⟨hlive, rfl⟩ := h.descs fd c hc
      simp only [State.connOf, hc']
      exact ⟨hlive, Option.some.inj ((h.holds c hlive).ptr.symm.trans hptr)⟩
  · have hmap : (fds.filterMap s.report).map Pending.ptr = fds.filterMap s.core.ptr := by
      rw [List.map_filterMap]
      congr 1
      funext fd
      simp [State.report, State.core, Option.map_map, Function.comp_def]
    simp only [Ctrl.evs, hmap]
    exact List.Nodup.filterMap (fun fd fd' i hfd hfd' => h.ptr_inj hfd hfd') hnodup

/-- A step that leaves the table alone. -/
theorem Sound.of_core (h : Sound s) (hcore : s'.core = s.core) (hp : Placed s.core s'.ctrl) : Sound s' :=
  ⟨hcore ▸ h.table, hcore ▸ hp⟩

/-- The handler of connection `c` is at its node. -/
theorem handled_conn {c : Nat} (hc : s.core.live c) {doing : Doing} (hd : doing ≠ .accepting) :
    Handled s.core (s.conns c).slot (s.conns c).fd doing := by
  cases doing with
  | accepting => exact absurd rfl hd
  | _ => exact ⟨c, hc, rfl, rfl⟩

theorem Move.sound (h : Sound s) {a : Act} (hm : Move s a s') : Sound s' := by
  have ht := h.table
  have hp := h.placed
  cases hm with
  | arrive hc heof => exact h.of_core (arrived_core rfl) hp
  | peerClose hc heof => exact h.of_core (arrived_core rfl) hp
  | loop hold hnew => exact h.of_core rfl (placed_outside hnew)
  | stop hstop => exact h.of_core rfl (placed_stopped hstop)
  | @timeout now i c hctrl hc =>
    have hcore := closed_core ((ht.owns hc).ctrl (.scan now (i + 1))) .timeout
    exact ⟨by rw [hcore]; exact ht.shut hc .timeout, placed_outside rfl⟩
  | report hctrl hnodup hreg =>
    refine h.of_core ?_ (placed_report ht hnodup)
    simp only [State.core, Core.mk.injEq, true_and, and_true]
    funext fd
    split
    · simp [Option.map_map, Function.comp_def]
    · rfl
  | @startAccept t e evs hctrl hconn =>
    have hentry := hp.entries e (by simp [hctrl, Ctrl.evs])
    simp only [Entry, hconn] at hentry
    refine h.of_core ?_ ((hctrl ▸ hp).tail hentry rfl)
    rw [ctrl_core, setNode_core]
    rfl
  | @startRead t e evs c hctrl hconn hc hpf =>
    have hentry := hp.entries e (by simp [hctrl, Ctrl.evs])
    simp only [Entry, hconn] at hentry
    refine h.of_core ?_ ((hctrl ▸ hp).tail hentry.2.symm (handled_conn hc (by simp)))
    rw [ctrl_core, setConn_core, setNode_core]
    · rfl
    · rfl
  | @startWrite t e evs c hctrl hconn hc hpf =>
    have hentry := hp.entries e (by simp [hctrl, Ctrl.evs])
    simp only [Entry, hconn] at hentry
    refine h.of_core ?_ ((hctrl ▸ hp).tail hentry.2.symm (handled_conn hc (by simp)))
    rw [ctrl_core, setNode_core]
    rfl
  | tableFull hctrl => exact h.of_core rfl (hctrl ▸ hp).rest
  | @opened i fd slot cfd addr pending eof t evs hctrl hslot hfree hfd haddr =>
    constructor
    · rw [opened_core]
      exact ht.opened hslot hfree hfd haddr
    · rw [opened_core]
      exact (hctrl ▸ hp).rest.opened
  | read hc hctrl hn hfits => exact h.of_core doRead_core ((hctrl ▸ hp).next (handled_conn hc (by simp)))
  | readEagain hc hctrl hdry => exact h.of_core rfl ((hctrl ▸ hp).next (handled_conn hc (by simp)))
  | readEintr => exact h
  | @endOfStream c totalCnt evs hc hctrl hdry =>
    have hcore := closed_core ((ht.owns hc).ctrl (.batch evs)) .endOfStream
    have hnot := (hp.handler _ _ _ _ hctrl).1
    exact ⟨by rw [hcore]; exact ht.shut hc .endOfStream, by rw [hcore]; exact (hctrl ▸ hp).rest.shut hnot⟩
  | @toWrite c totalCnt t evs hc hctrl =>
    have ho := ht.owns hc
    obtain ⟨f, hf, hne⟩ := ho.pfunc
    refine h.of_core (modified_core (s := { s with ctrl := .batch evs }) ?_) (hctrl ▸ hp).rest
    simp [EventNode.core, setEventNode, ho.fd, ho.regArgs, hf, hne]
  | write hc hctrl hcnt => exact h.of_core doWrite_core ((hctrl ▸ hp).next (handled_conn hc (by simp)))
  | more hc hctrl => exact h.of_core rfl (hctrl ▸ hp).rest
  | @toRead c t evs hc hctrl hlen =>
    have ho := ht.owns hc
    obtain ⟨f, hf, hne⟩ := ho.pfunc
    refine h.of_core (modified_core (s := { s with ctrl := .batch evs }) ?_) (hctrl ▸ hp).rest
    simp [EventNode.core, setEventNode, ho.fd, ho.regArgs, hf, hne]

theorem sound_init (h : Init s) : Sound s := by
  obtain ⟨hctrl, hnodes, ⟨lfd, t, mark, hnode, hl, hreg, hno⟩, hfds, hheap, hacc⟩ := h
  have hlive : ∀ c, ¬s.core.live c := fun c hc => by
    have hlt : c < s.accepted := hc.1
    omega
  have hzero : ∀ i < EVENT_NODE_MAX, s.nodes i = .zero := fun i hi => hnodes i (Nat.ne_of_lt hi)
  have hlfd : (s.core.nodes EVENT_NODE_MAX).fd = lfd := by simp [State.core, EventNode.core, hnode, setEventNode]
  refine ⟨⟨fun c hc => absurd hc (hlive c), ?_, ?_, ?_, ?_, ?_, ?_, ?_⟩, placed_outside (by rw [hctrl]; rfl)⟩
  · intro i hi hs
    simp [State.core, EventNode.core, hzero i hi, EventNode.zero] at hs
  · intro i hi _
    simp [State.core, EventNode.core, hzero i hi, EventNode.zero]
  · exact fun fd c hc => absurd hc (hfds fd c)
  · intro addr c hc
    simp [State.core, hheap] at hc
  · intro fd i hp
    by_cases hfd : fd = lfd
    · subst hfd
      simp only [State.core, hreg, Option.map_some, Option.some.injEq] at hp
      exact .inl ⟨hlfd.symm, hp.symm⟩
    · simp [State.core, hno fd hfd] at hp
  · rw [hlfd]
    simp [State.core, EventNode.core, hnode, hl, hreg, setEventNode]
  · intro c hc
    have hlt : c < s.accepted := hc
    omega

theorem sound_reach (h : Steps.Reach Init step s) : Sound s :=
  h.inv (fun _ => sound_init) fun _ _ _ hi hs => (hi.move hs).sound hi

/-! ## A run -/

/-- The listening socket `3`, registered in the epoll instance `4`. -/
def startState : State where
  nodes := update (fun _ => .zero) EVENT_NODE_MAX
    { setEventNode .zero 3 .listening .doAccept none 0 with status := true }
  fds fd := if fd = 3 then some .listen else if fd < 5 then some .other else none
  reg fd := if fd = 3 then some { events := .listening, ptr := EVENT_NODE_MAX, mark := false } else none
  heap _ := none
  conns _ := { pending := [], eof := false, fd := 0, addr := 0, slot := 0, got := [], out := [], burst := [],
               frees := 0, closed := none }
  accepted := 0
  ctrl := .top

theorem startState_init : Init startState where
  ctrl := rfl
  nodes i hi := by simp [startState, update_of_ne hi]
  listener := by
    refine ⟨3, 0, false, by simp [startState], rfl, rfl, fun fd hfd => ?_⟩
    simp [startState, hfd]
  fds fd c := by
    simp only [startState]
    split
    · nofun
    · split <;> nofun
  heap _ := rfl
  accepted := rfl

/-- `time` answers `now`, and the timeout loop goes over all slots. -/
def timeoutLoop (now : Int) : List Act := .time now :: List.replicate (EVENT_NODE_MAX + 1) .scan

/-- The timeout loop when no connection has timed out. -/
theorem run_scan {now : Int}
    (h : ∀ i < EVENT_NODE_MAX, ¬((s.nodes i).status = true ∧ now - EVNET_NODE_LIVE_TIMESTAMP > (s.nodes i).lastAccess))
    (n : Nat) {i : Nat} (hi : i + n = EVENT_NODE_MAX) :
    Steps.run step { s with ctrl := .scan now i } (List.replicate (n + 1) .scan) = some { s with ctrl := .wait } := by
  induction n generalizing i with
  | zero =>
    have hge : ¬i < EVENT_NODE_MAX := by omega
    simp [Steps.run, step, hge]
  | succ n ih =>
    have hlt : i < EVENT_NODE_MAX := by omega
    have hstep : step { s with ctrl := .scan now i } .scan = some { s with ctrl := .scan now (i + 1) } := by
      simp only [step, if_pos hlt]
      rw [if_neg (h i hlt)]
    rw [List.replicate_succ, Steps.run_cons]
    exact ⟨_, hstep, ih (by omega)⟩

theorem run_timeoutLoop {now : Int} (hctrl : s.ctrl = .top)
    (h : ∀ i < EVENT_NODE_MAX,
      ¬((s.nodes i).status = true ∧ now - EVNET_NODE_LIVE_TIMESTAMP > (s.nodes i).lastAccess)) :
    Steps.run step s (timeoutLoop now) = some { s with ctrl := .wait } := by
  rw [timeoutLoop, Steps.run_cons]
  exact ⟨{ s with ctrl := .scan now 0 }, by simp [step, hctrl], run_scan h EVENT_NODE_MAX (Nat.zero_add _)⟩

/-- A client that has sent two bytes and closed its side is accepted, its event is in the next batch. -/
def acceptRun : List Act :=
  timeoutLoop 0 ++ ([.epollWait [3], .dispatch 0, .accept 5 16 [104, 105] true 0, .dispatch 0] ++
    (timeoutLoop 1 ++ [.epollWait [5]]))

theorem lastAccess_update {nodes : Nat → EventNode} {t : Int} (h : ∀ i, (nodes i).lastAccess = t) (k : Nat)
    {node : EventNode} (hnode : node.lastAccess = t) (i : Nat) : (update nodes k node i).lastAccess = t := by
  by_cases hi : i = k
  · rw [hi, update_self, hnode]
  · rw [update_of_ne hi, h]

theorem startState_lastAccess (i : Nat) : (startState.nodes i).lastAccess = 0 := by
  by_cases hi : i = EVENT_NODE_MAX <;> simp [startState, setEventNode, EventNode.zero, hi]

/-- The steps of `acceptRun` outside its timeout loops, and what can follow: the two bytes are read, and the end of the
stream after them. -/
theorem acceptRun_batches : ∃ s t u v, Steps.run step { startState with ctrl := .wait }
      [.epollWait [3], .dispatch 0, .accept 5 16 [104, 105] true 0, .dispatch 0] = some s ∧
    (s.ctrl = .top ∧ ∀ i, (s.nodes i).lastAccess = 0) ∧
    Steps.run step { s with ctrl := .wait } [.epollWait [5]] = some t ∧
    (t.ctrl = .batch [{ ptr := 0, conn := some 0 }] ∧ t.accepted = 1 ∧ (t.nodes 0).status = true) ∧
    Steps.run step t [.dispatch 0, .read 2] = some u ∧
    (u.ctrl = .handler 0 5 (.reading 2) [] ∧ (u.conns 0).got = [104, 105] ∧ (u.conns 0).out = [] ∧
      (u.nodes 0).fd = 5 ∧ u.fds 5 = some (.conn 0) ∧
      u.reg 5 = some { events := .reading, ptr := 0, mark := false }) ∧
    step u .readZero = some v ∧
    (v.accepted = 1 ∧ (v.conns 0).closed = some .endOfStream ∧ (v.conns 0).got = [104, 105] ∧ (v.conns 0).out = []) :=
  ⟨_, _, _, _, rfl,
    ⟨rfl, lastAccess_update (lastAccess_update (lastAccess_update startState_lastAccess _ rfl) 0 rfl) 0 rfl⟩,
    rfl, ⟨rfl, rfl, rfl⟩, rfl, ⟨rfl, rfl, rfl, rfl, rfl, rfl⟩, rfl, rfl, rfl, rfl, rfl⟩

/-- A run from the state after `acceptRun`. -/
theorem acceptRun_runs : ∃ t u v, Steps.run step startState acceptRun = some t ∧
    (t.ctrl = .batch [{ ptr := 0, conn := some 0 }] ∧ t.accepted = 1 ∧ (t.nodes 0).status = true) ∧
    Steps.run step t [.dispatch 0, .read 2] = some u ∧
    (u.ctrl = .handler 0 5 (.reading 2) [] ∧ (u.conns 0).got = [104, 105] ∧ (u.conns 0).out = [] ∧
      (u.nodes 0).fd = 5 ∧ u.fds 5 = some (.conn 0) ∧
      u.reg 5 = some { events := .reading, ptr := 0, mark := false }) ∧
    step u .readZero = some v ∧
    (v.accepted = 1 ∧ (v.conns 0).closed = some .endOfStream ∧ (v.conns 0).got = [104, 105] ∧
      (v.conns 0).out = []) := by
  obtain ⟨s, t, u, v, hs, ⟨hctrl, hlast⟩, ht, hrest⟩ := acceptRun_batches
  refine ⟨t, u, v, ?_, hrest⟩
  refine Steps.run_append.2 ⟨_, run_timeoutLoop rfl fun i _ => ?_, ?_⟩
  · simp [startState_lastAccess, EVNET_NODE_LIVE_TIMESTAMP]
  · refine Steps.run_append.2 ⟨s, hs, Steps.run_append.2 ⟨_, run_timeoutLoop hctrl fun i _ => ?_, ht⟩⟩
    simp [hlast, EVNET_NODE_LIVE_TIMESTAMP]

theorem acceptRun_reach : ∃ s, Steps.Reach Init step s ∧ s.ctrl = .batch [{ ptr := 0, conn := some 0 }] ∧
    s.accepted = 1 ∧ (s.nodes 0).status = true := by
  obtain ⟨t, -, -, ht, hstate, -⟩ := acceptRun_runs
  exact ⟨t, ⟨startState, acceptRun, startState_init, ht⟩, hstate⟩

/-! ## The table and the batch -/

/-- **The slot table**: a slot is used exactly when its block is live, and when its descriptor is open and registered
with it; used slots have different descriptors and blocks; and a block is freed once, when its connection is closed. -/
theorem slot_table (h : Steps.Reach Init step s) :
    (∀ i < EVENT_NODE_MAX,
      ((s.nodes i).status = true ↔ ∃ addr, (s.nodes i).regArgs = some addr ∧ s.heap addr ≠ none) ∧
        ((s.nodes i).status = true ↔
          (s.fds (s.nodes i).fd).isSome ∧ ∃ r, s.reg (s.nodes i).fd = some r ∧ r.ptr = i)) ∧
      (∀ i < EVENT_NODE_MAX, ∀ j < EVENT_NODE_MAX, i ≠ j → (s.nodes i).status = true → (s.nodes j).status = true →
        (s.nodes i).fd ≠ (s.nodes j).fd ∧ (s.nodes i).regArgs ≠ (s.nodes j).regArgs) ∧
      ∀ c < s.accepted, (s.conns c).frees = if (s.conns c).closed = none then 0 else 1 := by
  have ht := (sound_reach h).table
  refine ⟨fun i hi => ⟨ht.status_iff_block hi, (ht.status_iff_reg hi).trans ?_⟩, ?_, fun c hc => ht.frees_eq hc⟩
  · exact and_congr_right fun _ => Option.map_eq_some_iff
  · intro i hi j hj hij hsi hsj
    obtain ⟨c, hc, rfl⟩ := ht.used i hi hsi
    obtain ⟨d, hd, rfl⟩ := ht.used j hj hsj
    have hoc := ht.owns hc
    have hod := ht.owns hd
    refine ⟨fun he => hij ?_, fun he => hij ?_⟩
    · rw [ht.fd_inj hc hd (hoc.fd.symm.trans (he.trans hod.fd))]
    · have haddr : some (s.conns c).addr = some (s.conns d).addr := hoc.regArgs.symm.trans (he.trans hod.regArgs)
      rw [ht.addr_inj hc hd (Option.some.inj haddr)]

theorem slot_table_acceptRun : ∃ s, Steps.Reach Init step s ∧ s.accepted = 1 ∧
    ((s.nodes 0).status = true ↔ ∃ addr, (s.nodes 0).regArgs = some addr ∧ s.heap addr ≠ none) ∧
      ∀ c < s.accepted, (s.conns c).frees = if (s.conns c).closed = none then 0 else 1 := by
  obtain ⟨s, hs, -, hacc, -⟩ := acceptRun_reach
  exact ⟨s, hs, hacc, ((slot_table hs).1 0 (by decide)).1, (slot_table hs).2.2⟩

/-- The node with index `i` is that of connection `c`, which is open. -/
structure Belongs (s : State) (i c : Nat) : Prop where
  closed : (s.conns c).closed = none
  status : (s.nodes i).status = true
  desc : s.fds (s.nodes i).fd = some (.conn c)
  reg : ∃ r, s.reg (s.nodes i).fd = some r ∧ r.ptr = i

theorem Sound.owner (h : Sound s) {i : Nat} (hi : i < EVENT_NODE_MAX) (hs : (s.nodes i).status = true) :
    ∃ c, s.core.live c ∧ (s.conns c).slot = i :=
  h.table.used i hi hs

theorem Sound.belongs (h : Sound s) {c : Nat} (hc : s.core.live c) : Belongs s (s.conns c).slot c := by
  have ho := h.table.owns hc
  exact ⟨hc.2, ho.status, by rw [ho.fd]; exact ho.desc, by rw [ho.fd]; exact ho.reg⟩

/-- **Delivery of a batch**: an event that is still to be handled is at the node of the connection for which it was
reported, or at that of the listening socket. -/
theorem batch_delivered (h : Steps.Reach Init step s) :
    ∀ e ∈ s.ctrl.evs, match e.conn with
      | none => e.ptr = EVENT_NODE_MAX ∧ (s.nodes EVENT_NODE_MAX).pfunc = some .doAccept
      | some c => Belongs s e.ptr c := by
  intro e he
  have hi := sound_reach h
  have hentry := hi.placed.entries e he
  unfold Entry at hentry
  cases hconn : e.conn with
  | none =>
    simp only [hconn] at hentry ⊢
    refine ⟨hentry, ?_⟩
    have hacc := hi.table.listener.2.2
    simpa [State.core, EventNode.core] using hacc
  | some c =>
    simp only [hconn] at hentry ⊢
    obtain ⟨hc, hslot⟩ := hentry
    have hslot' : e.ptr = (s.conns c).slot := hslot.symm
    exact hslot' ▸ hi.belongs hc

theorem batch_delivered_acceptRun : ∃ s, Steps.Reach Init step s ∧
    s.ctrl = .batch [{ ptr := 0, conn := some 0 }] ∧ Belongs s 0 0 := by
  obtain ⟨s, hs, hctrl, -⟩ := acceptRun_reach
  exact ⟨s, hs, hctrl, batch_delivered hs { ptr := 0, conn := some 0 } (by simp [hctrl, Ctrl.evs])⟩

end SystemFunc.Reactor
