import SystemFunc.Reactor.Defs

/-!
# The slot table

`Core` is what the slots, the descriptors, the registrations, the heap and the connections say about who uses what;
most steps leave it as it is. `Table`: a live connection has its slot, its descriptor, its registration and its block to
itself, and there is nothing else in use. Opening (`Table.opened`) and closing (`Table.shut`) keep it.
-/

namespace SystemFunc.Reactor

open Function

/-- What a node says about who uses it; `accepts`: whether its callback is `DoAccept`, if it has one. -/
structure Slot where
  status : Bool
  fd : Nat
  regArgs : Option Nat
  accepts : Option Bool

def EventNode.core (node : EventNode) : Slot where
  status := node.status
  fd := node.fd
  regArgs := node.regArgs
  accepts := node.pfunc.map fun pfunc => pfunc = .doAccept

/-- What a connection has, and what became of it. -/
structure Holding where
  fd : Nat
  addr : Nat
  slot : Nat
  frees : Nat
  closed : Option Reason

def Conn.core (k : Conn) : Holding :=
  { fd := k.fd, addr := k.addr, slot := k.slot, frees := k.frees, closed := k.closed }

structure Core where
  nodes : Nat → Slot
  fds : Nat → Option Desc
  ptr : Nat → Option Nat
  heap : Nat → Option Nat
  conns : Nat → Holding
  accepted : Nat

def State.core (s : State) : Core where
  nodes i := (s.nodes i).core
  fds := s.fds
  ptr fd := (s.reg fd).map Registration.ptr
  heap := s.heap
  conns c := (s.conns c).core
  accepted := s.accepted

/-- The connection has been accepted and not been closed. -/
def Core.live (T : Core) (c : Nat) : Prop := c < T.accepted ∧ (T.conns c).closed = none

/-- What a live connection has. -/
structure Core.Holds (T : Core) (c : Nat) (k : Holding) : Prop where
  slot : k.slot < EVENT_NODE_MAX
  node : T.nodes k.slot = { status := true, fd := k.fd, regArgs := some k.addr, accepts := some false }
  desc : T.fds k.fd = some (.conn c)
  ptr : T.ptr k.fd = some k.slot
  block : T.heap k.addr = some c
  frees : k.frees = 0

/-- The invariant of the table. -/
structure Table (T : Core) : Prop where
  holds : ∀ c, T.live c → T.Holds c (T.conns c)
  used : ∀ i < EVENT_NODE_MAX, (T.nodes i).status = true → ∃ c, T.live c ∧ (T.conns c).slot = i
  unused : ∀ i < EVENT_NODE_MAX, (T.nodes i).status = false → (T.nodes i).regArgs = none
  descs : ∀ fd c, T.fds fd = some (.conn c) → T.live c ∧ (T.conns c).fd = fd
  blocks : ∀ addr c, T.heap addr = some c → T.live c ∧ (T.conns c).addr = addr
  regs : ∀ fd i, T.ptr fd = some i → fd = (T.nodes EVENT_NODE_MAX).fd ∧ i = EVENT_NODE_MAX ∨
    ∃ c, T.fds fd = some (.conn c)
  listener : T.fds (T.nodes EVENT_NODE_MAX).fd = some .listen ∧
    T.ptr (T.nodes EVENT_NODE_MAX).fd = some EVENT_NODE_MAX ∧ (T.nodes EVENT_NODE_MAX).accepts = some true
  freed : ∀ c < T.accepted, (T.conns c).closed ≠ none → (T.conns c).frees = 1

namespace Table

variable {T : Core} (h : Table T)
include h

/-- Two live connections do not share their descriptor. -/
theorem fd_inj {c d : Nat} (hc : T.live c) (hd : T.live d) (he : (T.conns c).fd = (T.conns d).fd) : c = d := by
  have hcd := (h.holds c hc).desc
  rw [he, (h.holds d hd).desc] at hcd
  cases hcd
  rfl

/-- Nor their slot. -/
theorem slot_inj {c d : Nat} (hc : T.live c) (hd : T.live d) (he : (T.conns c).slot = (T.conns d).slot) : c = d := by
  have hcd := (h.holds c hc).node
  rw [he, (h.holds d hd).node] at hcd
  exact h.fd_inj hc hd (congrArg Slot.fd hcd).symm

/-- Nor their block. -/
theorem addr_inj {c d : Nat} (hc : T.live c) (hd : T.live d) (he : (T.conns c).addr = (T.conns d).addr) : c = d := by
  have hcd := (h.holds c hc).block
  rw [he, (h.holds d hd).block] at hcd
  cases hcd
  rfl

/-- A registration is for one descriptor. -/
theorem ptr_inj {fd fd' i : Nat} (hfd : T.ptr fd = some i) (hfd' : T.ptr fd' = some i) : fd = fd' := by
  have hslot : ∀ g c, T.ptr g = some i → T.fds g = some (.conn c) → T.live c ∧ (T.conns c).slot = i ∧
      (T.conns c).fd = g := by
    intro g c hg hc
    obtain ⟨hlive, rfl⟩ := h.descs g c hc
    exact ⟨hlive, Option.some.inj ((h.holds c hlive).ptr.symm.trans hg), rfl⟩
  rcases h.regs fd i hfd with ⟨he, hi⟩ | ⟨c, hc⟩ <;> rcases h.regs fd' i hfd' with ⟨he', hi'⟩ | ⟨d, hd⟩
  · rw [he, he']
  · obtain ⟨hlive, hs, -⟩ := hslot fd' d hfd' hd
    have := (h.holds d hlive).slot
    omega
  · obtain ⟨hlive, hs, -⟩ := hslot fd c hfd hc
    have := (h.holds c hlive).slot
    omega
  · obtain ⟨hlive, hs, hf⟩ := hslot fd c hfd hc
    obtain ⟨hlive', hs', hf'⟩ := hslot fd' d hfd' hd
    have hcd := h.slot_inj hlive hlive' (hs.trans hs'.symm)
    rw [← hf, ← hf', hcd]

/-- A slot is in use exactly when its block is live. -/
theorem status_iff_block {i : Nat} (hi : i < EVENT_NODE_MAX) :
    (T.nodes i).status = true ↔ ∃ addr, (T.nodes i).regArgs = some addr ∧ T.heap addr ≠ none := by
  constructor
  · intro hs
    obtain ⟨c, hc, rfl⟩ := h.used i hi hs
    have hk := h.holds c hc
    exact ⟨_, by rw [hk.node], by simp [hk.block]⟩
  · rintro ⟨addr, ha, -⟩
    by_contra hs
    simp [h.unused i hi (Bool.eq_false_iff.2 hs)] at ha

/-- A slot is in use exactly when its descriptor is open and registered with it. -/
theorem status_iff_reg {i : Nat} (hi : i < EVENT_NODE_MAX) :
    (T.nodes i).status = true ↔ (T.fds (T.nodes i).fd).isSome ∧ T.ptr (T.nodes i).fd = some i := by
  constructor
  · intro hs
    obtain ⟨c, hc, rfl⟩ := h.used i hi hs
    have hk := h.holds c hc
    simp [hk.node, hk.desc, hk.ptr]
  · rintro ⟨-, hp⟩
    rcases h.regs _ _ hp with ⟨-, rfl⟩ | ⟨c, hc⟩
    · exact absurd hi (Nat.lt_irrefl _)
    · obtain ⟨hlive, hfd⟩ := h.descs _ _ hc
      have hk := h.holds c hlive
      have hslot : some (T.conns c).slot = some i := hk.ptr.symm.trans (hfd ▸ hp)
      cases hslot
      rw [hk.node]

/-- A block is freed once, when its connection is closed. -/
theorem frees_eq {c : Nat} (hc : c < T.accepted) :
    (T.conns c).frees = if (T.conns c).closed = none then 0 else 1 := by
  split
  · rename_i hopen
    exact (h.holds c ⟨hc, hopen⟩).frees
  · rename_i hclosed
    exact h.freed c hc hclosed

end Table

/-! ## Opening a connection -/

/-- Connection `T.accepted` gets slot `i`, descriptor `cfd` and block `addr`. -/
def Core.opened (T : Core) (i cfd addr : Nat) : Core where
  nodes := update T.nodes i { status := true, fd := cfd, regArgs := some addr, accepts := some false }
  fds := update T.fds cfd (some (.conn T.accepted))
  ptr := update T.ptr cfd (some i)
  heap := update T.heap addr (some T.accepted)
  conns := update T.conns T.accepted { fd := cfd, addr := addr, slot := i, frees := 0, closed := none }
  accepted := T.accepted + 1

theorem opened_live {T : Core} {i cfd addr c : Nat} :
    (T.opened i cfd addr).live c ↔ T.live c ∨ c = T.accepted := by
  by_cases hc : c = T.accepted
  · subst hc
    simp [Core.live, Core.opened]
  · simp only [Core.live, Core.opened, update_of_ne hc, hc, or_false, and_congr_left_iff]
    intro _
    omega

theorem Table.ptr_none {T : Core} (h : Table T) {fd : Nat} (hfd : T.fds fd = none) : T.ptr fd = none := by
  by_contra hp
  obtain ⟨i, hi⟩ := Option.ne_none_iff_exists'.1 hp
  rcases h.regs fd i hi with ⟨rfl, -⟩ | ⟨c, hc⟩
  · simp [h.listener.1] at hfd
  · simp [hfd] at hc

theorem Table.opened {T : Core} (h : Table T) {i cfd addr : Nat} (hi : i < EVENT_NODE_MAX)
    (hfree : (T.nodes i).status = false) (hfd : T.fds cfd = none) (haddr : T.heap addr = none) :
    Table (T.opened i cfd addr) := by
  -- what a live connection has is not what the new one gets
  have hold : ∀ c, T.live c → c ≠ T.accepted ∧ (T.conns c).slot ≠ i ∧ (T.conns c).fd ≠ cfd ∧
      (T.conns c).addr ≠ addr := by
    intro c hc
    have hk := h.holds c hc
    refine ⟨Nat.ne_of_lt hc.1, fun he => ?_, fun he => ?_, fun he => ?_⟩
    · rw [← he, hk.node] at hfree
      cases hfree
    · simp [← he, hk.desc] at hfd
    · simp [← he, hk.block] at haddr
  have hlfd : (T.nodes EVENT_NODE_MAX).fd ≠ cfd := fun he => by
    have := h.listener.1
    rw [he, hfd] at this
    cases this
  constructor
  · intro c hc
    rcases opened_live.1 hc with hc | rfl
    · obtain ⟨hne, hslot, hcfd, haddr'⟩ := hold c hc
      have hk := h.holds c hc
      simp only [Core.opened, update_of_ne hne]
      exact ⟨hk.slot, by simp [update_of_ne hslot, hk.node], by simp [update_of_ne hcfd, hk.desc],
        by simp [update_of_ne hcfd, hk.ptr], by simp [update_of_ne haddr', hk.block], hk.frees⟩
    · constructor <;> simp [Core.opened, hi]
  · intro j hj hs
    by_cases he : j = i
    · exact ⟨T.accepted, opened_live.2 (.inr rfl), by simp [Core.opened, he]⟩
    · simp only [Core.opened, update_of_ne he] at hs
      obtain ⟨c, hc, hslot⟩ := h.used j hj hs
      exact ⟨c, opened_live.2 (.inl hc), by simp [Core.opened, update_of_ne (hold c hc).1, hslot]⟩
  · intro j hj hs
    by_cases he : j = i
    · simp [Core.opened, he] at hs
    · simp only [Core.opened, update_of_ne he] at hs ⊢
      exact h.unused j hj hs
  · intro fd c hd
    by_cases he : fd = cfd
    · simp only [Core.opened, he, update_self, Option.some.injEq, Desc.conn.injEq] at hd
      exact ⟨opened_live.2 (.inr hd.symm), by simp [Core.opened, ← hd, he]⟩
    · simp only [Core.opened, update_of_ne he] at hd
      obtain ⟨hc, hfd'⟩ := h.descs fd c hd
      exact ⟨opened_live.2 (.inl hc), by simp [Core.opened, update_of_ne (hold c hc).1, hfd']⟩
  · intro a c hb
    by_cases he : a = addr
    · simp only [Core.opened, he, update_self, Option.some.injEq] at hb
      exact ⟨opened_live.2 (.inr hb.symm), by simp [Core.opened, ← hb, he]⟩
    · simp only [Core.opened, update_of_ne he] at hb
      obtain ⟨hc, ha⟩ := h.blocks a c hb
      exact ⟨opened_live.2 (.inl hc), by simp [Core.opened, update_of_ne (hold c hc).1, ha]⟩
  · intro fd j hp
    by_cases he : fd = cfd
    · exact .inr ⟨T.accepted, by simp [Core.opened, he]⟩
    · have hmax : EVENT_NODE_MAX ≠ i := Nat.ne_of_gt hi
      simp only [Core.opened, update_of_ne he, update_of_ne hmax] at hp ⊢
      exact h.regs fd j hp
  · have hmax : EVENT_NODE_MAX ≠ i := Nat.ne_of_gt hi
    simpa [Core.opened, update_of_ne hmax, update_of_ne hlfd] using h.listener
  · intro c hc hcl
    by_cases he : c = T.accepted
    · simp [Core.opened, he] at hcl
    · simp only [Core.opened, update_of_ne he] at hc hcl ⊢
      exact h.freed c (by omega) hcl

/-! ## Closing a connection -/

/-- Connection `c` gives up what it has. -/
def Core.shut (T : Core) (c : Nat) (reason : Reason) : Core where
  nodes := update T.nodes (T.conns c).slot
    { status := false, fd := (T.conns c).fd, regArgs := none, accepts := some false }
  fds := update T.fds (T.conns c).fd none
  ptr := update T.ptr (T.conns c).fd none
  heap := update T.heap (T.conns c).addr none
  conns := update T.conns c { T.conns c with frees := (T.conns c).frees + 1, closed := some reason }
  accepted := T.accepted

theorem shut_live {T : Core} {c d : Nat} {reason : Reason} : (T.shut c reason).live d ↔ T.live d ∧ d ≠ c := by
  by_cases hd : d = c
  · subst hd
    simp [Core.live, Core.shut]
  · simp [Core.live, Core.shut, hd]

theorem Table.shut {T : Core} (h : Table T) {c : Nat} (hc : T.live c) (reason : Reason) :
    Table (T.shut c reason) := by
  have hk := h.holds c hc
  -- the other live connections have other things
  have hother : ∀ d, T.live d → d ≠ c → (T.conns d).slot ≠ (T.conns c).slot ∧ (T.conns d).fd ≠ (T.conns c).fd ∧
      (T.conns d).addr ≠ (T.conns c).addr := fun d hd hne =>
    ⟨fun he => hne (h.slot_inj hd hc he), fun he => hne (h.fd_inj hd hc he), fun he => hne (h.addr_inj hd hc he)⟩
  have hlfd : (T.nodes EVENT_NODE_MAX).fd ≠ (T.conns c).fd := fun he => by
    have hl := h.listener.1
    rw [he, hk.desc] at hl
    cases hl
  constructor
  · intro d hd
    obtain ⟨hd, hne⟩ := shut_live.1 hd
    obtain ⟨hslot, hfd, haddr⟩ := hother d hd hne
    have hkd := h.holds d hd
    simp only [Core.shut, update_of_ne hne]
    exact ⟨hkd.slot, by simp [update_of_ne hslot, hkd.node], by simp [update_of_ne hfd, hkd.desc],
      by simp [update_of_ne hfd, hkd.ptr], by simp [update_of_ne haddr, hkd.block], hkd.frees⟩
  · intro j hj hs
    by_cases he : j = (T.conns c).slot
    · simp [Core.shut, he] at hs
    · simp only [Core.shut, update_of_ne he] at hs
      obtain ⟨d, hd, hslot⟩ := h.used j hj hs
      have hne : d ≠ c := fun hdc => he (hdc ▸ hslot.symm)
      exact ⟨d, shut_live.2 ⟨hd, hne⟩, by simp [Core.shut, update_of_ne hne, hslot]⟩
  · intro j hj hs
    by_cases he : j = (T.conns c).slot
    · simp [Core.shut, he]
    · simp only [Core.shut, update_of_ne he] at hs ⊢
      exact h.unused j hj hs
  · intro fd d hd
    by_cases he : fd = (T.conns c).fd
    · simp [Core.shut, he] at hd
    · simp only [Core.shut, update_of_ne he] at hd
      obtain ⟨hlive, hfd⟩ := h.descs fd d hd
      have hne : d ≠ c := fun hdc => he (hdc ▸ hfd.symm)
      exact ⟨shut_live.2 ⟨hlive, hne⟩, by simp [Core.shut, update_of_ne hne, hfd]⟩
  · intro a d hb
    by_cases he : a = (T.conns c).addr
    · simp [Core.shut, he] at hb
    · simp only [Core.shut, update_of_ne he] at hb
      obtain ⟨hlive, ha⟩ := h.blocks a d hb
      have hne : d ≠ c := fun hdc => he (hdc ▸ ha.symm)
      exact ⟨shut_live.2 ⟨hlive, hne⟩, by simp [Core.shut, update_of_ne hne, ha]⟩
  · intro fd j hp
    by_cases he : fd = (T.conns c).fd
    · simp [Core.shut, he] at hp
    · have hmax : EVENT_NODE_MAX ≠ (T.conns c).slot := Nat.ne_of_gt hk.slot
      simp only [Core.shut, update_of_ne he, update_of_ne hmax] at hp ⊢
      exact h.regs fd j hp
  · have hmax : EVENT_NODE_MAX ≠ (T.conns c).slot := Nat.ne_of_gt hk.slot
    simpa [Core.shut, update_of_ne hmax, update_of_ne hlfd] using h.listener
  · intro d hd hcl
    by_cases he : d = c
    · simp [Core.shut, he, hk.frees]
    · simp only [Core.shut, update_of_ne he] at hd hcl ⊢
      exact h.freed d hd hcl

end SystemFunc.Reactor
