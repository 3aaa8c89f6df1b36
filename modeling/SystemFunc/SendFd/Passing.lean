import SystemFunc.Lib.Slots
import SystemFunc.Lib.Steps
import SystemFunc.SendFd.Defs

/-!
# Connections that are passed on

- `Serving`, `Receiving`: what is open in the server and in a client;
- `inv_run`: the invariant;
- `passes`: the server need not wait for `recvmsg`: a connection stays open until its client exits, and no longer.
-/

namespace SystemFunc.SendFd

open Slots (slot_append slot_set slot_snoc)

variable {v : Setup} {s t : State} {a : Act} {u k : Nat} {c d : Client} {fds : Entries File}

/-! ## What is open -/

/-- In the server; `cur` is the client that it has accepted and has not called `sendmsg` for. -/
def Serving (v : Setup) (fds : Entries File) (conns : Nat) (sent : List Nat) (cur : Option Nat) : ServerCtrl → Prop
  | .accept => cur = none ∧ conns = sent.length ∧ fds = v.fds
  | .connect cfd => conns = sent.length ∧ ∃ u, cur = some u ∧ v.Free v.fds cfd ∧ fds = v.fds.add cfd (.server u)
  | .sendmsg cfd sendFd => conns = sent.length + 1 ∧ ∃ u, cur = some u ∧ v.Free v.fds cfd ∧
      (v.fds.add cfd (.server u)) sendFd = none ∧ fds = (v.fds.add cfd (.server u)).add sendFd (.tcp sent.length)
  | .closeSend cfd sendFd => cur = none ∧ conns = sent.length ∧ ∃ u k, v.Free v.fds cfd ∧ k + 1 = sent.length ∧
      (v.fds.add cfd (.server u)) sendFd = none ∧ fds = (v.fds.add cfd (.server u)).add sendFd (.tcp k)
  | .closeConn cfd => cur = none ∧ conns = sent.length ∧ ∃ u, v.Free v.fds cfd ∧ fds = v.fds.add cfd (.server u)
  | .exited => fds = .empty

/-- In client `u`. -/
def Receiving (v : Setup) (sent : List Nat) (u : Nat) (c : Client) : Prop :=
  match c.ctrl with
  | .recvmsg ufd => v.clientFds u ufd = none ∧ c.fds = (v.clientFds u).add ufd (.client u) ∧
      (c.inbox = none ∧ u ∉ sent ∨ ∃ k, c.inbox = some (.tcp k) ∧ sent[k]? = some u)
  | .close ufd sendFd => c.inbox = none ∧ v.clientFds u ufd = none ∧
      ((v.clientFds u).add ufd (.client u)) sendFd = none ∧
      ∃ k, sent[k]? = some u ∧ c.fds = ((v.clientFds u).add ufd (.client u)).add sendFd (.tcp k)
  | .loop sendFd => c.inbox = none ∧ v.clientFds u sendFd = none ∧
      ∃ k, sent[k]? = some u ∧ c.fds = (v.clientFds u).add sendFd (.tcp k)
  | .exited => c = .exit

/-- The clients that the server has not called `sendmsg` for. -/
def State.waiting (s : State) (cur : Option Nat) : List Nat := cur.toList ++ s.backlog

structure Inv (v : Setup) (s : State) (cur : Option Nat) : Prop where
  serving : Serving v s.fds s.conns s.sent cur s.ctrl
  receiving : ∀ (u : Nat) (c : Client), s.clients[u]? = some c → Receiving v s.sent u c
  nodup : s.sent.Nodup
  sent_lt : ∀ u ∈ s.sent, u < s.clients.length
  waiting : ∀ u ∈ s.waiting cur, u < s.clients.length ∧ u ∉ s.sent
  waiting_nodup : (s.waiting cur).Nodup
  placed : s.ctrl ≠ .exited → ∀ u < s.clients.length, u ∈ s.waiting cur ∨ u ∈ s.sent

theorem inv_start (v : Setup) : Inv v (start v) none where
  serving := ⟨rfl, rfl, rfl⟩
  receiving u c hc := by cases hc
  nodup := List.nodup_nil
  sent_lt u hu := (List.not_mem_nil hu).elim
  waiting u hu := (List.not_mem_nil hu).elim
  waiting_nodup := List.nodup_nil
  placed _ _ hu := (Nat.not_lt_zero _ hu).elim

variable {cur : Option Nat}

/-- Who has been sent a message stays so. -/
theorem Receiving.snoc {w : Nat} (h : Receiving v s.sent u c) (hne : u ≠ w) : Receiving v (s.sent ++ [w]) u c := by
  unfold Receiving at h ⊢
  split
  next hctrl =>
    rw [hctrl] at h
    obtain ⟨hufd, hfds, ⟨hinbox, hu⟩ | ⟨k, hinbox, hk⟩⟩ := h
    · refine ⟨hufd, hfds, .inl ⟨hinbox, fun hmem => ?_⟩⟩
      obtain hmem | hmem := List.mem_append.1 hmem
      · exact hu hmem
      · exact hne (List.mem_singleton.1 hmem)
    · exact ⟨hufd, hfds, .inr ⟨k, hinbox, slot_append hk⟩⟩
  next hctrl =>
    rw [hctrl] at h
    obtain ⟨hinbox, hufd, hfd, k, hk, hfds⟩ := h
    exact ⟨hinbox, hufd, hfd, k, slot_append hk, hfds⟩
  next hctrl =>
    rw [hctrl] at h
    obtain ⟨hinbox, hfd, k, hk, hfds⟩ := h
    exact ⟨hinbox, hfd, k, slot_append hk, hfds⟩
  next hctrl =>
    rw [hctrl] at h
    exact h

theorem Receiving.turn (h : Receiving v s.sent u c) (hd : Turns c d) : Receiving v s.sent u d := by
  unfold Receiving at h
  cases hd with
  | @receive ufd sendFd f hctrl hinbox hfree =>
    rw [hctrl] at h
    obtain ⟨hufd, hfds, ⟨hnone, -⟩ | ⟨k, hsome, hk⟩⟩ := h
    · rw [hinbox] at hnone
      cases hnone
    · rw [hinbox] at hsome
      cases hsome
      rw [hfds] at hfree ⊢
      exact ⟨rfl, hufd, hfree, k, hk, rfl⟩
  | @close ufd sendFd hctrl =>
    rw [hctrl] at h
    obtain ⟨hinbox, hufd, hfd, k, hk, hfds⟩ := h
    have hne : sendFd ≠ ufd := (Entries.ne_of_none hfd (Entries.add_self ..)).symm
    rw [Entries.add_of_ne hne] at hfd
    refine ⟨hinbox, hfd, k, hk, ?_⟩
    show c.fds.remove ufd = _
    rw [hfds, Entries.add_comm hne, Entries.remove_add]
    rw [Entries.add_of_ne hne.symm]
    exact hufd
  | exit => exact rfl

/-- A client that waits for its message. -/
theorem Receiving.unsent (h : Receiving v s.sent u c) (hu : u ∉ s.sent) (hlive : c.ctrl ≠ .exited) :
    ∃ ufd, c.ctrl = .recvmsg ufd ∧ v.clientFds u ufd = none ∧ c.fds = (v.clientFds u).add ufd (.client u) := by
  unfold Receiving at h
  split at h
  next ufd hctrl => exact ⟨ufd, hctrl, h.1, h.2.1⟩
  next hctrl =>
    obtain ⟨-, -, -, k, hk, -⟩ := h
    exact absurd (List.mem_of_getElem? hk) hu
  next hctrl =>
    obtain ⟨-, -, k, hk, -⟩ := h
    exact absurd (List.mem_of_getElem? hk) hu
  next hctrl => exact absurd hctrl hlive

theorem Inv.client (h : Inv v s cur) (hc : s.clients[u]? = some c) (hd : Turns c d) : Inv v (s.set u d) cur := by
  have hlen : (s.set u d).clients.length = s.clients.length := List.length_set ..
  exact {
    serving := h.serving
    receiving := fun w e he => by
      obtain ⟨rfl, rfl⟩ | ⟨-, he⟩ := slot_set he
      · exact (h.receiving w c hc).turn hd
      · exact h.receiving w e he
    nodup := h.nodup
    sent_lt := fun w hw => hlen ▸ h.sent_lt w hw
    waiting := fun w hw => hlen ▸ h.waiting w hw
    waiting_nodup := h.waiting_nodup
    placed := fun hrun w hw => h.placed hrun w (hlen ▸ hw) }

theorem Inv.stop (h : Inv v s cur) : Inv v s.stop none where
  serving := rfl
  receiving := h.receiving
  nodup := h.nodup
  sent_lt := h.sent_lt
  waiting _ hu := (List.not_mem_nil hu).elim
  waiting_nodup := List.nodup_nil
  placed hrun := absurd rfl hrun

theorem Inv.start (h : Inv v s cur) {ufd : Nat} (hfree : (v.clientFds s.clients.length) ufd = none) :
    Inv v { s with
      backlog := s.backlog ++ [s.clients.length]
      clients := s.clients ++
        [⟨(v.clientFds s.clients.length).add ufd (.client s.clients.length), .recvmsg ufd, none⟩] } cur := by
  have hfresh : s.clients.length ∉ s.sent := fun hmem => Nat.lt_irrefl _ (h.sent_lt _ hmem)
  have hwaiting : cur.toList ++ (s.backlog ++ [s.clients.length]) = s.waiting cur ++ [s.clients.length] :=
    (List.append_assoc ..).symm
  exact {
    serving := h.serving
    receiving := fun u c hc => by
      obtain ⟨rfl, rfl⟩ | hc := slot_snoc hc
      · exact ⟨hfree, rfl, .inl ⟨rfl, hfresh⟩⟩
      · exact h.receiving u c hc
    nodup := h.nodup
    sent_lt := fun u hu => by
      rw [List.length_append, List.length_singleton]
      exact Nat.lt_succ_of_lt (h.sent_lt u hu)
    waiting := fun u hu => by
      rw [List.length_append, List.length_singleton]
      rw [State.waiting, hwaiting] at hu
      obtain hu | hu := List.mem_append.1 hu
      · exact ⟨Nat.lt_succ_of_lt (h.waiting u hu).1, (h.waiting u hu).2⟩
      · obtain rfl := List.mem_singleton.1 hu
        exact ⟨Nat.lt_succ_self _, hfresh⟩
    waiting_nodup := by
      rw [State.waiting, hwaiting]
      refine List.nodup_append.2 ⟨h.waiting_nodup, List.nodup_cons.2 ⟨List.not_mem_nil, List.nodup_nil⟩,
        fun u hu w hw heq => ?_⟩
      rw [heq, List.mem_singleton.1 hw] at hu
      exact Nat.lt_irrefl _ (h.waiting _ hu).1
    placed := fun hrun u hu => by
      rw [State.waiting, hwaiting, List.mem_append]
      rw [List.length_append, List.length_singleton] at hu
      obtain hlt | rfl := Nat.lt_succ_iff_lt_or_eq.1 hu
      · exact (h.placed hrun u hlt).imp_left .inl
      · exact .inl (.inr (List.mem_singleton_self _)) }

/-- The server goes on, and the clients are where they were. -/
theorem Inv.server (h : Inv v s cur) {p q : ServerCtrl} {bs : List Nat} {cur' : Option Nat} {m : Nat}
    (hctrl : s.ctrl = p) (hrun : p ≠ .exited) (hserving : Serving v fds m s.sent cur' q)
    (hwaiting : cur'.toList ++ bs = s.waiting cur) :
    Inv v { s with ctrl := q, fds := fds, conns := m, backlog := bs } cur' where
  serving := hserving
  receiving := h.receiving
  nodup := h.nodup
  sent_lt := h.sent_lt
  waiting := by
    rw [State.waiting, hwaiting]
    exact h.waiting
  waiting_nodup := by
    rw [State.waiting, hwaiting]
    exact h.waiting_nodup
  placed _ := by
    rw [State.waiting, hwaiting]
    exact h.placed (hctrl ▸ hrun)

theorem Inv.sendmsg (h : Inv v s cur) {cfd sendFd : Nat} {f : File} (hctrl : s.ctrl = .sendmsg cfd sendFd)
    (hcfd : s.fds cfd = some (.server u)) (hf : s.fds sendFd = some f) (hc : s.clients[u]? = some c)
    (hlive : c.ctrl ≠ .exited) :
    Inv v { s.set u { c with inbox := some f } with sent := s.sent ++ [u], ctrl := .closeSend cfd sendFd } none := by
  have hserving := h.serving
  rw [hctrl] at hserving
  obtain ⟨hconns, w, rfl, hfree, hfd, hfds⟩ := hserving
  have hne : cfd ≠ sendFd := Entries.ne_of_none hfd (Entries.add_self ..)
  obtain rfl : w = u := by
    rw [hfds, Entries.add_of_ne hne, Entries.add_self] at hcfd
    cases hcfd
    rfl
  obtain rfl : f = .tcp s.sent.length := by
    rw [hfds, Entries.add_self] at hf
    cases hf
    rfl
  have hcons : s.waiting (some w) = w :: s.backlog := rfl
  obtain ⟨hlt, hunsent⟩ := h.waiting w (hcons ▸ List.mem_cons_self)
  have hnodup := h.waiting_nodup
  rw [hcons, List.nodup_cons] at hnodup
  obtain ⟨ufd, hcctrl, hufd, hcfds⟩ := (h.receiving w c hc).unsent hunsent hlive
  have hlen : (s.clients.set w { c with inbox := some (.tcp s.sent.length) }).length = s.clients.length :=
    List.length_set ..
  have hsent : (s.sent ++ [w]).length = s.sent.length + 1 := List.length_append
  exact {
    serving := ⟨rfl, hconns.trans hsent.symm, w, s.sent.length, hfree, hsent.symm, hfd, hfds⟩
    receiving := fun x d hd => by
      obtain ⟨rfl, rfl⟩ | ⟨hxw, hd⟩ := slot_set hd
      · unfold Receiving
        simp only [hcctrl]
        exact ⟨hufd, hcfds, .inr ⟨_, rfl, List.getElem?_concat_length⟩⟩
      · exact (h.receiving x d hd).snoc hxw
    nodup := by
      refine List.nodup_append.2 ⟨h.nodup, List.nodup_cons.2 ⟨List.not_mem_nil, List.nodup_nil⟩,
        fun x hx y hy heq => ?_⟩
      rw [heq, List.mem_singleton.1 hy] at hx
      exact hunsent hx
    sent_lt := fun x hx => by
      obtain hx | hx := List.mem_append.1 hx
      · exact Nat.lt_of_lt_of_eq (h.sent_lt x hx) hlen.symm
      · rw [List.mem_singleton.1 hx]
        exact Nat.lt_of_lt_of_eq hlt hlen.symm
    waiting := fun x hx => by
      obtain ⟨hxlt, hxsent⟩ := h.waiting x (hcons ▸ List.mem_cons_of_mem w hx)
      refine ⟨Nat.lt_of_lt_of_eq hxlt hlen.symm, fun hmem => ?_⟩
      obtain hmem | hmem := List.mem_append.1 hmem
      · exact hxsent hmem
      · exact hnodup.1 (List.mem_singleton.1 hmem ▸ hx)
    waiting_nodup := hnodup.2
    placed := fun _ x hx => by
      obtain hx | hx := h.placed (by rw [hctrl]; exact nofun) x (Nat.lt_of_lt_of_eq hx hlen)
      · rw [hcons] at hx
        obtain rfl | hx := List.mem_cons.1 hx
        · exact .inr (List.mem_append_right _ (List.mem_singleton_self _))
        · exact .inl hx
      · exact .inr (List.mem_append_left _ hx) }

theorem inv_step (h : ∃ cur, Inv v s cur) (hs : step v s a = some t) : ∃ cur, Inv v t cur := by
  obtain ⟨cur, h⟩ := h
  have hserving := h.serving
  cases step_moves hs with
  | start _ hfree => exact ⟨cur, h.start hfree⟩
  | @accept cfd u rest hctrl hbacklog hfree =>
    rw [hctrl] at hserving
    obtain ⟨rfl, hconns, hfds⟩ := hserving
    rw [hfds] at hfree
    have hwaiting : (some u).toList ++ rest = s.waiting none := by
      rw [State.waiting, hbacklog]
      rfl
    exact ⟨some u, h.server (q := .connect cfd) hctrl nofun ⟨hconns, u, rfl, hfree, by rw [hfds]⟩ hwaiting⟩
  | @connect cfd sendFd hctrl hfree =>
    rw [hctrl] at hserving
    obtain ⟨hconns, u, rfl, hcfd, hfds⟩ := hserving
    rw [hfds] at hfree
    refine ⟨some u, h.server (q := .sendmsg cfd sendFd) hctrl nofun ⟨by rw [hconns], u, rfl, hcfd, hfree, ?_⟩ rfl⟩
    rw [hfds, hconns]
  | sendmsg hctrl hcfd hf hc hlive => exact ⟨none, h.sendmsg hctrl hcfd hf hc hlive⟩
  | @closeSend cfd sendFd hctrl =>
    rw [hctrl] at hserving
    obtain ⟨rfl, hconns, u, k, hcfd, -, hfd, hfds⟩ := hserving
    refine ⟨none, h.server (q := .closeConn cfd) hctrl nofun ⟨rfl, hconns, u, hcfd, ?_⟩ rfl⟩
    rw [hfds, Entries.remove_add hfd]
  | @closeConn cfd hctrl =>
    rw [hctrl] at hserving
    obtain ⟨rfl, hconns, u, hcfd, hfds⟩ := hserving
    refine ⟨none, h.server (q := .accept) hctrl nofun ⟨rfl, hconns, ?_⟩ rfl⟩
    rw [hfds, Entries.remove_add hcfd.2]
  | stop => exact ⟨none, h.stop⟩
  | client hc hd => exact ⟨cur, h.client hc hd⟩

theorem inv_run {as : List Act} (hr : Steps.run (step v) (start v) as = some s) : ∃ cur, Inv v s cur :=
  Steps.run_inv (fun _ _ _ h hs => inv_step h hs) ⟨none, inv_start v⟩ hr

/-! ## The connections -/

/-- The client has the connection, or will get it. -/
def Client.Holds (c : Client) (k : Nat) : Prop := c.inbox = some (.tcp k) ∨ c.fds.Has (.tcp k)

theorem not_has_fds (v : Setup) (k : Nat) : ¬v.fds.Has (.tcp k) := by
  rintro ⟨n, hn⟩
  rw [Setup.fds] at hn
  split at hn
  · cases hn
  · split at hn <;> cases hn

theorem not_has_clientFds (v : Setup) (u k : Nat) : ¬(v.clientFds u).Has (.tcp k) := by
  rintro ⟨n, hn⟩
  rw [Setup.clientFds] at hn
  split at hn <;> cases hn

/-- The connection of a client. -/
theorem Receiving.holds_iff (h : Receiving v s.sent u c) (hn : s.sent.Nodup) (hlive : c.ctrl ≠ .exited) :
    c.Holds k ↔ s.sent[k]? = some u := by
  -- One connection is held, and it is the one of this client.
  have hone : ∀ m, (c.Holds k ↔ k = m) → s.sent[m]? = some u → (c.Holds k ↔ s.sent[k]? = some u) := by
    intro m hm hsent
    rw [hm]
    constructor
    · rintro rfl
      exact hsent
    · intro hk
      exact (List.getElem?_inj (List.getElem?_eq_some_iff.1 hk).1 hn).1 (hk.trans hsent.symm)
  unfold Receiving at h
  split at h
  next ufd hctrl =>
    obtain ⟨hufd, hfds, hinbox⟩ := h
    have hhas : ¬c.fds.Has (.tcp k) := by
      rw [hfds, Entries.has_add hufd]
      rintro (hne | hhas)
      · cases hne
      · exact not_has_clientFds v u k hhas
    obtain ⟨hnone, hu⟩ | ⟨m, hsome, hm⟩ := hinbox
    · have hnot : ¬c.Holds k := by
        rintro (hsome | hhas')
        · rw [hnone] at hsome
          cases hsome
        · exact hhas hhas'
      exact ⟨fun hk => absurd hk hnot, fun hk => absurd (List.mem_of_getElem? hk) hu⟩
    · refine hone m ?_ hm
      rw [Client.Holds, hsome, or_iff_left hhas, Option.some.injEq, File.tcp.injEq, eq_comm]
  next ufd fd hctrl =>
    obtain ⟨hnone, hufd, hfd, m, hm, hfds⟩ := h
    refine hone m ?_ hm
    rw [Client.Holds, hnone, hfds, Entries.has_add hfd, Entries.has_add hufd]
    simp [not_has_clientFds v u k]
  next fd hctrl =>
    obtain ⟨hnone, hfd, m, hm, hfds⟩ := h
    refine hone m ?_ hm
    rw [Client.Holds, hnone, hfds, Entries.has_add hfd]
    simp [not_has_clientFds v u k]
  next hctrl => exact absurd hctrl hlive

theorem Receiving.exited (h : Receiving v s.sent u c) (hctrl : c.ctrl = .exited) : ¬c.Holds k := by
  unfold Receiving at h
  rw [hctrl] at h
  rw [h]
  rintro (hsome | hhas)
  · cases hsome
  · exact Entries.not_has_empty _ hhas

/-- `kept`, `own`: of the `k`-th connection, the client that it was made for has a descriptor or a message, until it
exits, and nobody else; `freed`: the server has one between `connect` and `close`. -/
structure Passed (v : Setup) (s : State) : Prop where
  idle : s.ctrl = .accept → s.fds = v.fds
  nodup : s.sent.Nodup
  kept : ∀ (k u : Nat) (c : Client), s.sent[k]? = some u → s.clients[u]? = some c → c.ctrl ≠ .exited → c.Holds k
  own : ∀ (k u : Nat) (c : Client), s.clients[u]? = some c → c.Holds k → s.sent[k]? = some u
  freed : ∀ k, s.fds.Has (.tcp k) →
    k + 1 = s.conns ∧ ∃ cfd sendFd, s.ctrl = .sendmsg cfd sendFd ∨ s.ctrl = .closeSend cfd sendFd
  talks : ∀ (u : Nat) (c : Client) (sendFd : Nat), s.clients[u]? = some c → c.ctrl = .loop sendFd →
    ∃ k, s.sent[k]? = some u ∧ c.fds = (v.clientFds u).add sendFd (.tcp k)
  eof : ∀ (u : Nat) (t : State), step v s (.recvEof u) = some t → s.ctrl = .exited

theorem Inv.freed (h : Inv v s cur) (hhas : s.fds.Has (.tcp k)) :
    k + 1 = s.conns ∧ ∃ cfd sendFd, s.ctrl = .sendmsg cfd sendFd ∨ s.ctrl = .closeSend cfd sendFd := by
  have hserving := h.serving
  have hnot : ∀ cfd u, v.Free v.fds cfd → ¬(v.fds.add cfd (.server u)).Has (.tcp k) := by
    intro cfd u hcfd hhas
    obtain hne | hhas := (Entries.has_add hcfd.2).1 hhas
    · cases hne
    · exact not_has_fds v k hhas
  match hctrl : s.ctrl with
  | .accept =>
    rw [hctrl] at hserving
    obtain ⟨-, -, hfds⟩ := hserving
    rw [hfds] at hhas
    exact absurd hhas (not_has_fds v k)
  | .connect cfd =>
    rw [hctrl] at hserving
    obtain ⟨-, u, -, hcfd, hfds⟩ := hserving
    rw [hfds] at hhas
    exact absurd hhas (hnot cfd u hcfd)
  | .sendmsg cfd sendFd =>
    rw [hctrl] at hserving
    obtain ⟨hconns, u, -, hcfd, hfd, hfds⟩ := hserving
    rw [hfds, Entries.has_add hfd] at hhas
    obtain heq | hhas := hhas
    · cases heq
      exact ⟨hconns.symm, cfd, sendFd, .inl rfl⟩
    · exact absurd hhas (hnot cfd u hcfd)
  | .closeSend cfd sendFd =>
    rw [hctrl] at hserving
    obtain ⟨-, hconns, u, m, hcfd, hm, hfd, hfds⟩ := hserving
    rw [hfds, Entries.has_add hfd] at hhas
    obtain heq | hhas := hhas
    · cases heq
      exact ⟨hm.trans hconns.symm, cfd, sendFd, .inr rfl⟩
    · exact absurd hhas (hnot cfd u hcfd)
  | .closeConn cfd =>
    rw [hctrl] at hserving
    obtain ⟨-, -, u, hcfd, hfds⟩ := hserving
    rw [hfds] at hhas
    exact absurd hhas (hnot cfd u hcfd)
  | .exited =>
    rw [hctrl] at hserving
    rw [show s.fds = .empty from hserving] at hhas
    exact absurd hhas (Entries.not_has_empty _)

/-- While the server lives, a client that waits for its message is in the backlog, or the server has the other end. -/
theorem Inv.eof (h : Inv v s cur) (hs : step v s (.recvEof u) = some t) : s.ctrl = .exited := by
  obtain ⟨⟨hbacklog, hopen⟩, hs⟩ := Option.ite_none_right_eq_some.1 hs
  obtain ⟨c, hc, hs⟩ := Option.bind_eq_some_iff.1 hs
  obtain ⟨d, hd, -⟩ := Option.map_eq_some_iff.1 hs
  obtain ⟨ufd, hctrl, hinbox⟩ : ∃ ufd, c.ctrl = .recvmsg ufd ∧ c.inbox = none := by
    dsimp only at hd
    split at hd
    · exact ⟨_, ‹_›, ‹_›⟩
    · cases hd
  refine Classical.byContradiction fun hrun => ?_
  have hlt := (List.getElem?_eq_some_iff.1 hc).1
  have hunsent : u ∉ s.sent := by
    have hrecv := h.receiving u c hc
    unfold Receiving at hrecv
    rw [hctrl] at hrecv
    obtain ⟨-, hu⟩ | ⟨k, hsome, -⟩ := hrecv.2.2
    · exact hu
    · rw [hinbox] at hsome
      cases hsome
  have hcur : cur = some u := by
    obtain hmem | hmem := h.placed hrun u hlt
    · obtain hmem | hmem := List.mem_append.1 hmem
      · exact Option.mem_toList.1 hmem
      · exact absurd hmem hbacklog
    · exact absurd hmem hunsent
  have hserving := h.serving
  rw [hcur] at hserving
  apply hopen
  match hsctrl : s.ctrl with
  | .connect cfd =>
    rw [hsctrl] at hserving
    obtain ⟨-, w, hw, hcfd, hfds⟩ := hserving
    cases hw
    refine ⟨cfd, hcfd.1, ?_⟩
    rw [hfds, Entries.add_self]
  | .sendmsg cfd sendFd =>
    rw [hsctrl] at hserving
    obtain ⟨-, w, hw, hcfd, hfd, hfds⟩ := hserving
    cases hw
    have hne : cfd ≠ sendFd := Entries.ne_of_none hfd (Entries.add_self ..)
    refine ⟨cfd, hcfd.1, ?_⟩
    rw [hfds, Entries.add_of_ne hne, Entries.add_self]
  | .accept | .closeSend _ _ | .closeConn _ =>
    rw [hsctrl] at hserving
    cases hserving.1
  | .exited => exact absurd hsctrl hrun

/-- **The server need not wait for `recvmsg`**: whatever comes when, a connection that it has sent stays open until the
client exits, it is open in no other process, and the server has closed its descriptors of it when it calls `accept`
again. As long as the server runs, no client is left without a message. -/
theorem passes {as : List Act} (hr : Steps.run (step v) (start v) as = some s) : Passed v s := by
  obtain ⟨cur, h⟩ := inv_run hr
  refine ⟨fun hctrl => ?_, h.nodup, fun k u c hk hc hlive => ?_, fun k u c hc hholds => ?_, fun k => h.freed,
    fun u c sendFd hc hctrl => ?_, fun u t => h.eof⟩
  · have hserving := h.serving
    rw [hctrl] at hserving
    exact hserving.2.2
  · exact ((h.receiving u c hc).holds_iff h.nodup hlive).2 hk
  · by_cases hctrl : c.ctrl = .exited
    · exact absurd hholds ((h.receiving u c hc).exited hctrl)
    · exact ((h.receiving u c hc).holds_iff h.nodup hctrl).1 hholds
  · have hrecv := h.receiving u c hc
    unfold Receiving at hrecv
    rw [hctrl] at hrecv
    exact hrecv.2.2

/-- The server listens on descriptor `3`. -/
def listening : Setup where
  openMax := 16
  lfd := 3
  inherited n := n < 3
  client _ n := n < 3

/-- The server has closed both descriptors and accepted a second client before the first one calls `recvmsg`; the second
one exits too early. -/
def twoClients : List Act :=
  [.start 3, .accept 4, .connect 5, .sendmsg, .close, .close, .start 3, .accept 4, .recvmsg 0 4, .connect 5, .exit 1,
    .closeUfd 0, .sendmsg]

theorem passes_twoClients : ∃ s, Steps.run (step listening) (start listening) twoClients = some s ∧
    s.clients.map Client.ctrl = [.loop 4, .exited] ∧ s.ctrl = .exited ∧ s.sent = [0] ∧ Passed listening s := by
  have hr : Steps.run (step listening) (start listening) twoClients = some _ := rfl
  exact ⟨_, hr, rfl, rfl, rfl, passes hr⟩

end SystemFunc.SendFd
