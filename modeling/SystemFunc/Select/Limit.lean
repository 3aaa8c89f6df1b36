import SystemFunc.Select.Dispatch

/-!
# Descriptors that do not fit

Here `accept` answers with the lowest descriptor that is not open, however large it is. `handler_tcp_new_connect` only
looks for a free slot of `client_list`. There are as many slots as descriptors that fit into a set, and not all of these
are clients, so that a slot is always free (`free_slot`) and no connection is ever refused. The macros of `fd_set` only
get what fits exactly as long as fewer than `FD_SETSIZE` descriptors are open before every `accept`
(`defined_iff_room`).
-/

namespace SystemFunc.Select

/-- The descriptors below `n`. -/
def below (n : Nat) : Finset Int := (Finset.range n).image Int.ofNat

/-- The lowest descriptor that is not open. -/
def Lowest (opened : Finset Int) (fd : Int) : Prop := 0 ≤ fd ∧ fd ∉ opened ∧ below fd.toNat ⊆ opened

instance : DecidableRel Lowest := fun opened fd =>
  inferInstanceAs (Decidable (0 ≤ fd ∧ fd ∉ opened ∧ below fd.toNat ⊆ opened))

namespace Limit

/-- The loop with this `accept`. -/
def act (s : State) (a : Act) : Except Stop State :=
  match s.ctrl, a with
  | .listen nreadys, .listen accepted => listenSection Lowest s nreadys accepted
  | _, a => Select.act s a

/-- After something undefined, there is no state. -/
def step : Option State → Act → Option (Option State)
  | none, _ => none
  | some s, a =>
    match act s a with
    | .ok t => some (some t)
    | .error .undefined => some none
    | .error _ => none

/-- Before the first `select`: the standard descriptors and the sockets are open. -/
structure Started (s : State) : Prop where
  init : Init s
  opened : s.server.opened = {0, 1, 2, s.server.tcpSocket, s.server.udpSocket}

/-- The listening socket is ready. -/
def Ready (s : State) : Prop := s.server.tcpSocket ≠ 0 ∧ s.server.tcpSocket ∈ s.runRSet

instance (s : State) : Decidable (Ready s) :=
  inferInstanceAs (Decidable (s.server.tcpSocket ≠ 0 ∧ s.server.tcpSocket ∈ s.runRSet))

/-- Where `accept` is called, fewer than `FD_SETSIZE` descriptors are open. -/
def HasRoom : Option State → Act → Prop
  | some s, .listen _ => Ready s → (s.server.opened.card : Int) < FD_SETSIZE
  | _, _ => True

instance : ∀ o, DecidablePred (HasRoom o)
  | some s, .listen _ => inferInstanceAs (Decidable (Ready s → (s.server.opened.card : Int) < FD_SETSIZE))
  | some _, .select _ | some _, .scan _ | some _, .udp _ _ | none, _ => isTrue trivial

/-- The invariant, as long as all descriptors fit. -/
structure Good (s : State) : Prop where
  inv : Inv s
  opened : ∀ fd ∈ s.server.opened, InRange fd

variable {s t : State} {server server' : Server} {opened : Finset Int} {cfd n : Int} {a : Act}

/-! ## What is open -/

theorem mem_below {fd : Int} {m : Nat} : fd ∈ below m ↔ 0 ≤ fd ∧ fd < m := by
  rw [below, Finset.mem_image]
  constructor
  · rintro ⟨k, hk, rfl⟩
    exact ⟨Int.natCast_nonneg k, Int.ofNat_lt.2 (Finset.mem_range.1 hk)⟩
  · rintro ⟨hpos, hlt⟩
    exact ⟨fd.toNat, Finset.mem_range.2 (by omega), Int.toNat_of_nonneg hpos⟩

theorem card_below (m : Nat) : (below m).card = m := by
  rw [below, Finset.card_image_of_injective _ Int.ofNat_injective, Finset.card_range]

/-- The descriptors that fit, which are as many as the slots. -/
theorem mem_fits {fd : Int} : fd ∈ below MAX_TCP_CLIENT ↔ InRange fd := mem_below

/-- The lowest descriptor that is not open fits, where there is room. -/
theorem lowest_inRange_iff (hopened : ∀ fd ∈ opened, InRange fd) (hlow : Lowest opened cfd) :
    InRange cfd ↔ (opened.card : Int) < FD_SETSIZE := by
  obtain ⟨hpos, hclosed, hbelow⟩ := hlow
  have hsub : opened ⊆ below MAX_TCP_CLIENT := fun fd hfd => mem_fits.2 (hopened fd hfd)
  have hcard : ((below MAX_TCP_CLIENT).card : Int) = FD_SETSIZE := by rw [card_below]; rfl
  constructor
  · intro hrange
    have hproper := (Finset.ssubset_iff_of_subset hsub).2 ⟨cfd, mem_fits.2 hrange, hclosed⟩
    have hlt := Finset.card_lt_card hproper
    omega
  · intro hlt
    have hlt' : opened.card < (below MAX_TCP_CLIENT).card := by omega
    obtain ⟨c, hc, hfree⟩ := Finset.exists_mem_notMem_of_card_lt_card hlt'
    obtain ⟨hc0, hc⟩ := mem_fits.1 hc
    refine ⟨hpos, Int.lt_of_le_of_lt (Int.not_lt.1 fun hcfd => hfree ?_) hc⟩
    exact hbelow (mem_below.2 ⟨hc0, by omega⟩)

/-- The slots are not used up: the clients and the listening socket are different descriptors that fit. -/
theorem free_slot (h : server.Inv) (htcp : server.tcpSocket ≠ 0) :
    server.clientList.findIdx (fun c => c < 0) < MAX_TCP_CLIENT := by
  rw [← h.length]
  by_contra hfull
  have hclient : ∀ fd ∈ server.clientList, 0 ≤ fd := by
    intro fd hfd
    by_contra hneg
    exact hfull (List.findIdx_lt_length_of_exists ⟨fd, hfd, by simpa using hneg⟩)
  have hnodup : server.clientList.Nodup := by
    refine List.nodup_iff_getElem?_ne_getElem?.2 fun i j hij hj heq => ?_
    have hslot := List.getElem?_eq_getElem hj
    have hi := h.table.distinct i j _ (heq.trans hslot) hslot (hclient _ (List.getElem_mem hj))
    omega
  have hsub : server.clientList.toFinset ⊆ (below MAX_TCP_CLIENT).erase server.tcpSocket := by
    intro fd hfd
    rw [List.mem_toFinset] at hfd
    obtain ⟨j, hj⟩ := List.mem_iff_getElem?.1 hfd
    have hrange := h.inRange fd (h.mem_allRSet hj (hclient fd hfd))
    refine Finset.mem_erase.2 ⟨?_, mem_fits.2 hrange⟩
    rintro rfl
    exact h.apart j _ hj hrange.1 ⟨htcp, .inl rfl⟩
  have hsocket : server.tcpSocket ∈ below MAX_TCP_CLIENT :=
    mem_fits.2 (h.inRange _ ((h.table.allRSet _).2 (.inl ⟨htcp, .inl rfl⟩)))
  have hle := Finset.card_le_card hsub
  have hpos := Finset.card_pos.2 ⟨_, hsocket⟩
  rw [List.toFinset_card_of_nodup hnodup, h.length, Finset.card_erase_of_mem hsocket] at hle
  rw [card_below] at hle hpos
  omega

/-! ## The handlers -/

/-- Where there is room, this is what the table was made for. -/
theorem connect_room (hopened : ∀ fd ∈ server.opened, InRange fd) (hroom : (server.opened.card : Int) < FD_SETSIZE)
    (accepted : Except Nat Int) : handlerTcpNewConnect Lowest server accepted = .error .disabled ∨
      handlerTcpNewConnect Lowest server accepted = handlerTcpNewConnect Small server accepted := by
  cases accepted with
  | error errno => exact .inr rfl
  | ok cfd =>
    rw [handlerTcpNewConnect, handlerTcpNewConnect]
    by_cases hlow : Lowest server.opened cfd
    · have hnew : Small server.opened cfd := ⟨(lowest_inRange_iff hopened hlow).2 hroom, hlow.2.1⟩
      rw [if_pos hlow, if_pos hnew]
      exact .inr rfl
    · rw [if_neg hlow]
      exact .inl rfl

theorem connect_fits (h : server.Inv) (htcp : server.tcpSocket ≠ 0) (hlow : Lowest server.opened cfd)
    (hrange : InRange cfd) : ∃ server', handlerTcpNewConnect Lowest server (.ok cfd) = .ok server' ∧
      server'.tcpSocket = server.tcpSocket ∧ server'.opened = insert cfd server.opened := by
  have hslot := Nat.not_le.2 (free_slot h htcp)
  rw [handlerTcpNewConnect, if_pos hlow]
  dsimp only
  rw [if_neg hslot, addToFdSet, inRange_bind hrange]
  exact ⟨_, rfl, rfl, rfl⟩

/-- Where there is none, the descriptor does not fit. -/
theorem connect_full (h : server.Inv) (htcp : server.tcpSocket ≠ 0) (hopened : ∀ fd ∈ server.opened, InRange fd)
    (hfull : ¬(server.opened.card : Int) < FD_SETSIZE) (hlow : Lowest server.opened cfd) :
    handlerTcpNewConnect Lowest server (.ok cfd) = .error .undefined := by
  have hrange : ¬InRange cfd := fun hrange => hfull ((lowest_inRange_iff hopened hlow).1 hrange)
  have hslot := Nat.not_le.2 (free_slot h htcp)
  rw [handlerTcpNewConnect, if_pos hlow]
  dsimp only
  rw [if_neg hslot, addToFdSet, inRange, if_neg hrange]
  rfl

/-- Then `accept` does not come back. -/
theorem connect_full_ne (h : server.Inv) (htcp : server.tcpSocket ≠ 0) (hopened : ∀ fd ∈ server.opened, InRange fd)
    (hfull : ¬(server.opened.card : Int) < FD_SETSIZE) {accepted : Except Nat Int} :
    handlerTcpNewConnect Lowest server accepted ≠ .ok server' := by
  intro heq
  cases accepted with
  | error errno => cases heq
  | ok cfd =>
    by_cases hlow : Lowest server.opened cfd
    · rw [connect_full h htcp hopened hfull hlow] at heq
      cases heq
    · rw [handlerTcpNewConnect, if_neg hlow] at heq
      cases heq

/-- Only what fits is opened. -/
def OpensInRange (server server' : Server) : Prop :=
  ∀ fd ∈ server'.opened, fd ∈ server.opened ∨ InRange fd

theorem OpensInRange.refl (server : Server) : OpensInRange server server := fun _ hfd => .inl hfd

theorem connect_opens {accepted : Except Nat Int}
    (h : handlerTcpNewConnect Small server accepted = .ok server') : OpensInRange server server' := by
  cases accepted with
  | error errno => cases h
  | ok cfd =>
    rw [handlerTcpNewConnect] at h
    split at h
    · rename_i hnew
      dsimp only at h
      split at h
      · cases h
        exact .refl server
      · rw [addToFdSet, inRange_bind hnew.1] at h
        cases h
        intro fd hfd
        rcases Finset.mem_insert.1 hfd with rfl | hfd
        · exact .inr hnew.1
        · exact .inl hfd
    · cases h

theorem close_opens (h : closeTcpConnect server cfd = .ok server') : OpensInRange server server' := by
  obtain ⟨removed, hremoved, hclosed⟩ := bind_eq_ok.1 h
  obtain ⟨-, -, heq⟩ := bind_eq_ok.1 hremoved
  cases heq
  cases hclosed
  exact fun fd hfd => .inl (Finset.mem_of_mem_erase hfd)

theorem read_opens {answer : ReadAnswer} (h : handlerTcpRead server cfd answer = .ok server') :
    OpensInRange server server' := by
  cases answer with
  | failed errno =>
    rw [handlerTcpRead] at h
    split at h
    · cases h
      exact .refl server
    · split at h
      · exact close_opens h
      · cases h
  | eof => exact close_opens h
  | data written =>
    cases written with
    | ok n =>
      cases h
      exact .refl server
    | error errno => cases h

theorem udp_opens {received sent : Except Nat Nat} (h : handlerUdpRead server received sent = .ok server') :
    OpensInRange server server' := by
  cases received with
  | error errno => cases h
  | ok n =>
    cases sent with
    | error errno => cases h
    | ok m =>
      cases h
      exact .refl server

/-! ## The loop -/

theorem listen_opens {accepted : Except Nat Int} (h : listenSection Small s n accepted = .ok t) :
    OpensInRange s.server t.server := by
  obtain ⟨ready, -, h⟩ := bind_eq_ok.1 h
  split at h
  · obtain ⟨server, hserver, h⟩ := bind_eq_ok.1 h
    cases h
    exact connect_opens hserver
  · cases h
    exact .refl s.server

theorem scan_opens {idx : Nat} {answer : ReadAnswer} (h : scanSection s n idx answer = .ok t) :
    OpensInRange s.server t.server := by
  unfold scanSection at h
  split at h
  · split at h
    · cases h
    · split at h
      · cases h
        exact .refl s.server
      · obtain ⟨ready, -, h⟩ := bind_eq_ok.1 h
        split at h
        · obtain ⟨server, hserver, h⟩ := bind_eq_ok.1 h
          cases h
          exact read_opens hserver
        · cases h
          exact .refl s.server
  · cases h
    exact .refl s.server

theorem udp_section_opens {received sent : Except Nat Nat} (h : udpSection s received sent = .ok t) :
    OpensInRange s.server t.server := by
  obtain ⟨ready, -, h⟩ := bind_eq_ok.1 h
  split at h
  · obtain ⟨server, hserver, h⟩ := bind_eq_ok.1 h
    cases h
    exact udp_opens hserver
  · cases h
    exact .refl s.server

theorem act_opens (h : Select.act s a = .ok t) : OpensInRange s.server t.server := by
  unfold Select.act at h
  split at h
  · split at h
    · cases h
      exact .refl s.server
    · cases h
  · split at h
    · cases h
      exact .refl s.server
    · cases h
  · exact listen_opens h
  · exact scan_opens h
  · exact udp_section_opens h
  · cases h

/-! ## Steps -/

theorem Good.next (h : Good s) (hopens : OpensInRange s.server t.server) (hinv : Inv t) : Good t :=
  ⟨hinv, fun fd hfd => (hopens fd hfd).elim (h.opened fd) id⟩

theorem Good.sockReady_tcp (h : Good s) : sockReady s.server.tcpSocket s.runRSet = .ok (decide (Ready s)) :=
  sockReady_eq fun hne => h.inv.server.inRange _ ((h.inv.server.table.allRSet _).2 (.inl ⟨hne, .inl rfl⟩))

/-- What is done when the listening socket is ready. -/
theorem listenSection_ready {Grants : Finset Int → Int → Prop} [DecidableRel Grants] (h : Good s) (hready : Ready s)
    (accepted : Except Nat Int) :
    listenSection Grants s n accepted = (handlerTcpNewConnect Grants s.server accepted >>= fun server => .ok { s with
      server := server
      ctrl := if n - 1 ≤ 0 then .select else .scan (n - 1) 0
      serviced := s.serviced ++ [s.server.tcpSocket] }) := by
  rw [listenSection, h.sockReady_tcp, ok_bind, decide_eq_true hready]
  rfl

/-- Where there is room, a step is one of those that the table was made for. -/
theorem act_room (h : Good s) (hroom : HasRoom (some s) a) :
    act s a = .error .disabled ∨ act s a = Select.act s a := by
  unfold act
  split
  · rename_i n accepted hc
    have hact : Select.act s (.listen accepted) = listenSection Small s n accepted := by simp only [Select.act, hc]
    rw [hact]
    by_cases hready : Ready s
    · rw [listenSection_ready h hready, listenSection_ready h hready]
      rcases connect_room h.opened (hroom hready) accepted with heq | heq
      · rw [heq]
        exact .inl rfl
      · rw [heq]
        exact .inr rfl
    · simp only [listenSection, h.sockReady_tcp, ok_bind, decide_eq_false hready]
      exact .inr rfl
  · exact .inr rfl

theorem act_good (h : Good s) (hroom : HasRoom (some s) a) : Safe Good (act s a) := by
  rcases act_room h hroom with heq | heq
  · rw [heq]
    exact safe_disabled
  · have hsafe := act_safe h.inv a
    rw [heq]
    cases hact : Select.act s a with
    | error e =>
      rw [hact] at hsafe
      exact hsafe
    | ok t =>
      rw [hact] at hsafe
      exact h.next (act_opens hact) hsafe

/-- Where there is none, `accept` does not come back to the loop. -/
theorem act_full (h : Good s) (hfull : ¬HasRoom (some s) a) : act s a ≠ .ok t := by
  intro hact
  cases a with
  | listen accepted =>
    obtain ⟨hready, hcard⟩ := Classical.not_imp.1 hfull
    cases hc : s.ctrl with
    | listen n =>
      simp only [act, hc] at hact
      rw [listenSection_ready h hready] at hact
      obtain ⟨server, hserver, -⟩ := bind_eq_ok.1 hact
      exact connect_full_ne h.inv.server hready.1 h.opened hcard hserver
    | select => simp [act, Select.act, hc] at hact
    | scan n idx => simp [act, Select.act, hc] at hact
    | udp n => simp [act, Select.act, hc] at hact
  | select res => exact hfull trivial
  | scan answer => exact hfull trivial
  | udp received sent => exact hfull trivial

/-! ## Runs -/

theorem step_eq_some {o : Option State} (h : step (some s) a = some o) :
    (∃ t, o = some t ∧ act s a = .ok t) ∨ o = none ∧ act s a = .error .undefined := by
  rw [step] at h
  split at h
  · rename_i t hact
    exact .inl ⟨t, (Option.some.inj h).symm, hact⟩
  · rename_i hact
    exact .inr ⟨(Option.some.inj h).symm, hact⟩
  · cases h

theorem good_init (h : Started s) : Good s := by
  have hinv := inv_init h.init
  refine ⟨hinv, fun fd hfd => ?_⟩
  have hsocket : ∀ sock, sock = s.server.tcpSocket ∨ sock = s.server.udpSocket → InRange sock := by
    intro sock hsock
    by_cases h0 : sock = 0
    · rw [h0]
      decide
    · exact hinv.server.inRange sock ((hinv.server.table.allRSet sock).2 (.inl ⟨h0, hsock⟩))
  rw [h.opened] at hfd
  simp only [Finset.mem_insert, Finset.mem_singleton] at hfd
  rcases hfd with rfl | rfl | rfl | hsock
  · decide
  · decide
  · decide
  · exact hsocket fd hsock

/-- **Every descriptor fits**, in every state of a run, exactly if there is room wherever `accept` is called in it. -/
theorem defined_iff_room (h : Started s) (as : List Act) :
    Steps.Along step (· ≠ none) (some s) as ↔ Steps.Meets step HasRoom (some s) as := by
  have hgood : ∀ t, some s = some t → Good t := fun t ht => Option.some.inj ht ▸ good_init h
  refine Steps.along_iff_meets_while (I := fun o => ∀ t, o = some t → Good t) ?_ ?_ ?_ hgood (Option.some_ne_none s)
  · rintro (_ | s) a o hI - ho hstep
    · cases hstep
    · have hs := hI s rfl
      rcases step_eq_some hstep with ⟨t, rfl, hact⟩ | ⟨hnone, -⟩
      · rintro t' ht'
        cases ht'
        by_cases hroom : HasRoom (some s) a
        · have hsafe := act_good hs hroom
          rw [hact] at hsafe
          exact hsafe
        · exact absurd hact (act_full hs hroom)
      · exact absurd hnone ho
  · rintro (_ | s) a o hI - hroom hstep
    · cases hstep
    · rcases step_eq_some hstep with ⟨t, rfl, -⟩ | ⟨-, hact⟩
      · exact Option.some_ne_none t
      · have hsafe := act_good (hI s rfl) hroom
        rw [hact] at hsafe
        exact absurd rfl hsafe
  · rintro (_ | s) a o hI - ho hstep
    · cases hstep
    · rcases step_eq_some hstep with ⟨t, rfl, hact⟩ | ⟨hnone, -⟩
      · by_contra hroom
        exact act_full (hI s rfl) hroom hact
      · exact absurd hnone ho

/-- The two connections of `twoConnections`, each with the lowest descriptor. -/
theorem defined_iff_room_two : (Steps.run step (some twoSockets) twoConnections).isSome ∧
    Steps.Along step (· ≠ none) (some twoSockets) twoConnections := by
  have hstart : Started twoSockets := ⟨twoSockets_init, by decide⟩
  exact ⟨by decide +kernel, (defined_iff_room hstart twoConnections).2 (by decide +kernel)⟩

/-! ## A thousand connections -/

/-- `main` has opened the socket `3`. -/
def oneSocket : State where
  server := { Server.blank 3 0 {0, 1, 2, 3} with allRSet := {3}, maxFd := 3 }
  ctrl := .select
  runRSet := ∅
  serviced := []

/-- Clients connect, and none leaves. -/
def connects : Nat → List Act
  | 0 => []
  | k + 1 => connects k ++ [.select (.ok {3}), .listen (.ok (4 + k))]

theorem oneSocket_started : Started oneSocket := by
  refine ⟨⟨⟨3, 0, {0, 1, 2, 3}, ?_, ?_, by decide, rfl⟩, rfl, rfl, rfl⟩, by decide⟩
  · exact fun _ => ⟨by decide, by decide⟩
  · exact fun h0 => absurd rfl h0

/-- After `k` connections. -/
structure Clients (k : Nat) (s : State) : Prop where
  good : Good s
  ctrl : s.ctrl = .select
  tcpSocket : s.server.tcpSocket = 3
  opened : s.server.opened = below (4 + k)

/-- After `select` has reported the listening socket. -/
def polled (s : State) : State := { s with ctrl := .listen 1, runRSet := {3}, serviced := [] }

variable {k : Nat}

theorem Clients.lowest (h : Clients k s) : Lowest s.server.opened (4 + k) := by
  rw [h.opened]
  refine ⟨by omega, fun hmem => ?_, fun fd hfd => ?_⟩
  · have hlt := (mem_below.1 hmem).2
    omega
  · obtain ⟨hpos, hlt⟩ := mem_below.1 hfd
    exact mem_below.2 ⟨hpos, by omega⟩

theorem Clients.card (h : Clients k s) : (s.server.opened.card : Int) = 4 + k := by
  rw [h.opened, card_below]
  omega

theorem Clients.ready (h : Clients k s) : Ready (polled s) := by
  have htcp : (polled s).server.tcpSocket = 3 := h.tcpSocket
  rw [Ready, htcp]
  exact ⟨by decide, Finset.mem_singleton_self 3⟩

theorem Clients.act_select (h : Clients k s) : act s (.select (.ok {3})) = .ok (polled s) := by
  have hsub : ({3} : Finset Int) ⊆ s.server.allRSet := by
    rw [Finset.singleton_subset_iff, h.good.inv.server.table.allRSet]
    exact .inl ⟨by decide, .inl h.tcpSocket.symm⟩
  simp only [act, Select.act, h.ctrl]
  rw [if_pos hsub]
  rfl

theorem Clients.good_polled (h : Clients k s) : Good (polled s) := by
  have hsafe := act_good (a := .select (.ok {3})) h.good trivial
  rw [h.act_select] at hsafe
  exact hsafe

/-- One more client, where its descriptor fits. -/
theorem Clients.act_listen (h : Clients k s) (hk : k < 1020) :
    ∃ t, act (polled s) (.listen (.ok (4 + k))) = .ok t ∧ Clients (k + 1) t := by
  have hgood := h.good_polled
  have hroom : (s.server.opened.card : Int) < FD_SETSIZE := by
    rw [h.card, FD_SETSIZE]
    omega
  have hrange := (lowest_inRange_iff h.good.opened h.lowest).2 hroom
  have hact : act (polled s) (.listen (.ok (4 + k))) = listenSection Lowest (polled s) 1 (.ok (4 + k)) := rfl
  obtain ⟨t, ht, htcp, hopened⟩ := connect_fits hgood.inv.server h.ready.1 h.lowest hrange
  have hsafe := act_good (a := .listen (.ok (4 + k))) hgood fun _ => hroom
  rw [hact, listenSection_ready hgood h.ready, ht] at hsafe ⊢
  refine ⟨_, rfl, hsafe, rfl, htcp.trans h.tcpSocket, hopened.trans ?_⟩
  have hold : (polled s).server.opened = below (4 + k) := h.opened
  rw [hold]
  ext fd
  rw [Finset.mem_insert, mem_below, mem_below]
  omega

/-- The first descriptor that does not. -/
theorem Clients.act_undefined (h : Clients 1020 s) : act (polled s) (.listen (.ok 1024)) = .error .undefined := by
  have hgood := h.good_polled
  have hfull : ¬(s.server.opened.card : Int) < FD_SETSIZE := by
    rw [h.card]
    decide
  have hlow : Lowest (polled s).server.opened 1024 := h.lowest
  have hact : act (polled s) (.listen (.ok 1024)) = listenSection Lowest (polled s) 1 (.ok 1024) := rfl
  rw [hact, listenSection_ready hgood h.ready, connect_full hgood.inv.server h.ready.1 hgood.opened hfull hlow]
  rfl

/-- `select` and then `accept`. -/
theorem Clients.run_round {accepted : Except Nat Int} {o : Option State} (h : Clients k s)
    (hlisten : step (some (polled s)) (.listen accepted) = some o) :
    Steps.run step (some s) [.select (.ok {3}), .listen accepted] = some o := by
  have hselect : step (some s) (.select (.ok {3})) = some (some (polled s)) := by rw [step, h.act_select]
  exact Steps.run_cons.2 ⟨_, hselect, Steps.run_cons.2 ⟨o, hlisten, rfl⟩⟩

theorem run_connects (hk : k ≤ 1020) :
    ∃ t, Steps.run step (some oneSocket) (connects k) = some (some t) ∧ Clients k t := by
  induction k with
  | zero => exact ⟨oneSocket, rfl, good_init oneSocket_started, rfl, rfl, by decide⟩
  | succ k ih =>
    obtain ⟨s, hrun, hs⟩ := ih (Nat.le_of_succ_le hk)
    obtain ⟨t, hact, ht⟩ := hs.act_listen hk
    have hlisten : step (some (polled s)) (.listen (.ok (4 + k))) = some (some t) := by rw [step, hact]
    exact ⟨t, Steps.run_append.2 ⟨some s, hrun, hs.run_round hlisten⟩, ht⟩

/-- `accept` returns `1024`, and that is passed to `FD_SET`. -/
theorem accepts_1024 : Started oneSocket ∧
    Steps.run step (some oneSocket) (connects 1020 ++ [.select (.ok {3}), .listen (.ok 1024)]) = some none := by
  obtain ⟨s, hrun, hs⟩ := run_connects (Nat.le_refl 1020)
  have hlisten : step (some (polled s)) (.listen (.ok 1024)) = some none := by rw [step, hs.act_undefined]
  exact ⟨oneSocket_started, Steps.run_append.2 ⟨some s, hrun, hs.run_round hlisten⟩⟩

end Limit

end SystemFunc.Select
