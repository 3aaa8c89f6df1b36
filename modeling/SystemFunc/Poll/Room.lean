import SystemFunc.Poll.Table

/-!
# Clients without a free entry

`main` closes the descriptor of a client that it cannot store, and then stores it all the same, behind the table.
`keeps_iff` says that this is all that goes wrong with the table, and `writes_1024` is a run to that point: `k` clients
connect, one after another, and are in the first entries (`Clients`).
-/

namespace SystemFunc.Poll

variable {s t : State} {a : Act} {garbage : List PollFd} {res : List UInt16} {p : PollFd} {base : Int} {k : Nat}

/-- **A step is as it should be exactly where an entry is free** for the client it takes. -/
theorem keeps_iff_hasRoom (h : Inv garbage s) {o : Option State} (hstep : step (some s) a = some o) :
    Keeps (some s) a ↔ HasRoom (some s) a := by
  constructor
  · intro hkeeps
    obtain ⟨t, rfl, -⟩ := hkeeps o hstep
    rcases step_eq_some hstep with ⟨t', ht, hact⟩ | ⟨hnone, -⟩
    · exact (act_move hact).hasRoom
    · cases hnone
  · intro hroom o' ho'
    rcases step_eq_some ho' with ⟨t, rfl, hact⟩ | ⟨-, hact⟩
    · refine ⟨t, rfl, (h.move (act_move hact)).nfds_le, ?_⟩
      rintro s' cfd hs rfl hready hfull
      cases hs
      exact absurd (hroom hready) hfull
    · exact absurd hact (h.ne_undefined hroom)

/-- **The table stays in order** in every step of a run, exactly if an entry is free wherever `accept` is called in
it. -/
theorem keeps_iff (h : Started garbage s) (as : List Act) :
    Steps.Meets step Keeps (some s) as ↔ Steps.Meets step HasRoom (some s) as := by
  refine Steps.meets_iff_meets (I := fun o => ∀ s, o = some s → Inv garbage s) ?_ ?_ ?_
  · rintro (_ | s) a o hI hkeeps hstep
    · cases hstep
    · rcases step_eq_some hstep with ⟨t, rfl, hact⟩ | ⟨rfl, -⟩
      · rintro t' ht'
        cases ht'
        exact (hI s rfl).move (act_move hact)
      · exact fun t ht => nomatch ht
  · rintro (_ | s) a o hI hstep
    · cases hstep
    · exact keeps_iff_hasRoom (hI s rfl) hstep
  · intro t ht
    cases ht
    exact inv_started h

/-- The socket `3` is open, and the array is filled with zeros. -/
def zeros : List PollFd := List.replicate OPEN_MAX ⟨0, 0, 0⟩

theorem started_zeros : Started zeros (start 3 {0, 1, 2, 3} zeros) :=
  ⟨List.length_replicate, 3, by decide, by decide, rfl⟩

/-- A client comes, sends something and leaves. -/
def visit : List Act :=
  [.poll (.ok [POLLIN]), .listen (.ok 4), .poll (.ok [0, POLLIN]), .listen (.error 0), .scan (.data (.ok 1)),
    .scan .eof, .poll (.ok [0, POLLIN]), .listen (.error 0), .scan .eof, .scan .eof]

theorem keeps_iff_visit : (Steps.run step (some (start 3 {0, 1, 2, 3} zeros)) visit).isSome ∧
    Steps.Meets step Keeps (some (start 3 {0, 1, 2, 3} zeros)) visit :=
  ⟨by decide +kernel, (keeps_iff started_zeros visit).2 (by decide +kernel)⟩

/-! ## Clients that stay -/

/-- With `k` clients, `poll` reports the first `m` descriptors. -/
def reports (m k : Nat) : List UInt16 := List.replicate m POLLIN ++ List.replicate (k + 1 - m) 0

/-- `k` clients connect, with the descriptors from `base` on. -/
def connects (base : Int) : Nat → List Act
  | 0 => []
  | k + 1 => connects base k ++ [.poll (.ok (reports 1 k)), .listen (.ok (base + k))]

/-- `k` clients have connected. -/
structure Clients (garbage : List PollFd) (base : Int) (k : Nat) (s : State) : Prop where
  inv : Inv garbage s
  nfds : s.nfds = k + 1
  pos : 0 ≤ base
  opened : ∀ fd ∈ s.opened, fd < base + k
  used : ∀ i p, i ≤ k → s.fds[i]? = some p → 0 ≤ p.fd ∧ p.events = POLLIN ∧ p.fd ∈ s.opened

namespace Clients

variable (h : Clients garbage base k s)
include h

/-- The next one comes after them. -/
theorem freeSlot_eq (hk : k < OPEN_MAX) : freeSlot s.fds = k + 1 := by
  have hlen := h.inv.length
  apply Nat.le_antisymm
  · by_cases hfull : k + 1 < OPEN_MAX
    · obtain ⟨p, hp⟩ := h.inv.isSome hfull
      obtain ⟨g, -, hg⟩ :=
        Option.map_eq_some_iff.1 ((h.inv.untouched (k + 1) (Nat.le_of_eq h.nfds)).symm.trans hp)
      have hneg : p.fd < 0 := by
        rw [← hg]
        exact (by decide : (-1 : Int) < 0)
      exact freeSlot_le (Nat.le_add_left 1 k) hp hneg
    · have hle : freeSlot s.fds ≤ s.fds.length := freeSlot_le_length (by omega)
      omega
  · by_contra hlt
    obtain ⟨p, hp⟩ := h.inv.isSome (i := freeSlot s.fds) (by omega)
    have hpos := (h.used _ p (by omega) hp).1
    exact absurd (freeSlot_neg hp) (Int.not_lt.2 hpos)

/-- `poll` may report any of them. -/
theorem poll (hc : s.ctrl = .poll) (hlen : res.length = k + 1) (hres : ∀ r ∈ res, r = 0 ∨ r = POLLIN) :
    act s (.poll (.ok res)) = .ok (polled s res) ∧ Clients garbage base k (polled s res) := by
  have hans : ∀ q ∈ s.fds.zip res, q.1.Answer q.2 := by
    intro q hq
    obtain ⟨i, hi⟩ := List.mem_iff_getElem?.1 hq
    obtain ⟨hfd, hr⟩ := List.getElem?_zip_eq_some.1 hi
    have hle : i ≤ k := by
      have hlt := (List.getElem?_eq_some_iff.1 hr).1
      omega
    obtain ⟨hpos, hevents, -⟩ := h.used i q.1 hle hfd
    rw [PollFd.Answer, if_neg (Int.not_lt.2 hpos), hevents]
    rcases hres q.2 (List.mem_of_getElem? hr) with h0 | h0
    · rw [h0]
      decide
    · rw [h0]
      decide
  have hact : act s (.poll (.ok res)) = .ok (polled s res) := by
    simp only [act, hc]
    rw [pollSection, if_pos ⟨hlen.trans h.nfds.symm, hans⟩]
    rfl
  refine ⟨hact, h.inv.move (act_move hact), h.nfds, h.pos, h.opened, fun i q hi hq => ?_⟩
  obtain ⟨p, hp, rfl⟩ := Option.map_eq_some_iff.1 ((getElem?_store ..).symm.trans hq)
  exact h.used i p hi hp

/-- One more. -/
theorem listen {n : Int} (hc : s.ctrl = .listen n) (hready : Ready s) (hk : k + 1 < OPEN_MAX) :
    ∃ p, s.fds[k + 1]? = some p ∧ act s (.listen (.ok (base + k))) = .ok (connected s n p (base + k)) ∧
      Clients garbage base (k + 1) (connected s n p (base + k)) := by
  have hpos : 0 ≤ base + k := Int.add_nonneg h.pos (Int.natCast_nonneg k)
  have hnew : base + k ∉ s.opened := fun hmem => Int.lt_irrefl _ (h.opened _ hmem)
  have hfree := h.freeSlot_eq (Nat.lt_of_succ_lt hk)
  obtain ⟨q, hq⟩ := h.inv.isSome (i := 0) (by decide)
  obtain ⟨p, hp⟩ := h.inv.isSome hk
  have hact : act s (.listen (.ok (base + k))) = .ok (connected s n p (base + k)) := by
    simp only [act, hc]
    rw [listenSection, hq]
    dsimp only
    rw [if_pos ((ready_iff hq).1 hready)]
    exact newConnect_eq hpos hnew (hfree ▸ hp)
  have hopened : (connected s n p (base + k)).opened = insert (base + k) s.opened := if_neg (by omega)
  refine ⟨p, hp, hact, h.inv.move (act_move hact), ?_, h.pos, ?_, ?_⟩
  · dsimp only [connected]
    rw [hfree, h.nfds]
    exact if_pos (Nat.lt_succ_self _)
  · rw [hopened]
    intro fd hfd
    rcases Finset.mem_insert.1 hfd with rfl | hfd
    · omega
    · have hlt := h.opened fd hfd
      omega
  · rw [hopened]
    intro i q hi hq
    rcases Slots.slot_set hq with ⟨-, rfl⟩ | ⟨hne, hq⟩
    · exact ⟨hpos, rfl, Finset.mem_insert_self _ _⟩
    · obtain ⟨hq0, hevents, hmem⟩ := h.used i q (by omega) hq
      exact ⟨hq0, hevents, Finset.mem_insert_of_mem hmem⟩

/-- One more than there are entries. -/
theorem listen_full {n : Int} (hc : s.ctrl = .listen n) (hready : Ready s) (hk : k + 1 = OPEN_MAX) :
    act s (.listen (.ok (base + k))) = .error .undefined := by
  have hpos : 0 ≤ base + k := Int.add_nonneg h.pos (Int.natCast_nonneg k)
  have hnew : base + k ∉ s.opened := fun hmem => Int.lt_irrefl _ (h.opened _ hmem)
  have hfull : ¬Free s := by
    rw [free_iff, h.freeSlot_eq (by omega), h.inv.length]
    omega
  obtain ⟨q, hq⟩ := h.inv.isSome (i := 0) (by decide)
  simp only [act, hc]
  rw [listenSection, hq]
  dsimp only
  rw [if_pos ((ready_iff hq).1 hready)]
  exact newConnect_full hpos hnew hfull

/-- The listening socket is ready after `poll` has reported it. -/
theorem ready_polled (hres : res[0]? = some POLLIN) : Ready (polled s res) := by
  obtain ⟨p, hp⟩ := h.inv.isSome (i := 0) (by decide)
  have hslot : (polled s res).fds[0]? = some { p with revents := POLLIN } := by
    rw [polled, getElem?_store, hp, hres]
    rfl
  exact (ready_iff hslot).2 (by decide : POLLIN &&& POLLIN ≠ 0)

theorem run_poll {m : Nat} (hc : s.ctrl = .poll) (hm : 0 < m) (hmk : m ≤ k + 1) :
    step (some s) (.poll (.ok (reports m k))) = some (some (polled s (reports m k))) ∧
      (polled s (reports m k)).ctrl = .listen m ∧ Ready (polled s (reports m k)) ∧
        Clients garbage base k (polled s (reports m k)) := by
  have hlen : (reports m k).length = k + 1 := by
    rw [reports, List.length_append, List.length_replicate, List.length_replicate]
    omega
  have hres : ∀ r ∈ reports m k, r = 0 ∨ r = POLLIN := by
    intro r hr
    rcases List.mem_append.1 hr with hr | hr
    · exact .inr (List.eq_of_mem_replicate hr)
    · exact .inl (List.eq_of_mem_replicate hr)
  have hcount : (reports m k).countP (· ≠ 0) = m := by
    rw [reports, List.countP_append, List.countP_replicate, List.countP_replicate, if_pos (by decide),
      if_neg (by decide), Nat.add_zero]
  have hhead : (reports m k)[0]? = some POLLIN := by
    rw [reports, List.getElem?_append_left (by rwa [List.length_replicate]), List.getElem?_replicate_of_lt hm]
  obtain ⟨hact, hclients⟩ := h.poll hc hlen hres
  refine ⟨by rw [step, hact], ?_, h.ready_polled hhead, hclients⟩
  dsimp only [polled]
  rw [hcount]

end Clients

/-- The listening socket is open, and what is open is below `base`. -/
theorem clients_zero (h : Started garbage s) (hpos : 0 ≤ base) (hbase : ∀ fd ∈ s.opened, fd < base) :
    Clients garbage base 0 s := by
  have hinv := inv_started h
  obtain ⟨-, fd, hfd, hfd0, hs⟩ := h
  refine ⟨hinv, by rw [hs]; rfl, hpos, fun d hd => ?_, fun i p hi hp => ?_⟩
  · have hlt := hbase d hd
    omega
  · obtain rfl : i = 0 := Nat.le_zero.1 hi
    rw [hs] at hp
    dsimp only [start] at hp
    rw [List.getElem?_modify_eq] at hp
    obtain ⟨q, -, rfl⟩ := Option.map_eq_some_iff.1 hp
    exact ⟨hfd0, rfl, hfd⟩

theorem run_connects (h : Started garbage s) (hpos : 0 ≤ base) (hbase : ∀ fd ∈ s.opened, fd < base)
    (hk : k < OPEN_MAX) :
    ∃ t, Steps.run step (some s) (connects base k) = some (some t) ∧ t.ctrl = .poll ∧ Clients garbage base k t := by
  induction k with
  | zero =>
    refine ⟨s, rfl, ?_, clients_zero h hpos hbase⟩
    obtain ⟨-, fd, -, -, hs⟩ := h
    rw [hs]
    rfl
  | succ k ih =>
    obtain ⟨t, hrun, hc, ht⟩ := ih (Nat.lt_of_succ_lt hk)
    obtain ⟨hpoll, hlisten, hready, hu⟩ := ht.run_poll hc Nat.zero_lt_one (Nat.le_add_left 1 k)
    obtain ⟨p, -, hact, hv⟩ := hu.listen hlisten hready hk
    have hstep : step (some (polled t (reports 1 k))) (.listen (.ok (base + k))) =
        some (some (connected (polled t (reports 1 k)) 1 p (base + k))) := by
      rw [step, hact]
      rfl
    exact ⟨_, Steps.run_append.2 ⟨_, hrun, Steps.run_cons.2 ⟨_, hpoll, Steps.run_cons.2 ⟨_, hstep, rfl⟩⟩⟩, rfl, hv⟩

/-- The first client without an entry. -/
theorem connects_full (h : Started garbage s) (hpos : 0 ≤ base) (hbase : ∀ fd ∈ s.opened, fd < base)
    (hk : k + 1 = OPEN_MAX) :
    Steps.run step (some s) (connects base (k + 1)) = some none ∧
      ¬Steps.Meets step Keeps (some s) (connects base (k + 1)) := by
  obtain ⟨t, hrun, hc, ht⟩ := run_connects (k := k) h hpos hbase (by omega)
  obtain ⟨hpoll, hlisten, hready, hu⟩ := ht.run_poll hc Nat.zero_lt_one (Nat.le_add_left 1 k)
  have hfull : step (some (polled t (reports 1 k))) (.listen (.ok (base + k))) = some none := by
    rw [step, hu.listen_full hlisten hready hk]
  refine ⟨?_, fun hkeeps => ?_⟩
  · exact Steps.run_append.2 ⟨_, hrun, Steps.run_cons.2 ⟨_, hpoll, Steps.run_cons.2 ⟨_, hfull, rfl⟩⟩⟩
  · obtain ⟨-, hrest⟩ := hkeeps.rest hrun _ hpoll
    obtain ⟨v, hv, -⟩ := (hrest _ hfull).1 _ hfull
    cases hv

/-- `accept` returns `1027` for the client `1024`, and `fds[1024]` is written. -/
theorem writes_1024 : Started zeros (start 3 {0, 1, 2, 3} zeros) ∧
    Steps.run step (some (start 3 {0, 1, 2, 3} zeros)) (connects 4 1024) = some none ∧
      ¬Steps.Meets step Keeps (some (start 3 {0, 1, 2, 3} zeros)) (connects 4 1024) :=
  ⟨started_zeros, connects_full started_zeros (by decide) (by decide) rfl⟩

end SystemFunc.Poll
