import Mathlib.Data.Finset.Order
import SystemFunc.Poll.Room

/-!
# What is read is ready

An entry that a client gets keeps its `revents`. Where the entry was polled with a negative descriptor these are `0`;
where it lies behind `nfds` they are what was in the array before `main`, and the loop over the entries comes to them in
the same iteration, if another client is ready. `onlyReady_iff` says that this is all: it happens in some run exactly if
the array holds a `POLLIN` from the third entry on.
-/

namespace SystemFunc.Poll

variable {s t : State} {a : Act} {garbage : List PollFd} {res : List UInt16} {p : PollFd} {base : Int} {i k : Nat}

/-! ## Arrays without a stale `POLLIN` -/

/-- The array that `main` finds has no `POLLIN` from the third entry on. -/
def Clean (garbage : List PollFd) : Prop := ∀ i p, 2 ≤ i → garbage[i]? = some p → ¬p.Readable

/-- The entries that the loop still comes to are as the last `poll` has reported them. -/
structure Fresh (garbage : List PollFd) (s : State) : Prop where
  inv : Inv garbage s
  listen : ∀ n, s.ctrl = .listen n → n ≤ s.nfds ∧
    ∀ i p, i < s.nfds → s.fds[i]? = some p → p.Readable → 0 ≤ p.fd ∧ p.fd ∈ s.reported
  scan : ∀ i, s.ctrl = .scan i → ∀ j p, i ≤ j → j < s.nfds → s.fds[j]? = some p → p.Readable → p.fd ∈ s.reported

theorem mem_readable {fds : List PollFd} (hp : p ∈ fds) (hreadable : p.Readable) : p.fd ∈ readable fds :=
  List.mem_map_of_mem (List.mem_filter.2 ⟨hp, decide_eq_true hreadable⟩)

/-- Only what is open is reported. -/
theorem nonneg_of_answer {revents : UInt16} (h : p.Answer revents) (hreadable : revents &&& POLLIN ≠ 0) :
    0 ≤ p.fd := by
  by_contra hneg
  rw [PollFd.Answer, if_pos (Int.not_le.1 hneg)] at h
  rw [h] at hreadable
  exact hreadable (by decide)

/-- After the listening socket, the loop comes to the other entries only if one of them was reported. -/
theorem afterListen_scan {n : Int} (h : afterListen n = .scan i) : 0 < n ∧ i = 1 := by
  unfold afterListen at h
  split at h
  · cases h
  · rename_i hn
    cases h
    exact ⟨Int.not_le.1 hn, rfl⟩

theorem afterListen_ne {n m : Int} : afterListen n ≠ .listen m := by
  unfold afterListen
  split <;> exact nofun

/-- `poll` reports every entry of which it says that it is readable. -/
theorem fresh_polled (hlen : res.length = s.nfds) (hans : ∀ q ∈ s.fds.zip res, q.1.Answer q.2)
    (hinv : Inv garbage (polled s res)) : Fresh garbage (polled s res) := by
  refine ⟨hinv, fun n hn => ?_, fun i hi => nomatch hi⟩
  cases hn
  refine ⟨Int.ofNat_le.2 (hlen ▸ List.countP_le_length), fun i q hi hq hreadable => ?_⟩
  have hmem : q ∈ (store s.fds res).take s.nfds :=
    List.mem_of_getElem? ((List.getElem?_take_of_lt hi).trans hq)
  refine ⟨?_, mem_readable hmem hreadable⟩
  obtain ⟨p, hp, rfl⟩ := Option.map_eq_some_iff.1 ((getElem?_store ..).symm.trans hq)
  obtain ⟨r, hr⟩ : ∃ r, res[i]? = some r := ⟨_, List.getElem?_eq_getElem (hlen ▸ hi)⟩
  rw [hr] at hreadable
  exact nonneg_of_answer (hans (p, r) (List.mem_of_getElem? (List.getElem?_zip_eq_some.2 ⟨hp, hr⟩))) hreadable

namespace Fresh

variable (h : Fresh garbage s)
include h

/-- The entry of a new client has no `POLLIN`, if the loop comes to it. -/
theorem connected {n cfd : Int} (hclean : Clean garbage) (hc : s.ctrl = .listen n)
    (hslot : s.fds[freeSlot s.fds]? = some p) (hinv : Inv garbage (connected s n p cfd)) :
    Fresh garbage (connected s n p cfd) := by
  obtain ⟨hn, hlisten⟩ := h.listen n hc
  have hneg := freeSlot_neg hslot
  have hle := h.inv.freeSlot_le hslot
  refine ⟨hinv, fun m hm => absurd hm afterListen_ne, fun i hi j q hij hj hq hreadable => ?_⟩
  obtain ⟨hmore, -⟩ := afterListen_scan hi
  rcases Slots.slot_set hq with ⟨rfl, rfl⟩ | ⟨hne, hq⟩
  · exfalso
    rcases Nat.lt_or_eq_of_le hle with hlt | heq
    · exact absurd (hlisten _ p hlt hslot hreadable).1 (Int.not_le.2 hneg)
    · rw [h.inv.untouched _ (Nat.le_of_eq heq.symm)] at hslot
      obtain ⟨g, hg, rfl⟩ := Option.map_eq_some_iff.1 hslot
      exact hclean _ g (by omega) hg hreadable
  · refine (hlisten j q ?_ hq hreadable).2
    dsimp only [Poll.connected] at hj
    split at hj <;> omega

theorem move (hclean : Clean garbage) (hm : Move s a t) : Fresh garbage t := by
  have hinv := h.inv.move hm
  cases hm with
  | interrupted hc => exact h
  | polled hc hlen hans => exact fresh_polled hlen hans hinv
  | quiet hc hready =>
    refine ⟨hinv, fun m hm => absurd hm afterListen_ne, fun i hi j q hij hj hq hreadable => ?_⟩
    exact ((h.listen _ hc).2 j q hj hq hreadable).2
  | connected hc hready hpos hnew hslot => exact h.connected hclean hc hslot hinv
  | skipped hc hi hp hr =>
    refine ⟨hinv, fun m hm => (nomatch hm), fun i' hi' j q hij => ?_⟩
    cases hi'
    exact h.scan _ hc j q (Nat.le_of_succ_le hij)
  | echoed hc hi hp hr =>
    refine ⟨hinv, fun m hm => (nomatch hm), fun i' hi' j q hij => ?_⟩
    cases hi'
    exact h.scan _ hc j q (Nat.le_of_succ_le hij)
  | closed hc hi hp hr =>
    refine ⟨hinv, fun m hm => (nomatch hm), fun i' hi' j q hij hj hq => ?_⟩
    cases hi'
    rcases Slots.slot_set hq with ⟨rfl, -⟩ | ⟨-, hq⟩
    · exact absurd hij (Nat.not_succ_le_self _)
    · exact h.scan _ hc j q (Nat.le_of_succ_le hij) hj hq
  | scanned hc hi => exact ⟨hinv, fun m hm => (nomatch hm), fun i' hi' => (nomatch hi')⟩

theorem onlyReady : OnlyReady (some s) := by
  rintro s' hs fd hfd
  cases hs
  unfold State.nextRead at hfd
  split at hfd
  · rename_i i hc
    split at hfd
    · rename_i hi
      obtain ⟨p, hp, rfl⟩ := Option.map_eq_some_iff.1 hfd
      obtain ⟨hslot, hreadable⟩ := Option.filter_eq_some_iff.1 hp
      exact h.scan i hc i p (Nat.le_refl i) hi hslot (of_decide_eq_true hreadable)
    · cases hfd
  · cases hfd

end Fresh

theorem fresh_started (h : Started garbage s) : Fresh garbage s := by
  have hinv := inv_started h
  obtain ⟨-, fd, -, -, hs⟩ := h
  have hc : s.ctrl = .poll := by rw [hs]; rfl
  refine ⟨hinv, fun n hn => ?_, fun i hi => ?_⟩
  · rw [hc] at hn
    cases hn
  · rw [hc] at hi
    cases hi

/-- Without a stale `POLLIN`, nothing is read that is not ready. -/
theorem along_onlyReady (h : Started garbage s) (hclean : Clean garbage) (as : List Act) :
    Steps.Along step OnlyReady (some s) as := by
  have hinit : ∀ t, some s = some t → Fresh garbage t := by
    intro t ht
    cases ht
    exact fresh_started h
  refine (Steps.along_inv (P := fun o => ∀ t, o = some t → Fresh garbage t) ?_ hinit as).mono ?_
  · rintro (_ | s) a o hs hstep t rfl
    · cases hstep
    · rcases step_eq_some hstep with ⟨t', ht, hact⟩ | ⟨hnone, -⟩
      · cases ht
        exact (hs s rfl).move hclean (act_move hact)
      · cases hnone
  · rintro (_ | s) hs
    · exact fun s hs => nomatch hs
    · exact (hs s rfl).onlyReady

/-! ## A stale `POLLIN` -/

theorem scan_data (hc : s.ctrl = .scan i) (hi : i < s.nfds) (hslot : s.fds[i]? = some p) (m : Nat) :
    act s (.scan (.data (.ok m))) = .ok { s with ctrl := .scan (i + 1) } := by
  simp only [act, hc]
  rw [scanSection, if_pos hi, hslot]
  dsimp only
  split <;> rfl

/-- The loop over the entries goes on, whatever is read. -/
theorem run_scans (h : Inv garbage s) (hc : s.ctrl = .scan i) {m : Nat} (hm : i + m ≤ s.nfds) :
    Steps.run step (some s) (List.replicate m (.scan (.data (.ok 0)))) =
      some (some { s with ctrl := .scan (i + m) }) := by
  induction m generalizing s i with
  | zero =>
    rw [Nat.add_zero, ← hc]
    rfl
  | succ m ih =>
    obtain ⟨p, hp⟩ := h.isSome (i := i) (Nat.lt_of_lt_of_le (by omega) h.nfds_le)
    have hact := scan_data hc (by omega) hp 0
    have hrest := ih (h.move (act_move hact)) rfl (by dsimp only; omega)
    have hcount : i + 1 + m = i + (m + 1) := by omega
    rw [hcount] at hrest
    have hstep : step (some s) (.scan (.data (.ok 0))) = some (some { s with ctrl := .scan (i + 1) }) := by
      rw [step, hact]
    exact Steps.run_cons.2 ⟨_, hstep, hrest⟩

/-- What is reported of the clients is open. -/
theorem Clients.reported_lt (h : Clients garbage base k (polled s res)) (hnfds : s.nfds = k + 1) :
    ∀ fd ∈ (polled s res).reported, fd < base + k := by
  intro fd hfd
  obtain ⟨q, hq, rfl⟩ := List.mem_map.1 hfd
  obtain ⟨j, hj⟩ := List.mem_iff_getElem?.1 (List.mem_filter.1 hq).1
  rw [List.getElem?_take, hnfds] at hj
  obtain ⟨hlt, hslot⟩ := Option.ite_none_right_eq_some.1 hj
  exact h.opened _ (h.used j q (Nat.le_of_lt_succ hlt) hslot).2.2

/-- `k + 1` clients connect, and one more while the first of them is ready. -/
def stale (base : Int) (k : Nat) : List Act :=
  connects base (k + 1) ++ [.poll (.ok (reports 2 (k + 1))), .listen (.ok (base + (k + 1 : Nat)))] ++
    List.replicate (k + 1) (.scan (.data (.ok 0)))

/-- `Read` is called on the last one. -/
theorem run_stale (h : Started garbage s) (hpos : 0 ≤ base) (hbase : ∀ fd ∈ s.opened, fd < base)
    (hslot : garbage[k + 2]? = some p) (hreadable : p.Readable) :
    ∃ t, Steps.run step (some s) (stale base k) = some (some t) ∧ t.nextRead = some (base + (k + 1 : Nat)) ∧
      base + (k + 1 : Nat) ∉ t.reported := by
  have hk : k + 2 < OPEN_MAX := h.1 ▸ (List.getElem?_eq_some_iff.1 hslot).1
  obtain ⟨t, hrun, hc, ht⟩ := run_connects (k := k + 1) h hpos hbase (by omega)
  obtain ⟨hpoll, hlisten, hready, hu⟩ := ht.run_poll (m := 2) hc (by decide) (by omega)
  obtain ⟨q, hq, hact, hv⟩ := hu.listen hlisten hready hk
  generalize hw : connected (polled t (reports 2 (k + 1))) 2 q (base + (k + 1 : Nat)) = w at hv
  have hstep : step (some (polled t (reports 2 (k + 1)))) (.listen (.ok (base + (k + 1 : Nat)))) = some (some w) := by
    rw [step, hact, ← hw]
    rfl
  have hctrl : w.ctrl = .scan 1 := by
    rw [← hw]
    rfl
  have hscans := run_scans (m := k + 1) hv.inv hctrl (by rw [hv.nfds]; omega)
  have hfree := hu.freeSlot_eq (Nat.lt_of_succ_lt hk)
  -- the entry is as it was before `main`
  have hentry : ∃ e, w.fds[k + 2]? = some e ∧ e.fd = base + (k + 1 : Nat) ∧ e.Readable := by
    rw [hu.inv.untouched (k + 2) (Nat.le_of_eq hu.nfds), hslot] at hq
    cases hq
    refine ⟨{ p with fd := base + (k + 1 : Nat), events := POLLIN }, ?_, rfl, hreadable⟩
    rw [← hw, connected, hfree]
    exact List.getElem?_set_self (by rw [hu.inv.length]; exact hk)
  obtain ⟨e, he, hfd, hread⟩ := hentry
  refine ⟨{ w with ctrl := .scan (1 + (k + 1)) }, ?_, ?_, ?_⟩
  · refine Steps.run_append.2 ⟨_, Steps.run_append.2 ⟨_, hrun, ?_⟩, hscans⟩
    exact Steps.run_cons.2 ⟨_, hpoll, Steps.run_cons.2 ⟨_, hstep, rfl⟩⟩
  · have hnfds := hv.nfds
    have hfilter : (some e).filter (·.Readable) = some e := Option.filter_eq_some_iff.2 ⟨rfl, decide_eq_true hread⟩
    dsimp only [State.nextRead]
    rw [if_pos (by omega), Nat.add_comm 1, he, hfilter, ← hfd]
    rfl
  · intro hmem
    have hreported : base + (k + 1 : Nat) ∈ (polled t (reports 2 (k + 1))).reported := by
      rw [← hw] at hmem
      exact hmem
    exact Int.lt_irrefl _ (hu.reported_lt ht.nfds _ hreported)

/-- **What is read is ready**, in every run, exactly if the array that `main` finds has no `POLLIN` from the third entry
on. -/
theorem onlyReady_iff (h : Started garbage s) :
    (∀ as, Steps.Along step OnlyReady (some s) as) ↔
      ∀ i p, 2 ≤ i → garbage[i]? = some p → ¬p.Readable := by
  constructor
  · intro hall i p hi hslot hreadable
    obtain ⟨k, rfl⟩ := Nat.exists_eq_add_of_le' hi
    obtain ⟨b, hb⟩ := s.opened.exists_le
    have hbase : ∀ fd ∈ s.opened, fd < (b.natAbs : Int) + 1 := by
      intro fd hfd
      have hle := hb fd hfd
      omega
    obtain ⟨t, hrun, hread, hnot⟩ := run_stale h (by omega) hbase hslot hreadable
    exact hnot ((hall _).last hrun t rfl _ hread)
  · exact along_onlyReady h

/-- For an array of zeros. -/
theorem onlyReady_iff_zeros : Started zeros (start 3 {0, 1, 2, 3} zeros) ∧
    ∀ as, Steps.Along step OnlyReady (some (start 3 {0, 1, 2, 3} zeros)) as := by
  refine ⟨started_zeros, (onlyReady_iff started_zeros).2 fun i p _ hslot => ?_⟩
  rw [List.eq_of_mem_replicate (List.mem_of_getElem? hslot)]
  decide

/-- The third entry has a `POLLIN` before `main`. -/
def oneStale : List PollFd := zeros.set 2 ⟨0, 0, POLLIN⟩

/-- The client that has the descriptor `5` is read when it has just come. -/
theorem reads_idle : Started oneStale (start 3 {0, 1, 2, 3} oneStale) ∧
    ¬Steps.Along step OnlyReady (some (start 3 {0, 1, 2, 3} oneStale))
      [.poll (.ok [POLLIN]), .listen (.ok 4), .poll (.ok [POLLIN, POLLIN]), .listen (.ok 5),
        .scan (.data (.ok 0))] := by
  have hstarted : Started oneStale (start 3 {0, 1, 2, 3} oneStale) :=
    ⟨(List.length_set ..).trans List.length_replicate, 3, by decide, by decide, rfl⟩
  have hslot : oneStale[2]? = some ⟨0, 0, POLLIN⟩ := by decide +kernel
  have hpos : (0 : Int) ≤ 4 := by decide
  obtain ⟨t, hrun, hread, hnot⟩ := run_stale hstarted hpos (by decide) hslot (by decide)
  exact ⟨hstarted, fun halong => hnot (halong.last hrun t rfl _ hread)⟩

end SystemFunc.Poll
