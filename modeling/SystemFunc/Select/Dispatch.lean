import SystemFunc.Lib.Walk
import SystemFunc.Select.Table

/-!
# Every iteration services what is ready

The loop of `main` walks through the descriptors that `select` has reported: first the listening socket, then the slots
from some index on, then the UDP socket (`Left`). A descriptor that `accept` returns on the way was not open when
`select` answered, so it is not one of them; one that is closed has just been serviced. `nreadys` counts those that are
left, so that the loop goes back to `select` early only when there are none.
-/

namespace SystemFunc.Select

/-- The descriptors that the loop is still to come to. -/
def Left (s : Server) : Ctrl → Int → Prop
  | .select, _ => False
  | .listen _, fd => s.IsListening fd ∨ 0 ≤ fd ∧ fd ∈ s.clientList
  | .scan _ idx, fd => fd ≠ 0 ∧ fd = s.udpSocket ∨ ∃ j, idx ≤ j ∧ s.clientList[j]? = some fd
  | .udp _, fd => fd ≠ 0 ∧ fd = s.udpSocket

def Ctrl.nreadys : Ctrl → Option Int
  | .select => none
  | .listen n => some n
  | .scan n _ => some n
  | .udp n => some n

/-- The invariant. -/
structure Inv (s : State) : Prop where
  server : s.server.Inv
  pos : ∀ fd ∈ s.runRSet, 0 ≤ fd
  walk : Walk s.runRSet s.serviced (Left s.server s.ctrl)
  count : ∀ n, s.ctrl.nreadys = some n → n = s.runRSet.card - s.serviced.length
  asked : ∀ n, s.ctrl = .listen n → s.runRSet ⊆ s.server.allRSet

variable {s : State} {server t : Server} {run : Finset Int} {done : List Int} {n : Int} {idx : Nat} {cfd : Int}

theorem Server.SameSockets.isListening (h : server.SameSockets t) (fd : Int) :
    t.IsListening fd ↔ server.IsListening fd := by
  rw [Server.IsListening, Server.IsListening, h.1, h.2]

theorem sockReady_eq {sock : Int} (h : sock ≠ 0 → InRange sock) :
    sockReady sock run = .ok (decide (sock ≠ 0 ∧ sock ∈ run)) := by
  unfold sockReady
  split
  · rename_i hne
    rw [fdIsset_ok (h hne)]
    simp [hne]
  · rename_i heq
    simp [heq]

/-- Back at `select`. -/
theorem Inv.back (hserver : server.Inv) (hpos : ∀ fd ∈ run, 0 ≤ fd) (hwalk : Walk run done (Left server .select)) :
    Inv ⟨server, .select, run, done⟩ :=
  ⟨hserver, hpos, hwalk, (fun _ hm => nomatch hm), (fun _ hm => nomatch hm)⟩

/-- Further on in the loop. -/
theorem Inv.goOn {c : Ctrl} (hserver : server.Inv) (hpos : ∀ fd ∈ run, 0 ≤ fd) (hwalk : Walk run done (Left server c))
    (hn : n = run.card - done.length) (hc : c.nreadys = some n) (hlisten : ∀ m, c ≠ .listen m) :
    Inv ⟨server, c, run, done⟩ := by
  refine ⟨hserver, hpos, hwalk, fun m hm => ?_, fun m hm => absurd hm (hlisten m)⟩
  rw [hc] at hm
  cases hm
  exact hn

/-- Going on, or back to `select` when `nreadys` says that nothing is left. -/
theorem Inv.next {c : Ctrl} (hserver : server.Inv) (hpos : ∀ fd ∈ run, 0 ≤ fd) (hwalk : Walk run done (Left server c))
    (hn : n = run.card - done.length) (hc : c.nreadys = some n) (hlisten : ∀ m, c ≠ .listen m) :
    Inv ⟨server, if n ≤ 0 then .select else c, run, done⟩ := by
  split
  · have hnone : Walk run done (Left server .select) := by
      apply hwalk.congr
      intro fd hfd
      exact iff_of_false (hwalk.none_left (by omega) fd hfd) id
    exact Inv.back hserver hpos hnone
  · exact Inv.goOn hserver hpos hwalk hn hc hlisten

/-- One more is serviced. -/
theorem count_visit (hn : n = run.card - done.length) (fd : Int) : n - 1 = run.card - (done ++ [fd]).length := by
  rw [List.length_append, List.length_singleton]
  omega

/-! ## The sections -/

theorem listen_safe (h : Inv s) (hc : s.ctrl = .listen n) (accepted : Except Nat Int) :
    Safe Inv (listenSection Small s n accepted) := by
  have hwalk := h.walk
  have hcount := h.count n (by rw [hc]; rfl)
  have hasked := h.asked n hc
  rw [hc] at hwalk
  have hrange : s.server.tcpSocket ≠ 0 → InRange s.server.tcpSocket := fun hne =>
    h.server.inRange _ ((h.server.table.allRSet _).2 (.inl ⟨hne, .inl rfl⟩))
  rw [listenSection, sockReady_eq hrange, ok_bind]
  by_cases hready : s.server.tcpSocket ≠ 0 ∧ s.server.tcpSocket ∈ s.runRSet
  · rw [decide_eq_true hready, if_pos rfl]
    apply (connect_safe h.server hready.1 accepted).bind
    intro t ht
    have hvisit := hwalk.visit hready.2 (.inl ⟨hready.1, .inl rfl⟩)
    have hscan : Walk s.runRSet (s.serviced ++ [s.server.tcpSocket]) (Left t (.scan (n - 1) 0)) := by
      apply hvisit.congr
      intro fd hfd
      constructor
      · rintro ⟨hl | ⟨hpos, hmem⟩, hne⟩
        · exact .inl ⟨hl.1, (hl.2.resolve_left hne).trans ht.sockets.2.symm⟩
        · obtain ⟨j, hj⟩ := List.mem_iff_getElem?.1 (ht.clients fd hmem hpos)
          exact .inr ⟨j, Nat.zero_le j, hj⟩
      · rintro (⟨hne, rfl⟩ | ⟨j, -, hj⟩)
        · rw [ht.sockets.2] at hne ⊢
          exact ⟨.inl ⟨hne, .inr rfl⟩, (h.server.sockets hready.1).symm⟩
        · have hnot := ht.inv.apart j fd hj (h.pos fd hfd)
          rw [ht.sockets.isListening] at hnot
          have hold := ((h.server.table.allRSet fd).1 (hasked hfd)).resolve_left hnot
          refine ⟨.inr hold, fun he => hnot ?_⟩
          exact ⟨he ▸ hready.1, .inl he⟩
    exact Inv.next ht.inv h.pos hscan (count_visit hcount _) rfl (fun m hm => nomatch hm)
  · rw [decide_eq_false hready, if_neg (by decide)]
    have hscan : Walk s.runRSet s.serviced (Left s.server (.scan n 0)) := by
      apply hwalk.congr
      intro fd hfd
      constructor
      · rintro (⟨hne, rfl | hudp⟩ | ⟨-, hmem⟩)
        · exact absurd ⟨hne, hfd⟩ hready
        · exact .inl ⟨hne, hudp⟩
        · obtain ⟨j, hj⟩ := List.mem_iff_getElem?.1 hmem
          exact .inr ⟨j, Nat.zero_le j, hj⟩
      · rintro (⟨hne, hudp⟩ | ⟨j, -, hj⟩)
        · exact .inl ⟨hne, .inr hudp⟩
        · exact .inr ⟨h.pos fd hfd, List.mem_of_getElem? hj⟩
    exact Inv.next h.server h.pos hscan hcount rfl (fun m hm => nomatch hm)

/-- A slot that holds nothing that is ready. -/
theorem walk_skip (hwalk : Walk run done (Left server (.scan n idx))) (hslot : server.clientList[idx]? = some cfd)
    (hskip : cfd ∉ run) : Walk run done (Left server (.scan n (idx + 1))) := by
  refine hwalk.congr fun fd hfd => or_congr_right ⟨?_, ?_⟩
  · rintro ⟨j, hle, hj⟩
    refine ⟨j, Nat.lt_of_le_of_ne hle ?_, hj⟩
    rintro rfl
    rw [hslot] at hj
    cases hj
    exact hskip hfd
  · rintro ⟨j, hle, hj⟩
    exact ⟨j, Nat.le_of_succ_le hle, hj⟩

/-- A slot whose descriptor is read from. -/
theorem walk_read (hserver : server.Inv) (hpos : ∀ fd ∈ run, 0 ≤ fd) (ht : Answered server idx t)
    (hwalk : Walk run done (Left server (.scan n idx))) (hslot : server.clientList[idx]? = some cfd)
    (hready : cfd ∈ run) : Walk run (done ++ [cfd]) (Left t (.scan (n - 1) (idx + 1))) := by
  have hvisit := hwalk.visit hready (.inr ⟨idx, Nat.le_refl idx, hslot⟩)
  have hapart := hserver.apart idx cfd hslot (hpos cfd hready)
  apply hvisit.congr
  intro fd hfd
  constructor
  · rintro ⟨hudp | ⟨j, hle, hj⟩, hne⟩
    · exact .inl ⟨hudp.1, hudp.2.trans ht.sockets.2.symm⟩
    · have hji : j ≠ idx := by
        rintro rfl
        exact hne (Option.some.inj (hj.symm.trans hslot))
      exact .inr ⟨j, Nat.lt_of_le_of_ne hle (Ne.symm hji), (ht.others j hji).trans hj⟩
  · rintro (⟨hne, hudp⟩ | ⟨j, hle, hj⟩)
    · have hudp' := hudp.trans ht.sockets.2
      refine ⟨.inl ⟨hne, hudp'⟩, fun he => hapart ?_⟩
      rw [← he]
      exact ⟨hne, .inr hudp'⟩
    · have hji : j ≠ idx := Nat.ne_of_gt hle
      rw [ht.others j hji] at hj
      refine ⟨.inr ⟨j, Nat.le_of_succ_le hle, hj⟩, ?_⟩
      rintro rfl
      exact hji (hserver.table.distinct j idx fd hj hslot (hpos fd hfd))

/-- Behind the last slot in use. -/
theorem walk_end (hserver : server.Inv) (hpos : ∀ fd ∈ run, 0 ≤ fd)
    (hwalk : Walk run done (Left server (.scan n idx))) (hend : ¬(server.tcpSocket ≠ 0 ∧ idx ≤ server.maxIdx)) :
    Walk run done (Left server (.udp n)) := by
  refine hwalk.congr fun fd hfd => ⟨fun hleft => hleft.resolve_right ?_, .inl⟩
  rintro ⟨j, hle, hj⟩
  have hfd' := hpos fd hfd
  have hmax := hserver.table.maxIdx j fd hj hfd'
  refine hend ⟨fun h0 => ?_, by omega⟩
  exact absurd (hserver.idle h0 j fd hj) (Int.not_lt.2 hfd')

theorem scan_safe (h : Inv s) (hc : s.ctrl = .scan n idx) (answer : ReadAnswer) :
    Safe Inv (scanSection s n idx answer) := by
  have hwalk := h.walk
  have hcount := h.count n (by rw [hc]; rfl)
  rw [hc] at hwalk
  unfold scanSection
  split
  · rename_i hloop
    have hidx : idx < s.server.clientList.length := by
      have hlt := h.server.maxIdx_lt
      rw [h.server.length]
      omega
    have hslot := List.getElem?_eq_getElem hidx
    generalize s.server.clientList[idx] = cfd at hslot
    rw [hslot]
    dsimp only
    split
    · rename_i hneg
      have hskip : cfd ∉ s.runRSet := fun hmem => absurd (h.pos cfd hmem) (by omega)
      exact Inv.goOn h.server h.pos (walk_skip hwalk hslot hskip) hcount rfl (fun m hm => nomatch hm)
    · rename_i hneg
      have hpos : 0 ≤ cfd := by omega
      rw [fdIsset_ok (h.server.inRange cfd (h.server.mem_allRSet hslot hpos)), ok_bind]
      by_cases hready : cfd ∈ s.runRSet
      · rw [decide_eq_true hready, if_pos rfl]
        apply (read_safe h.server hslot hpos answer).bind
        intro t ht
        have hscan := walk_read h.server h.pos ht hwalk hslot hready
        exact Inv.goOn ht.inv h.pos hscan (count_visit hcount cfd) rfl (fun m hm => nomatch hm)
      · rw [decide_eq_false hready, if_neg (by decide)]
        exact Inv.goOn h.server h.pos (walk_skip hwalk hslot hready) hcount rfl (fun m hm => nomatch hm)
  · rename_i hend
    exact Inv.next h.server h.pos (walk_end h.server h.pos hwalk hend) hcount rfl (fun m hm => nomatch hm)

theorem udp_section_safe (h : Inv s) (hc : s.ctrl = .udp n) (received sent : Except Nat Nat) :
    Safe Inv (udpSection s received sent) := by
  have hwalk := h.walk
  rw [hc] at hwalk
  have hrange : s.server.udpSocket ≠ 0 → InRange s.server.udpSocket := fun hne =>
    h.server.inRange _ ((h.server.table.allRSet _).2 (.inl ⟨hne, .inr rfl⟩))
  rw [udpSection, sockReady_eq hrange, ok_bind]
  by_cases hready : s.server.udpSocket ≠ 0 ∧ s.server.udpSocket ∈ s.runRSet
  · rw [decide_eq_true hready, if_pos rfl]
    apply (udp_safe received sent).bind
    intro t ht
    subst ht
    have hnone : Walk s.runRSet (s.serviced ++ [s.server.udpSocket]) (Left s.server .select) := by
      refine (hwalk.visit hready.2 ⟨hready.1, rfl⟩).congr fun fd hfd => ?_
      exact iff_of_false (fun hleft => hleft.2 hleft.1.2) id
    exact Inv.back h.server h.pos hnone
  · rw [decide_eq_false hready, if_neg (by decide)]
    have hnone : Walk s.runRSet s.serviced (Left s.server .select) := by
      refine hwalk.congr fun fd hfd => iff_of_false ?_ id
      rintro ⟨hne, rfl⟩
      exact hready ⟨hne, hfd⟩
    exact Inv.back h.server h.pos hnone

/-- The answer of `select`. -/
theorem select_safe (h : Inv s) (hsub : run ⊆ s.server.allRSet) :
    Inv { s with ctrl := .listen run.card, runRSet := run, serviced := [] } := by
  refine ⟨h.server, fun fd hfd => (h.server.inRange fd (hsub hfd)).1, ?_, ?_, fun m hm => hsub⟩
  · exact Walk.start fun fd hfd => (h.server.table.allRSet fd).1 (hsub hfd)
  · intro m hm
    cases hm
    simp

/-- **Every step** keeps the invariant, and does nothing undefined. -/
theorem act_safe (h : Inv s) (a : Act) : Safe Inv (act s a) := by
  unfold act
  split
  · split
    · exact h
    · exact safe_exit
  · split
    · rename_i hsub
      exact select_safe h hsub
    · exact safe_disabled
  · rename_i hc
    exact listen_safe h hc _
  · rename_i hc
    exact scan_safe h hc _
  · rename_i hc
    exact udp_section_safe h hc _ _
  · exact safe_disabled

/-! ## Runs -/

theorem inv_init (h : Init s) : Inv s := by
  obtain ⟨tcpSocket, udpSocket, opened, htcp, hudp, hne, hs⟩ := h.server
  have hnone : ∀ fd, fd ∉ s.runRSet := by simp [h.runRSet]
  refine ⟨start_inv htcp hudp hne hs, fun fd hfd => absurd hfd (hnone fd), ?_, ?_, ?_⟩
  · rw [h.serviced, h.ctrl, h.runRSet]
    exact Walk.start fun fd hfd => absurd hfd (Finset.notMem_empty fd)
  · rw [h.ctrl]
    exact fun m hm => nomatch hm
  · rw [h.ctrl]
    exact fun m hm => nomatch hm

theorem inv_reach (h : Steps.Reach Init step s) : Inv s := by
  apply Steps.Reach.inv ?_ ?_ h
  · exact fun s hs => inv_init hs
  · intro s a t hs hstep
    have hsafe := act_safe hs a
    cases hact : act s a with
    | error e =>
      rw [step, hact] at hstep
      cases hstep
    | ok t' =>
      rw [step, hact] at hstep
      rw [hact] at hsafe
      cases hstep
      exact hsafe

theorem Inv.dispatched (h : Inv s) : Dispatched s := by
  refine ⟨h.walk.once, h.walk.reported, fun hc => ?_⟩
  have hwalk := h.walk
  rw [hc] at hwalk
  exact hwalk.all fun fd _ => id

/-- **The table and the dispatch**: in every reachable state the table is consistent, what has been serviced since
`select` was reported, and is serviced once; back at `select`, all that was reported has been. No step does anything
undefined. -/
theorem dispatched_reach (h : Steps.Reach Init step s) :
    Table s.server ∧ Dispatched s ∧ ∀ a, act s a ≠ .error .undefined := by
  have hinv := inv_reach h
  refine ⟨hinv.server.table, hinv.dispatched, fun a ha => ?_⟩
  have hsafe := act_safe hinv a
  rw [ha] at hsafe
  exact hsafe rfl

/-! ## Two connections -/

/-- `main` has opened the sockets `3` and `4`. -/
def twoSockets : State where
  server := { Server.blank 3 4 {0, 1, 2, 3, 4} with allRSet := {4, 3}, maxFd := 4 }
  ctrl := .select
  runRSet := ∅
  serviced := []

theorem twoSockets_init : Init twoSockets := by
  refine ⟨⟨3, 4, {0, 1, 2, 3, 4}, ?_, ?_, by decide, rfl⟩, rfl, rfl, rfl⟩
  · exact fun _ => ⟨by decide, by decide⟩
  · exact fun _ => ⟨by decide, by decide⟩

/-- In the second iteration, `accept` returns `6`, `5` is closed, and the UDP socket is ready. -/
def twoConnections : List Act :=
  [.select (.ok {3}), .listen (.ok 5), .select (.ok {3, 4, 5}), .listen (.ok 6), .scan .eof, .scan .eof, .scan .eof,
    .udp (.ok 1) (.ok 1)]

theorem dispatched_twoConnections : ∃ s, Steps.run step twoSockets twoConnections = some s ∧ s.serviced = [3, 5, 4] ∧
    s.server.clientList.take 2 = [-1, 6] ∧ Table s.server ∧ Dispatched s ∧ ∀ a, act s a ≠ .error .undefined := by
  have hrun : (Steps.run step twoSockets twoConnections).map
      (fun s => (s.serviced, s.server.clientList.take 2)) = some ([3, 5, 4], [-1, 6]) := by decide +kernel
  obtain ⟨s, hs, heq⟩ := Option.map_eq_some_iff.1 hrun
  obtain ⟨hserviced, hclients⟩ := Prod.mk.inj heq
  exact ⟨s, hs, hserviced, hclients, dispatched_reach ⟨twoSockets, twoConnections, twoSockets_init, hs⟩⟩

end SystemFunc.Select
