import SystemFunc.Lib.Slots
import SystemFunc.Select.Defs

/-!
# The table of the select server

`Server.Inv` is the table with what else the handlers rely on. A new descriptor goes to a free slot (`connect`), and one
that is closed leaves its slot (`disconnect`); `connect_safe`, `read_safe` and `udp_safe` say this of the handlers, for
everything that the kernel can answer.
-/

namespace SystemFunc.Select

open Slots

/-- The table, and what else the handlers rely on. -/
structure Server.Inv (s : Server) : Prop where
  table : Table s
  length : s.clientList.length = MAX_TCP_CLIENT
  maxIdx_lt : s.maxIdx < MAX_TCP_CLIENT
  inRange : ∀ fd ∈ s.allRSet, InRange fd
  isOpen : ∀ fd ∈ s.allRSet, fd ∈ s.opened
  apart : ∀ (idx : Nat) fd, s.clientList[idx]? = some fd → 0 ≤ fd → ¬s.IsListening fd
  idle : s.tcpSocket = 0 → ∀ (idx : Nat) fd, s.clientList[idx]? = some fd → fd < 0
  sockets : s.tcpSocket ≠ 0 → s.tcpSocket ≠ s.udpSocket

/-- The sockets stay. -/
def Server.SameSockets (s t : Server) : Prop := t.tcpSocket = s.tcpSocket ∧ t.udpSocket = s.udpSocket

variable {s t : Server} {idx : Nat} {cfd : Int}

theorem inRange_bind {β : Type} {fd : Int} (h : InRange fd) (f : Unit → Except Stop β) :
    (inRange fd >>= f) = f () := by
  rw [inRange, if_pos h]
  rfl

theorem fdIsset_ok {fd : Int} {set : Finset Int} (h : InRange fd) : fdIsset fd set = .ok (decide (fd ∈ set)) := by
  rw [fdIsset, inRange_bind h]
  rfl

/-! ## The handlers -/

theorem Server.Inv.mem_allRSet (h : s.Inv) (hslot : s.clientList[idx]? = some cfd) (hpos : 0 ≤ cfd) :
    cfd ∈ s.allRSet := (h.table.allRSet cfd).2 (.inr ⟨hpos, List.mem_of_getElem? hslot⟩)

/-- A new descriptor in a free slot. -/
theorem Server.Inv.connect {v : Int} (h : s.Inv) (htcp : s.tcpSocket ≠ 0) (hslot : s.clientList[idx]? = some v)
    (hv : v < 0) (hrange : InRange cfd) (hnew : cfd ∉ s.opened) :
    Inv { s with
      clientList := s.clientList.set idx cfd
      maxIdx := if idx > s.maxIdx then idx else s.maxIdx
      opened := insert cfd s.opened
      allRSet := insert cfd s.allRSet
      maxFd := if cfd > s.maxFd then cfd else s.maxFd } := by
  have hout : cfd ∉ s.allRSet := fun hmem => hnew (h.isOpen cfd hmem)
  have hnot : ∀ j, s.clientList[j]? ≠ some cfd := fun j hj => hout (h.mem_allRSet hj hrange.1)
  have hidx : idx < MAX_TCP_CLIENT := h.length ▸ (List.getElem?_eq_some_iff.1 hslot).1
  refine ⟨⟨?_, ?_, ?_, ?_, ?_⟩, ?_, ?_, ?_, ?_, ?_, ?_, h.sockets⟩
  · intro j fd hj
    rcases slot_set hj with ⟨-, rfl⟩ | ⟨-, hj⟩
    · exact .inr hrange.1
    · exact h.table.entry j fd hj
  · intro i j fd hi hj hpos
    rcases slot_set hi with ⟨rfl, rfl⟩ | ⟨-, hi'⟩ <;> rcases slot_set hj with ⟨rfl, hfd⟩ | ⟨-, hj'⟩
    · rfl
    · exact absurd hj' (hnot j)
    · subst hfd
      exact absurd hi' (hnot i)
    · exact h.table.distinct i j fd hi' hj' hpos
  · intro fd
    rw [Finset.mem_insert, h.table.allRSet]
    constructor
    · rintro (rfl | hl | ⟨hpos, hfd⟩)
      · exact .inr ⟨hrange.1, List.mem_set (List.getElem?_eq_some_iff.1 hslot).1 fd⟩
      · exact .inl hl
      · have hne : fd ≠ v := by omega
        exact .inr ⟨hpos, mem_set_of_ne hslot hne hfd⟩
    · rintro (hl | ⟨hpos, hfd⟩)
      · exact .inr (.inl hl)
      · rcases List.mem_or_eq_of_mem_set hfd with hfd | rfl
        · exact .inr (.inr ⟨hpos, hfd⟩)
        · exact .inl rfl
  · intro fd hfd
    show fd ≤ if cfd > s.maxFd then cfd else s.maxFd
    rcases Finset.mem_insert.1 hfd with rfl | hfd
    · split <;> omega
    · have hle := h.table.maxFd fd hfd
      split <;> omega
  · intro j fd hj hpos
    show (j : Int) ≤ if (idx : Int) > s.maxIdx then (idx : Int) else s.maxIdx
    rcases slot_set hj with ⟨rfl, -⟩ | ⟨-, hj⟩
    · split <;> omega
    · have hle := h.table.maxIdx j fd hj hpos
      split <;> omega
  · exact (List.length_set ..).trans h.length
  · have hlt := h.maxIdx_lt
    show (if (idx : Int) > s.maxIdx then (idx : Int) else s.maxIdx) < MAX_TCP_CLIENT
    split <;> omega
  · intro fd hfd
    rcases Finset.mem_insert.1 hfd with rfl | hfd
    · exact hrange
    · exact h.inRange fd hfd
  · intro fd hfd
    rcases Finset.mem_insert.1 hfd with rfl | hfd
    · exact Finset.mem_insert_self _ _
    · exact Finset.mem_insert_of_mem (h.isOpen fd hfd)
  · intro j fd hj hpos hl
    rcases slot_set hj with ⟨-, rfl⟩ | ⟨-, hj⟩
    · exact hout ((h.table.allRSet fd).2 (.inl hl))
    · exact h.apart j fd hj hpos hl
  · exact fun h0 => absurd h0 htcp

/-- A descriptor that is closed leaves its slot. -/
theorem Server.Inv.disconnect (h : s.Inv) (hslot : s.clientList[idx]? = some cfd) (hpos : 0 ≤ cfd) :
    Inv { s with
      allRSet := s.allRSet.erase cfd
      clientList := s.clientList.set idx (-1)
      opened := s.opened.erase cfd } := by
  have hnot : ∀ (j : Nat) fd, (s.clientList.set idx (-1))[j]? = some fd → 0 ≤ fd →
      s.clientList[j]? = some fd ∧ fd ≠ cfd := by
    intro j fd hj hfd
    rcases slot_set hj with ⟨-, rfl⟩ | ⟨hne, hj⟩
    · exact absurd hfd (by decide)
    · refine ⟨hj, fun he => hne ?_⟩
      subst he
      exact h.table.distinct j idx fd hj hslot hpos
  refine ⟨⟨?_, ?_, ?_, ?_, ?_⟩, ?_, h.maxIdx_lt, ?_, ?_, ?_, ?_, h.sockets⟩
  · intro j fd hj
    rcases slot_set hj with ⟨-, rfl⟩ | ⟨-, hj⟩
    · exact .inl rfl
    · exact h.table.entry j fd hj
  · intro i j fd hi hj hfd
    exact h.table.distinct i j fd (hnot i fd hi hfd).1 (hnot j fd hj hfd).1 hfd
  · intro fd
    rw [Finset.mem_erase, h.table.allRSet]
    constructor
    · rintro ⟨hne, hl | ⟨hfd, hmem⟩⟩
      · exact .inl hl
      · exact .inr ⟨hfd, mem_set_of_ne hslot hne hmem⟩
    · rintro (hl | ⟨hfd, hmem⟩)
      · exact ⟨fun he => h.apart idx cfd hslot hpos (he ▸ hl), .inl hl⟩
      · obtain ⟨j, hj⟩ := List.mem_iff_getElem?.1 hmem
        obtain ⟨hj, hne⟩ := hnot j fd hj hfd
        exact ⟨hne, .inr ⟨hfd, List.mem_of_getElem? hj⟩⟩
  · exact fun fd hfd => h.table.maxFd fd (Finset.mem_of_mem_erase hfd)
  · exact fun j fd hj hfd => h.table.maxIdx j fd (hnot j fd hj hfd).1 hfd
  · exact (List.length_set ..).trans h.length
  · exact fun fd hfd => h.inRange fd (Finset.mem_of_mem_erase hfd)
  · intro fd hfd
    obtain ⟨hne, hfd⟩ := Finset.mem_erase.1 hfd
    exact Finset.mem_erase.2 ⟨hne, h.isOpen fd hfd⟩
  · exact fun j fd hj hfd => h.apart j fd (hnot j fd hj hfd).1 hfd
  · intro h0
    exact absurd (h.idle h0 idx cfd hslot) (Int.not_lt.2 hpos)

/-- `closeTcpConnect` finds the slot. -/
theorem closeTcpConnect_eq (h : s.Inv) (hslot : s.clientList[idx]? = some cfd) (hpos : 0 ≤ cfd) :
    closeTcpConnect s cfd = .ok { s with
      allRSet := s.allRSet.erase cfd
      clientList := s.clientList.set idx (-1)
      opened := s.opened.erase cfd } := by
  have hmem := List.mem_of_getElem? hslot
  have hfound : s.clientList.findIdx (fun c => cfd = c) = idx := by
    have hlt : s.clientList.findIdx (fun c => cfd = c) < s.clientList.length :=
      List.findIdx_lt_length_of_exists ⟨cfd, hmem, by simp⟩
    have hhit : cfd = s.clientList[s.clientList.findIdx fun c => cfd = c] := by
      simpa using List.findIdx_getElem (w := hlt)
    exact h.table.distinct _ idx cfd (List.getElem?_eq_some_iff.2 ⟨hlt, hhit.symm⟩) hslot hpos
  rw [closeTcpConnect, removeFromFdSet, inRange_bind (h.inRange cfd (h.mem_allRSet hslot hpos)), ← hfound]
  rfl

/-- After `accept`: the table holds what it held, and the sockets are the same. -/
structure Connected (s t : Server) : Prop where
  inv : t.Inv
  sockets : s.SameSockets t
  clients : ∀ fd ∈ s.clientList, 0 ≤ fd → fd ∈ t.clientList

theorem connect_safe (h : s.Inv) (htcp : s.tcpSocket ≠ 0) (accepted : Except Nat Int) :
    Safe (Connected s) (handlerTcpNewConnect Small s accepted) := by
  cases accepted with
  | error errno => exact safe_exit
  | ok cfd =>
    rw [handlerTcpNewConnect]
    split
    · rename_i hnew
      dsimp only
      split
      · exact ⟨h, ⟨rfl, rfl⟩, fun fd hfd _ => hfd⟩
      · rename_i hroom
        rw [addToFdSet, inRange_bind hnew.1]
        have hlt : s.clientList.findIdx (fun c => c < 0) < s.clientList.length := by
          rw [h.length]
          exact Nat.not_le.1 hroom
        have hfree : s.clientList[s.clientList.findIdx fun c => c < 0] < 0 := by
          simpa using List.findIdx_getElem (w := hlt)
        have hslot := List.getElem?_eq_getElem hlt
        refine ⟨h.connect htcp hslot hfree hnew.1 hnew.2, ⟨rfl, rfl⟩, fun fd hfd hpos => ?_⟩
        exact mem_set_of_ne hslot (by omega) hfd
    · exact safe_disabled

/-- After `read` on the descriptor of a slot: the other slots are the same. -/
structure Answered (s : Server) (idx : Nat) (t : Server) : Prop where
  inv : t.Inv
  sockets : s.SameSockets t
  others : ∀ j, j ≠ idx → t.clientList[j]? = s.clientList[j]?

theorem close_safe (h : s.Inv) (hslot : s.clientList[idx]? = some cfd) (hpos : 0 ≤ cfd) :
    Safe (Answered s idx) (closeTcpConnect s cfd) := by
  rw [closeTcpConnect_eq h hslot hpos]
  exact ⟨h.disconnect hslot hpos, ⟨rfl, rfl⟩, fun j hj => List.getElem?_set_ne (Ne.symm hj)⟩

theorem read_safe (h : s.Inv) (hslot : s.clientList[idx]? = some cfd) (hpos : 0 ≤ cfd) (answer : ReadAnswer) :
    Safe (Answered s idx) (handlerTcpRead s cfd answer) := by
  have hstay : Answered s idx s := ⟨h, ⟨rfl, rfl⟩, fun j _ => rfl⟩
  cases answer with
  | failed errno =>
    simp only [handlerTcpRead]
    split
    · exact hstay
    · split
      · exact close_safe h hslot hpos
      · exact safe_exit
  | eof => exact close_safe h hslot hpos
  | data written =>
    cases written with
    | ok n => exact hstay
    | error errno => exact safe_exit

theorem udp_safe (received sent : Except Nat Nat) : Safe (fun t => t = s) (handlerUdpRead s received sent) := by
  cases received with
  | error errno => exact safe_exit
  | ok n =>
    cases sent with
    | error errno => exact safe_exit
    | ok m => exact rfl

/-! ## The start -/

theorem addSocket_ok {sock : Int} (h : sock ≠ 0 → InRange sock) :
    ∃ set maxFd, addSocket s sock = .ok { s with allRSet := set, maxFd := maxFd } ∧
      (∀ fd, fd ∈ set ↔ fd ∈ s.allRSet ∨ fd ≠ 0 ∧ fd = sock) ∧
        ((∀ fd ∈ s.allRSet, fd ≤ s.maxFd) → ∀ fd ∈ set, fd ≤ maxFd) := by
  unfold addSocket
  split
  · rename_i hne
    rw [addToFdSet, inRange_bind (h hne)]
    refine ⟨_, _, rfl, fun fd => ?_, fun hmax fd hfd => ?_⟩
    · rw [Finset.mem_insert]
      constructor
      · rintro (rfl | hfd)
        · exact .inr ⟨hne, rfl⟩
        · exact .inl hfd
      · rintro (hfd | ⟨-, rfl⟩)
        · exact .inr hfd
        · exact .inl rfl
    · rcases Finset.mem_insert.1 hfd with rfl | hfd
      · split <;> omega
      · have hle := hmax fd hfd
        split <;> omega
  · rename_i heq
    refine ⟨_, _, rfl, fun fd => ⟨.inl, ?_⟩, id⟩
    rintro (hfd | ⟨hne, rfl⟩)
    · exact hfd
    · exact absurd hne heq

theorem start_inv {tcpSocket udpSocket : Int} {opened : Finset Int} (htcp : Socket opened tcpSocket)
    (hudp : Socket opened udpSocket) (hne : tcpSocket ≠ 0 → tcpSocket ≠ udpSocket)
    (hs : start tcpSocket udpSocket opened = .ok s) : s.Inv := by
  obtain ⟨set₁, max₁, h₁, hmem₁, hmax₁⟩ :=
    addSocket_ok (s := Server.blank tcpSocket udpSocket opened) fun h0 => (htcp h0).1
  obtain ⟨set₂, max₂, h₂, hmem₂, hmax₂⟩ :=
    addSocket_ok (s := { Server.blank tcpSocket udpSocket opened with allRSet := set₁, maxFd := max₁ })
      fun h0 => (hudp h0).1
  rw [start, h₁, ok_bind, h₂] at hs
  cases hs
  have hslot : ∀ (idx : Nat) fd, (List.replicate MAX_TCP_CLIENT (-1 : Int))[idx]? = some fd → fd = -1 :=
    fun idx fd h => List.eq_of_mem_replicate (List.mem_of_getElem? h)
  have hset : ∀ fd, fd ∈ set₂ ↔ fd ≠ 0 ∧ (fd = tcpSocket ∨ fd = udpSocket) := by
    intro fd
    rw [hmem₂, hmem₁, and_or_left]
    simp [Server.blank]
  have hsock : ∀ fd ∈ set₂, InRange fd ∧ fd ∈ opened := by
    intro fd hfd
    obtain ⟨h0, rfl | rfl⟩ := (hset fd).1 hfd
    · exact htcp h0
    · exact hudp h0
  have hmax : (-1 : Int) < MAX_TCP_CLIENT := by decide
  refine ⟨⟨?_, ?_, ?_, ?_, ?_⟩, List.length_replicate, hmax, ?_, ?_, ?_, ?_, hne⟩
  · exact fun idx fd h => .inl (hslot idx fd h)
  · intro i j fd hi _ hpos
    exact absurd hpos (by rw [hslot i fd hi]; decide)
  · intro fd
    rw [hset]
    refine ⟨.inl, fun h => h.resolve_right ?_⟩
    rintro ⟨hpos, hfd⟩
    exact absurd hpos (by rw [List.eq_of_mem_replicate hfd]; decide)
  · exact hmax₂ (hmax₁ fun fd hfd => absurd hfd (Finset.notMem_empty fd))
  · intro idx fd h hpos
    exact absurd hpos (by rw [hslot idx fd h]; decide)
  · exact fun fd hfd => (hsock fd hfd).1
  · exact fun fd hfd => (hsock fd hfd).2
  · intro idx fd h hpos
    exact absurd hpos (by rw [hslot idx fd h]; decide)
  · intro _ idx fd h
    rw [hslot idx fd h]
    decide

end SystemFunc.Select
