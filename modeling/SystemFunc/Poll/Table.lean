import SystemFunc.Lib.Slots
import SystemFunc.Poll.Defs

/-!
# The table of the poll server

`Move` says what one step can do, and `act_move` that it does nothing else. Behind `nfds` the entries are as `main` has
set them (`Inv.untouched`); one of the others is the first that is free, or the one after them is (`Inv.freeSlot_le`).
-/

namespace SystemFunc.Poll

open Slots

/-- The state after a client has been stored in the first free entry, which is `p`. -/
def connected (s : State) (n : Int) (p : PollFd) (cfd : Int) : State := { s with
  fds := s.fds.set (freeSlot s.fds) { p with fd := cfd, events := POLLIN }
  nfds := if freeSlot s.fds + 1 > s.nfds then freeSlot s.fds + 1 else s.nfds
  ctrl := afterListen (n - 1)
  opened := if freeSlot s.fds ≥ OPEN_MAX then s.opened else insert cfd s.opened }

/-- The state after `poll` has answered. -/
def polled (s : State) (res : List UInt16) : State := { s with
  fds := store s.fds res
  ctrl := .listen (res.countP (· ≠ 0))
  reported := readable ((store s.fds res).take s.nfds) }

/-- What a step can do. -/
inductive Move (s : State) : Act → State → Prop
  | interrupted : s.ctrl = .poll → Move s (.poll (.error EINTR)) s
  | polled {res : List UInt16} : s.ctrl = .poll → res.length = s.nfds → (∀ q ∈ s.fds.zip res, q.1.Answer q.2) →
      Move s (.poll (.ok res)) (polled s res)
  | quiet {n : Int} {accepted : Except Nat Int} : s.ctrl = .listen n → ¬Ready s →
      Move s (.listen accepted) { s with ctrl := afterListen n }
  | connected {n cfd : Int} {p : PollFd} : s.ctrl = .listen n → Ready s → 0 ≤ cfd → cfd ∉ s.opened →
      s.fds[freeSlot s.fds]? = some p → Move s (.listen (.ok cfd)) (connected s n p cfd)
  | skipped {i : Nat} {p : PollFd} {answer : ReadAnswer} : s.ctrl = .scan i → i < s.nfds →
      s.fds[i]? = some p → ¬p.Readable → Move s (.scan answer) { s with ctrl := .scan (i + 1) }
  | echoed {i : Nat} {p : PollFd} {m : Nat} : s.ctrl = .scan i → i < s.nfds → s.fds[i]? = some p → p.Readable →
      Move s (.scan (.data (.ok m))) { s with ctrl := .scan (i + 1) }
  | closed {i : Nat} {p : PollFd} : s.ctrl = .scan i → i < s.nfds → s.fds[i]? = some p → p.Readable →
      Move s (.scan .eof) { s with
        fds := s.fds.set i { p with fd := -1 }
        ctrl := .scan (i + 1)
        opened := s.opened.erase p.fd }
  | scanned {i : Nat} {answer : ReadAnswer} : s.ctrl = .scan i → ¬i < s.nfds →
      Move s (.scan answer) { s with ctrl := .poll }

variable {s t : State} {a : Act} {fds garbage : List PollFd} {res : List UInt16} {p : PollFd} {i : Nat} {cfd n : Int}

/-! ## The operations on `fds` -/

theorem getElem?_store (fds : List PollFd) (res : List UInt16) (i : Nat) :
    (store fds res)[i]? = fds[i]?.map fun p => { p with revents := res[i]?.getD p.revents } := by
  induction fds generalizing res i with
  | nil =>
    cases res with
    | nil => rfl
    | cons r res => rfl
  | cons p fds ih =>
    cases res with
    | nil => simp [store]
    | cons r res =>
      cases i with
      | zero => rfl
      | succ i => exact ih res i

theorem length_store (fds : List PollFd) (res : List UInt16) : (store fds res).length = fds.length := by
  induction fds generalizing res with
  | nil =>
    cases res with
    | nil => rfl
    | cons r res => rfl
  | cons p fds ih =>
    cases res with
    | nil => rfl
    | cons r res => exact congrArg (· + 1) (ih res)

theorem freeSlot_le_length (h : 1 ≤ fds.length) : freeSlot fds ≤ fds.length := by
  have hle : (fds.drop 1).findIdx (fun p => p.fd < 0) ≤ (fds.drop 1).length := List.findIdx_le_length
  rw [List.length_drop] at hle
  unfold freeSlot
  omega

/-- The first free entry is free. -/
theorem freeSlot_neg (h : fds[freeSlot fds]? = some p) : p.fd < 0 := by
  rw [freeSlot, ← List.getElem?_drop] at h
  obtain ⟨hlt, rfl⟩ := List.getElem?_eq_some_iff.1 h
  simpa using List.findIdx_getElem (w := hlt)

/-- It is the first one. -/
theorem freeSlot_le (hi : 1 ≤ i) (hslot : fds[i]? = some p) (hneg : p.fd < 0) : freeSlot fds ≤ i := by
  have hdrop : (fds.drop 1)[i - 1]? = some p := by rw [List.getElem?_drop, Nat.add_sub_cancel' hi, hslot]
  obtain ⟨hlt, hp⟩ := List.getElem?_eq_some_iff.1 hdrop
  have hle : (fds.drop 1).findIdx (fun p => p.fd < 0) ≤ i - 1 := by
    by_contra hgt
    have hfalse := List.not_of_lt_findIdx (Nat.lt_of_not_le hgt)
    rw [hp, decide_eq_false_iff_not] at hfalse
    exact hfalse hneg
  unfold freeSlot
  omega

theorem free_iff : Free s ↔ freeSlot s.fds < s.fds.length := by
  unfold Free freeSlot
  constructor
  · rintro ⟨p, hp, hneg⟩
    have hlt := List.findIdx_lt_length_of_exists (p := fun p : PollFd => decide (p.fd < 0)) ⟨p, hp, decide_eq_true hneg⟩
    rw [List.length_drop] at hlt
    omega
  · intro hlt
    have hlt' : (s.fds.drop 1).findIdx (fun p => p.fd < 0) < (s.fds.drop 1).length := by
      rw [List.length_drop]
      omega
    exact ⟨_, List.getElem_mem hlt', by simpa using List.findIdx_getElem (w := hlt')⟩

/-! ## A step is a move -/

theorem ready_iff (h : s.fds[0]? = some p) : Ready s ↔ p.Readable := by
  unfold Ready
  rw [h]
  simp

theorem fill_eq (hslot : fds[i]? = some p) :
    fill fds i cfd = .ok (fds.set i { p with fd := cfd, events := POLLIN }) := by
  rw [fill, hslot]

theorem newConnect_eq (hpos : 0 ≤ cfd) (hnew : cfd ∉ s.opened) (hslot : s.fds[freeSlot s.fds]? = some p) :
    newConnect s (n - 1) (.ok cfd) = .ok (connected s n p cfd) := by
  rw [newConnect, if_pos ⟨hpos, hnew⟩]
  dsimp only
  rw [fill_eq hslot]
  rfl

/-- A client without a free entry. -/
theorem newConnect_full (hpos : 0 ≤ cfd) (hnew : cfd ∉ s.opened) (hfull : ¬Free s) :
    newConnect s n (.ok cfd) = .error .undefined := by
  have hslot : s.fds[freeSlot s.fds]? = none := List.getElem?_eq_none (Nat.not_lt.1 fun hlt => hfull (free_iff.2 hlt))
  rw [newConnect, if_pos ⟨hpos, hnew⟩]
  dsimp only
  rw [fill, hslot]
  rfl

theorem poll_move (hc : s.ctrl = .poll) {answer : Except Nat (List UInt16)} (h : pollSection s answer = .ok t) :
    Move s (.poll answer) t := by
  cases answer with
  | error errno =>
    rw [pollSection] at h
    split at h
    · rename_i heintr
      cases h
      rw [heintr]
      exact .interrupted hc
    · cases h
  | ok res =>
    rw [pollSection] at h
    split at h
    · rename_i hans
      cases h
      exact .polled hc hans.1 hans.2
    · cases h

theorem listen_move (hc : s.ctrl = .listen n) {accepted : Except Nat Int} (h : listenSection s n accepted = .ok t) :
    Move s (.listen accepted) t := by
  rw [listenSection] at h
  split at h
  · cases h
  · rename_i q hq
    split at h
    · rename_i hreadable
      have hready : Ready s := (ready_iff hq).2 hreadable
      cases accepted with
      | error errno => cases h
      | ok cfd =>
        by_cases hnew : 0 ≤ cfd ∧ cfd ∉ s.opened
        · cases hslot : s.fds[freeSlot s.fds]? with
          | none =>
            have hfull : ¬Free s := fun hfree => Nat.not_le.2 (free_iff.1 hfree) (List.getElem?_eq_none_iff.1 hslot)
            rw [newConnect_full hnew.1 hnew.2 hfull] at h
            cases h
          | some p =>
            rw [newConnect_eq hnew.1 hnew.2 hslot] at h
            cases h
            exact .connected hc hready hnew.1 hnew.2 hslot
        · rw [newConnect, if_neg hnew] at h
          cases h
    · rename_i hreadable
      cases h
      exact .quiet hc fun hready => hreadable ((ready_iff hq).1 hready)

theorem scan_move (hc : s.ctrl = .scan i) {answer : ReadAnswer} (h : scanSection s i answer = .ok t) :
    Move s (.scan answer) t := by
  rw [scanSection] at h
  split at h
  · rename_i hi
    split at h
    · cases h
    · rename_i p hp
      split at h
      · rename_i hreadable
        cases answer with
        | failed errno => cases h
        | eof =>
          cases h
          exact .closed hc hi hp hreadable
        | data written =>
          cases written with
          | error errno => cases h
          | ok m =>
            cases h
            exact .echoed hc hi hp hreadable
      · rename_i hreadable
        cases h
        exact .skipped hc hi hp hreadable
  · rename_i hi
    cases h
    exact .scanned hc hi

theorem act_move (h : act s a = .ok t) : Move s a t := by
  unfold act at h
  split at h
  · exact poll_move ‹_› h
  · exact listen_move ‹_› h
  · exact scan_move ‹_› h
  · cases h

/-! ## The invariant -/

/-- Behind `nfds` nothing has been written since `main` has set the descriptors. -/
structure Inv (garbage : List PollFd) (s : State) : Prop where
  length : s.fds.length = OPEN_MAX
  pos : 1 ≤ s.nfds
  nfds_le : s.nfds ≤ OPEN_MAX
  untouched : ∀ i, s.nfds ≤ i → s.fds[i]? = garbage[i]?.map fun p => { p with fd := -1 }

namespace Inv

variable (h : Inv garbage s)
include h

theorem isSome (hi : i < OPEN_MAX) : ∃ p, s.fds[i]? = some p :=
  ⟨_, List.getElem?_eq_getElem (h.length ▸ hi)⟩

/-- The first free entry is not far behind `nfds`. -/
theorem freeSlot_le (hslot : s.fds[freeSlot s.fds]? = some p) : freeSlot s.fds ≤ s.nfds := by
  by_contra hgt
  have hlt : freeSlot s.fds < OPEN_MAX := h.length ▸ (List.getElem?_eq_some_iff.1 hslot).1
  obtain ⟨q, hq⟩ := h.isSome (i := s.nfds) (by omega)
  have hneg : q.fd < 0 := by
    rw [h.untouched s.nfds (Nat.le_refl _)] at hq
    obtain ⟨g, -, rfl⟩ := Option.map_eq_some_iff.1 hq
    exact (by decide : (-1 : Int) < 0)
  exact hgt (Poll.freeSlot_le h.pos hq hneg)

theorem move (hm : Move s a t) : Inv garbage t := by
  cases hm with
  | interrupted hc => exact h
  | polled hc hlen hans =>
    refine ⟨(length_store ..).trans h.length, h.pos, h.nfds_le, fun i hi => ?_⟩
    have hnone : (_ : List UInt16)[i]? = none := List.getElem?_eq_none (hlen ▸ hi)
    dsimp only [Poll.polled]
    rw [getElem?_store, ← h.untouched i hi, hnone]
    exact Option.map_id'
  | quiet hc hready => exact ⟨h.length, h.pos, h.nfds_le, h.untouched⟩
  | connected hc hready hpos hnew hslot =>
    have hlt : freeSlot s.fds < OPEN_MAX := h.length ▸ (List.getElem?_eq_some_iff.1 hslot).1
    have hnfds := h.nfds_le
    have hpos := h.pos
    refine ⟨(List.length_set ..).trans h.length, ?_, ?_, fun i hi => ?_⟩
    · dsimp only [Poll.connected]
      split <;> omega
    · dsimp only [Poll.connected]
      split <;> omega
    · dsimp only [Poll.connected] at hi ⊢
      have hne : freeSlot s.fds ≠ i := by split at hi <;> omega
      rw [List.getElem?_set_ne hne]
      apply h.untouched
      split at hi <;> omega
  | skipped hc hi hp hr => exact ⟨h.length, h.pos, h.nfds_le, h.untouched⟩
  | echoed hc hi hp hr => exact ⟨h.length, h.pos, h.nfds_le, h.untouched⟩
  | closed hc hi hp hr =>
    refine ⟨(List.length_set ..).trans h.length, h.pos, h.nfds_le, fun j hj => ?_⟩
    dsimp only at hj ⊢
    rw [List.getElem?_set_ne (by omega)]
    exact h.untouched j hj
  | scanned hc hi => exact ⟨h.length, h.pos, h.nfds_le, h.untouched⟩

/-- Where an entry is free for every client, nothing undefined happens. -/
theorem ne_undefined (hroom : HasRoom (some s) a) : act s a ≠ .error .undefined := by
  unfold act
  split
  · rename_i res hc
    cases res with
    | error errno =>
      rw [pollSection]
      split <;> exact nofun
    | ok res =>
      rw [pollSection]
      split <;> exact nofun
  · rename_i n accepted hc
    obtain ⟨p, hp⟩ := h.isSome (i := 0) (by decide)
    rw [listenSection, hp]
    dsimp only
    split
    · rename_i hreadable
      cases accepted with
      | error errno => exact nofun
      | ok cfd =>
        have hlt := free_iff.1 (hroom ((ready_iff hp).2 hreadable))
        by_cases hnew : 0 ≤ cfd ∧ cfd ∉ s.opened
        · rw [newConnect_eq hnew.1 hnew.2 (List.getElem?_eq_getElem hlt)]
          exact nofun
        · rw [newConnect, if_neg hnew]
          exact nofun
    · exact nofun
  · rename_i i answer hc
    rw [scanSection]
    split
    · rename_i hi
      obtain ⟨p, hp⟩ := h.isSome (Nat.lt_of_lt_of_le hi h.nfds_le)
      rw [hp]
      dsimp only
      split
      · cases answer with
        | failed errno => exact nofun
        | eof => exact nofun
        | data written => cases written <;> exact nofun
      · exact nofun
    · exact nofun
  · exact nofun

end Inv

/-- A step of the loop takes a client only where an entry is free. -/
theorem Move.hasRoom (hm : Move s a t) : HasRoom (some s) a := by
  cases hm with
  | connected hc hready hpos hnew hslot =>
    exact fun _ => free_iff.2 (List.getElem?_eq_some_iff.1 hslot).1
  | quiet hc hready =>
    rename_i accepted
    cases accepted with
    | error errno => trivial
    | ok cfd => exact fun h => absurd h hready
  | interrupted | polled | skipped | echoed | closed | scanned => trivial

theorem step_eq_some {o : Option State} (h : step (some s) a = some o) :
    (∃ t, o = some t ∧ act s a = .ok t) ∨ o = none ∧ act s a = .error .undefined := by
  rw [step] at h
  split at h
  · rename_i t hact
    exact .inl ⟨t, (Option.some.inj h).symm, hact⟩
  · rename_i hact
    exact .inr ⟨(Option.some.inj h).symm, hact⟩
  · cases h

theorem inv_started (h : Started garbage s) : Inv garbage s := by
  obtain ⟨hlen, fd, -, -, hs⟩ := h
  have hmax : 1 ≤ OPEN_MAX := by decide
  rw [hs]
  refine ⟨?_, Nat.le_refl 1, hmax, fun i hi => ?_⟩
  · dsimp only [start]
    rw [List.length_modify, List.length_map, hlen]
  · have hne : 0 ≠ i := Nat.ne_of_lt hi
    dsimp only [start]
    rw [List.getElem?_modify_ne _ _ hne, List.getElem?_map]

end SystemFunc.Poll
