import SystemFunc.CondList.Defs
import SystemFunc.Lib.Slots

/-!
# No node is lost, and none is stranded

The list is a chain of nodes that no thread holds (`Inv`). A node that is put in it wakes a blocked consumer, if there
is one; so while one is blocked, there are as many woken consumers as nodes (`promised`), also when others overtake
them.

- `conserved`: what holds in every reachable state.
-/

namespace SystemFunc.CondList

open LinkedList CondVar Slots

open scoped List

/-- The node that a thread holds. -/
def Producer.tmp : Producer → Option Nat
  | .lock tmp => some tmp
  | _ => none

def Consumer.tmp : Consumer → Option Nat
  | .free tmp => some tmp
  | _ => none

/-- The nodes of the producers, which are not yet in the list. -/
def State.pending (s : State) : List Nat := s.producers.filterMap Producer.tmp

/-- The nodes of the consumers, which are no longer in it. -/
def State.taken (s : State) : List Nat := s.consumers.filterMap Consumer.tmp

def serials (mem : Nat → Option Node) (addrs : List Nat) : List Nat := addrs.filterMap (serialAt mem)

/-- The invariant: with `l` the addresses of the list. -/
structure Inv (s : State) (l : List Nat) : Prop where
  chain : Chain Node.next s.mem s.head l
  apart : (s.pending ++ (s.taken ++ l)).Nodup
  live : ∀ addr ∈ s.pending ++ (s.taken ++ l), s.mem addr ≠ none
  distinct : (serials s.mem s.pending ++ s.produced).Nodup
  old : ∀ serial ∈ serials s.mem s.pending ++ s.produced, serial < s.fresh
  placed : serials s.mem l ++ s.consumed.map Prod.snd ~ s.produced
  promised : NotStranded s l
  sound : s.ended ≠ some .nullHead ∧ s.ended ≠ some .deadNode

variable {s s' : State} {l : List Nat} {mem : Nat → Option Node}

/-! ## Serial numbers under an update -/

theorem serials_update {addr : Nat} {n : Option Node} {addrs : List Nat} (h : addr ∉ addrs) :
    serials (Function.update mem addr n) addrs = serials mem addrs := by
  apply List.filterMap_congr
  intro b hb
  have hne : b ≠ addr := fun he => h (he ▸ hb)
  simp [serialAt, hne]

/-- An update that keeps the serial number. -/
theorem serials_relink {addr : Nat} {n : Node} {next : Option Nat} (hn : mem addr = some n) (addrs : List Nat) :
    serials (Function.update mem addr (some { n with next := next })) addrs = serials mem addrs := by
  apply List.filterMap_congr
  intro b _
  by_cases hb : b = addr
  · subst hb
    simp [serialAt, hn]
  · simp [serialAt, hb]

theorem serials_cons {addr : Nat} {n : Node} (hn : mem addr = some n) (addrs : List Nat) :
    serials mem (addr :: addrs) = n.serial :: serials mem addrs :=
  List.filterMap_cons_some (by simp [serialAt, hn])

theorem serials_perm (mem : Nat → Option Node) {a b : List Nat} (h : a ~ b) : serials mem a ~ serials mem b :=
  h.filterMap _

/-! ## The threads -/

theorem pending_set {i : Nat} {p : Producer} (hp : s.producers[i]? = some p) (q : Producer) :
    p.tmp.toList ++ (s.producers.set i q).filterMap Producer.tmp ~ q.tmp.toList ++ s.pending :=
  filterMap_set_perm Producer.tmp hp q

theorem taken_set {i : Nat} {c : Consumer} (hc : s.consumers[i]? = some c) (d : Consumer) :
    c.tmp.toList ++ (s.consumers.set i d).filterMap Consumer.tmp ~ d.tmp.toList ++ s.taken :=
  filterMap_set_perm Consumer.tmp hc d

/-- Being woken leaves a consumer without a node. -/
theorem taken_wakes {consumers : List Consumer} (h : cond.Wakes s.consumers consumers) :
    consumers.filterMap Consumer.tmp = s.taken := by
  apply h.filterMap_eq
  intro c hc
  obtain rfl : c = .blocked := by simpa [cond, Consumer.isBlocked] using hc
  rfl

theorem notified_set {i : Nat} {c : Consumer} (hc : s.consumers[i]? = some c) (d : Consumer) :
    (s.consumers.set i d).countP Consumer.isNotified + c.isNotified.toNat =
      s.consumers.countP Consumer.isNotified + d.isNotified.toNat :=
  countP_set_add Consumer.isNotified hc d

/-- A consumer that moves to where it is not blocked leaves the blocked ones. -/
theorem blocked_of_set {i : Nat} {d : Consumer} (hd : d ≠ .blocked) (h : ∃ c ∈ s.consumers.set i d, c = .blocked) :
    ∃ c ∈ s.consumers, c = .blocked := by
  obtain ⟨c, hc, rfl⟩ := h
  rcases List.mem_or_eq_of_mem_set hc with hc | he
  · exact ⟨_, hc, rfl⟩
  · exact absurd he.symm hd

/-! ## The steps -/

theorem Inv.malloc {i addr : Nat} {n : Node} (h : Inv s l) (hp : s.producers[i]? = some .malloc)
    (hfree : s.mem addr = none) (hn : n.serial = s.fresh) :
    Inv { s.store addr (some n) with
      producers := s.producers.set i (.lock addr), fresh := s.fresh + 1 } l := by
  have hnew : addr ∉ s.pending ++ (s.taken ++ l) := fun hmem => h.live addr hmem hfree
  have hnewl : addr ∉ l := fun hmem => hnew (by simp [hmem])
  have hnewp : addr ∉ s.pending := fun hmem => hnew (by simp [hmem])
  have hpending : (s.producers.set i (.lock addr)).filterMap Producer.tmp ~ addr :: s.pending := pending_set hp _
  have hall := hpending.append_right (s.taken ++ l)
  have hserials := (serials_perm (Function.update s.mem addr (some n)) hpending).append_right s.produced
  rw [serials_cons (Function.update_self addr (some n) s.mem), serials_update hnewp, hn] at hserials
  refine ⟨h.chain.update hnewl _, ?_, ?_, ?_, ?_, ?_, h.promised, h.sound⟩
  · exact hall.nodup_iff.2 (List.nodup_cons.2 ⟨hnew, h.apart⟩)
  · intro b hb
    rcases List.mem_cons.1 (hall.mem_iff.1 hb) with rfl | hb
    · simp [State.store]
    · have hne : b ≠ addr := fun he => hnew (he ▸ hb)
      simp only [State.store, Function.update_of_ne hne]
      exact h.live b hb
  · refine hserials.nodup_iff.2 (List.nodup_cons.2 ⟨fun hmem => ?_, h.distinct⟩)
    exact Nat.lt_irrefl _ (h.old _ hmem)
  · intro serial hmem
    rcases List.mem_cons.1 (hserials.mem_iff.1 hmem) with rfl | hmem
    · exact Nat.lt_succ_self _
    · exact Nat.lt_succ_of_lt (h.old _ hmem)
  · simp only [State.store, serials_update hnewl]
    exact h.placed

theorem Inv.produce {i tmp : Nat} {pick : Option Nat} {consumers : List Consumer} (h : Inv s l)
    (hp : s.producers[i]? = some (.lock tmp)) (hsig : cond.signal s.consumers pick = some consumers) :
    Inv (produceSection s i tmp consumers) (tmp :: l) := by
  have hmem : tmp ∈ s.pending := List.mem_filterMap.2 ⟨_, List.mem_of_getElem? hp, rfl⟩
  obtain ⟨n, hn⟩ := Option.ne_none_iff_exists'.1 (h.live tmp (List.mem_append_left _ hmem))
  have hpending : tmp :: (s.producers.set i .malloc).filterMap Producer.tmp ~ s.pending := pending_set hp _
  have htaken := taken_wakes (signal_wakes hsig)
  have hall : (s.producers.set i .malloc).filterMap Producer.tmp ++ (s.taken ++ tmp :: l) ~
      s.pending ++ (s.taken ++ l) := by
    calc
      _ ~ (s.producers.set i .malloc).filterMap Producer.tmp ++ (tmp :: (s.taken ++ l)) :=
        List.perm_middle.append_left _
      _ ~ tmp :: (s.producers.set i .malloc).filterMap Producer.tmp ++ (s.taken ++ l) := List.perm_middle
      _ ~ s.pending ++ (s.taken ++ l) := hpending.append_right _
  have hserials : serials s.mem ((s.producers.set i .malloc).filterMap Producer.tmp) ++ (s.produced ++ [n.serial]) ~
      serials s.mem s.pending ++ s.produced := by
    have hone := (serials_perm s.mem hpending).append_right s.produced
    rw [serials_cons hn] at hone
    calc
      _ ~ serials s.mem ((s.producers.set i .malloc).filterMap Producer.tmp) ++ (n.serial :: s.produced) :=
        (List.perm_append_singleton _ _).append_left _
      _ ~ n.serial :: (serials s.mem ((s.producers.set i .malloc).filterMap Producer.tmp) ++ s.produced) :=
        List.perm_middle
      _ ~ serials s.mem s.pending ++ s.produced := hone
  have hnodup := hall.nodup_iff.2 h.apart
  have hnotl : tmp ∉ l := (List.nodup_cons.1 (List.nodup_append.1 (List.nodup_append.1 hnodup).2.1).2.1).1
  simp only [produceSection, State.deref, hn]
  refine ⟨?_, ?_, ?_, ?_, ?_, ?_, ?_, h.sound⟩
  · exact (h.chain.update hnotl _).push (Function.update_self _ _ _) rfl
  · show ((s.producers.set i .malloc).filterMap Producer.tmp ++
      (consumers.filterMap Consumer.tmp ++ tmp :: l)).Nodup
    rw [htaken]
    exact hnodup
  · intro b hb
    change b ∈ (s.producers.set i .malloc).filterMap Producer.tmp ++
      (consumers.filterMap Consumer.tmp ++ tmp :: l) at hb
    rw [htaken] at hb
    by_cases hbt : b = tmp
    · simp [State.store, hbt]
    · simp only [State.store, Function.update_of_ne hbt]
      exact h.live b (hall.mem_iff.1 hb)
  · simp only [State.store, serials_relink hn]
    exact hserials.nodup_iff.2 h.distinct
  · intro serial hserial
    simp only [State.store, serials_relink hn] at hserial
    exact h.old serial (hserials.mem_iff.1 hserial)
  · simp only [State.store, serials_relink hn, serials_cons hn]
    exact (h.placed.cons n.serial).trans (List.perm_append_singleton _ _).symm
  · intro hex
    have hex' : ∃ c ∈ s.consumers, cond.blocked c = true := by
      refine (signal_wakes hsig).blocked ?_
      obtain ⟨c, hc, rfl⟩ := hex
      exact ⟨_, hc, rfl⟩
    have hraise : consumers.countP Consumer.isNotified = s.consumers.countP Consumer.isNotified + 1 := by
      refine signal_notifies (fun _ => rfl) (fun c hc => ?_) hex' hsig
      obtain rfl : c = .blocked := by simpa [cond, Consumer.isBlocked] using hc
      rfl
    have hlen : l.length ≤ s.consumers.countP Consumer.isNotified := by
      refine h.promised ?_
      obtain ⟨c, hc, hb⟩ := hex'
      exact ⟨c, hc, by simpa [cond, Consumer.isBlocked] using hb⟩
    show (tmp :: l).length ≤ consumers.countP Consumer.isNotified
    rw [List.length_cons, hraise]
    omega

/-- A consumer that finds the list empty waits. -/
theorem Inv.wait {i : Nat} {c : Consumer} (h : Inv s []) (hc : s.consumers[i]? = some c) (htmp : c.tmp = none) :
    Inv { s with consumers := s.consumers.set i .blocked } [] := by
  have htaken := taken_set hc .blocked
  rw [htmp] at htaken
  have hall := (htaken.append_right []).append_left s.pending
  refine ⟨h.chain, hall.nodup_iff.2 h.apart, fun b hb => h.live b (hall.mem_iff.1 hb), h.distinct, h.old, h.placed,
    fun _ => Nat.zero_le _, h.sound⟩

/-- A consumer takes the first node off the list. -/
theorem Inv.take {i addr : Nat} {n : Node} {c : Consumer} (h : Inv s (addr :: l)) (hc : s.consumers[i]? = some c)
    (hready : c = .lock ∨ c = .notified) (hn : s.mem addr = some n) :
    Inv { s with
      head := n.next
      consumers := s.consumers.set i (.free addr)
      consumed := s.consumed ++ [(i, n.serial)] } l := by
  have htmp : c.tmp = none := by rcases hready with rfl | rfl <;> rfl
  have htaken := taken_set hc (.free addr)
  rw [htmp] at htaken
  have hall : s.pending ++ ((s.consumers.set i (.free addr)).filterMap Consumer.tmp ++ l) ~
      s.pending ++ (s.taken ++ addr :: l) := by
    refine List.Perm.append_left _ ?_
    calc
      _ ~ (addr :: s.taken) ++ l := htaken.append_right _
      _ ~ s.taken ++ addr :: l := List.perm_middle.symm
  obtain ⟨-, n', hn', hchain⟩ := h.chain
  cases hn.symm.trans hn'
  refine ⟨hchain, hall.nodup_iff.2 h.apart, fun b hb => h.live b (hall.mem_iff.1 hb), h.distinct, h.old, ?_, ?_,
    h.sound⟩
  · have hplaced := h.placed
    rw [serials_cons hn] at hplaced
    simp only [List.map_append, List.map_cons, List.map_nil]
    calc
      _ ~ serials s.mem l ++ (n.serial :: s.consumed.map Prod.snd) :=
        (List.perm_append_singleton _ _).append_left _
      _ ~ n.serial :: (serials s.mem l ++ s.consumed.map Prod.snd) := List.perm_middle
      _ ~ s.produced := hplaced
  · intro hex
    have hlen := h.promised (blocked_of_set (by simp) hex)
    have hcount := notified_set hc (.free addr)
    have hone : c.isNotified.toNat ≤ 1 := Bool.toNat_le _
    have hzero : (Consumer.free addr).isNotified.toNat = 0 := rfl
    rw [List.length_cons] at hlen
    show l.length ≤ (s.consumers.set i (.free addr)).countP Consumer.isNotified
    omega

/-- The section of a consumer. -/
theorem Inv.consume {i : Nat} {c : Consumer} (h : Inv s l) (hc : s.consumers[i]? = some c)
    (hready : c = .lock ∨ c = .notified) : ∃ l', Inv (consumeSection s i) l' := by
  cases l with
  | nil =>
    have hhead : s.head = none := h.chain
    rw [consumeSection, if_pos hhead]
    have htmp : c.tmp = none := by rcases hready with rfl | rfl <;> rfl
    exact ⟨[], h.wait hc htmp⟩
  | cons addr l =>
    obtain ⟨hhead, n, hn, -⟩ := h.chain
    have hsome : ¬s.head = none := by rw [hhead]; simp
    rw [consumeSection, if_neg hsome, hhead]
    simp only [State.deref, hn]
    exact ⟨l, h.take hc hready hn⟩

theorem Inv.free {i tmp : Nat} (h : Inv s l) (hc : s.consumers[i]? = some (.free tmp)) :
    Inv (s.deref (some tmp) fun tmp _ => { s.store tmp none with consumers := s.consumers.set i .lock }) l := by
  have hmem : tmp ∈ s.taken := List.mem_filterMap.2 ⟨_, List.mem_of_getElem? hc, rfl⟩
  obtain ⟨n, hn⟩ :=
    Option.ne_none_iff_exists'.1 (h.live tmp (List.mem_append_right _ (List.mem_append_left _ hmem)))
  have htaken : tmp :: (s.consumers.set i .lock).filterMap Consumer.tmp ~ s.taken := taken_set hc _
  have hall : tmp :: (s.pending ++ ((s.consumers.set i .lock).filterMap Consumer.tmp ++ l)) ~
      s.pending ++ (s.taken ++ l) := by
    calc
      _ ~ s.pending ++ (tmp :: ((s.consumers.set i .lock).filterMap Consumer.tmp ++ l)) := List.perm_middle.symm
      _ ~ s.pending ++ (s.taken ++ l) := (htaken.append_right l).append_left _
  obtain ⟨hnot, hnodup⟩ := List.nodup_cons.1 (hall.nodup_iff.2 h.apart)
  have hnotl : tmp ∉ l := fun hm => hnot (by simp [hm])
  have hnotp : tmp ∉ s.pending := fun hm => hnot (by simp [hm])
  simp only [State.deref, hn]
  refine ⟨h.chain.update hnotl _, hnodup, ?_, ?_, ?_, ?_, ?_, h.sound⟩
  · intro b hb
    have hne : b ≠ tmp := fun he => hnot (he ▸ hb)
    simp only [State.store, Function.update_of_ne hne]
    exact h.live b (hall.mem_iff.1 (List.mem_cons_of_mem _ hb))
  · show (serials (Function.update s.mem tmp none) s.pending ++ s.produced).Nodup
    rw [serials_update hnotp]
    exact h.distinct
  · intro serial hserial
    change serial ∈ serials (Function.update s.mem tmp none) s.pending ++ s.produced at hserial
    rw [serials_update hnotp] at hserial
    exact h.old serial hserial
  · simp only [State.store, serials_update hnotl]
    exact h.placed
  · intro hex
    have hlen := h.promised (blocked_of_set (by simp) hex)
    have hcount := notified_set hc .lock
    have hfree : (Consumer.free tmp).isNotified.toNat = 0 := rfl
    have hlock : Consumer.lock.isNotified.toNat = 0 := rfl
    show l.length ≤ (s.consumers.set i .lock).countP Consumer.isNotified
    omega

/-- A spurious wakeup. -/
theorem Inv.spurious {i : Nat} {consumers : List Consumer} (h : Inv s l)
    (hsig : cond.signal s.consumers (some i) = some consumers) : Inv { s with consumers := consumers } l := by
  have hwakes := signal_wakes hsig
  have htaken := taken_wakes hwakes
  refine ⟨h.chain, ?_, ?_, h.distinct, h.old, h.placed, ?_, h.sound⟩
  · show (s.pending ++ (consumers.filterMap Consumer.tmp ++ l)).Nodup
    rw [htaken]
    exact h.apart
  · intro b hb
    change b ∈ s.pending ++ (consumers.filterMap Consumer.tmp ++ l) at hb
    rw [htaken] at hb
    exact h.live b hb
  · rintro ⟨c, hc, rfl⟩
    have hbefore : ∃ c ∈ s.consumers, cond.blocked c = true := hwakes.blocked ⟨_, hc, rfl⟩
    obtain ⟨d, hd, hdb⟩ := hbefore
    have hlen := h.promised ⟨d, hd, by simpa [cond, Consumer.isBlocked] using hdb⟩
    exact Nat.le_trans hlen (hwakes.countP_le fun _ _ _ => rfl)

/-- **Every step** keeps the invariant. -/
theorem inv_step {a : Act} (h : Inv s l) (hs : step s a = some s') : ∃ l', Inv s' l' := by
  simp only [step, Option.ite_none_right_eq_some] at hs
  obtain ⟨-, hs⟩ := hs
  cases a with
  | malloc i addr no =>
    simp only [act, Option.ite_none_right_eq_some] at hs
    obtain ⟨hp, hs⟩ := hs
    cases addr with
    | none =>
      cases hs
      exact ⟨l, ⟨h.chain, h.apart, h.live, h.distinct, h.old, h.placed, h.promised, by simp⟩⟩
    | some addr =>
      simp only [Option.ite_none_right_eq_some] at hs
      obtain ⟨hfree, hs⟩ := hs
      cases hs
      exact ⟨l, h.malloc hp hfree rfl⟩
  | produce i pick =>
    simp only [act] at hs
    split at hs
    · rename_i tmp hp
      obtain ⟨consumers, hsig, rfl⟩ := Option.map_eq_some_iff.1 hs
      exact ⟨tmp :: l, h.produce hp hsig⟩
    · cases hs
  | consume i =>
    simp only [act] at hs
    split at hs
    · rename_i hc
      cases hs
      exact h.consume hc (.inl rfl)
    · rename_i hc
      cases hs
      exact h.consume hc (.inr rfl)
    · cases hs
  | free i =>
    simp only [act] at hs
    split at hs
    · rename_i tmp hc
      cases hs
      exact ⟨l, h.free hc⟩
    · cases hs
  | spurious i =>
    simp only [act] at hs
    obtain ⟨consumers, hsig, rfl⟩ := Option.map_eq_some_iff.1 hs
    exact ⟨l, h.spurious hsig⟩

theorem inv_init (h : Init s) : Inv s [] := by
  have hpending : s.pending = [] := List.filterMap_eq_nil_iff.2 fun p hp => by rw [h.producers p hp]; rfl
  have htaken : s.taken = [] := List.filterMap_eq_nil_iff.2 fun c hc => by rw [h.consumers c hc]; rfl
  refine ⟨h.head, by simp [hpending, htaken], by simp [hpending, htaken], ?_, ?_, ?_, fun _ => Nat.zero_le _, ?_⟩
  · simp [hpending, h.produced, serials]
  · simp [hpending, h.produced, serials]
  · simp [h.produced, h.consumed, serials]
  · simp [h.ended]

/-- What the nodes put in the list have become. -/
theorem Inv.conserved (h : Inv s l) : Conserved s l := by
  intro serial hserial
  have hcount := h.placed.count_eq serial
  rw [List.count_append] at hcount
  have hone : s.produced.count serial = 1 :=
    List.nodup_iff_count_eq_one.1 (List.nodup_append.1 h.distinct).2.1 serial hserial
  exact hcount.trans hone

/-- **No node is lost or taken twice, and none is stranded**: in every reachable state the pointers from `head` are a
list of addresses, in which a node that was produced is exactly once, or it has been taken off exactly once; no thread
has gone through `NULL` or to a freed node; and while a consumer is blocked, there are no more nodes than woken
consumers. -/
theorem conserved_reach (h : Steps.Reach Init step s) :
    ∃ l, Chain Node.next s.mem s.head l ∧ Conserved s l ∧ NotStranded s l ∧
      s.ended ≠ some .nullHead ∧ s.ended ≠ some .deadNode := by
  have hinv : ∃ l, Inv s l := by
    apply Steps.Reach.inv ?_ ?_ h
    · exact fun s hs => ⟨[], inv_init hs⟩
    · rintro s a t ⟨l, hl⟩ hstep
      exact inv_step hl hstep
  obtain ⟨l, hl⟩ := hinv
  exact ⟨l, hl.chain, hl.conserved, hl.promised, hl.sound⟩

/-! ## A consumer that overtakes another -/

/-- One producer and two consumers at their start. -/
def startState : State where
  head := none
  mem _ := none
  producers := [.malloc]
  consumers := [.lock, .lock]
  ended := none
  fresh := 0
  produced := []
  consumed := []

/-- The first consumer waits and is woken for a node that the second one takes. -/
def overtaken : List Act := [.consume 0, .malloc 0 (some 7) 42, .produce 0 (some 0), .consume 1, .consume 0]

theorem startState_init : Init startState := ⟨rfl, fun _ => rfl, by decide, by decide, rfl, rfl, rfl⟩

theorem conserved_overtaken : ∃ s l, Steps.run step startState overtaken = some s ∧ s.consumed = [(1, 0)] ∧
    Chain Node.next s.mem s.head l ∧ Conserved s l ∧ NotStranded s l ∧
      s.ended ≠ some .nullHead ∧ s.ended ≠ some .deadNode := by
  have hrun : ∃ s, Steps.run step startState overtaken = some s ∧ s.consumed = [(1, 0)] := ⟨_, rfl, rfl⟩
  obtain ⟨s, hs, hconsumed⟩ := hrun
  obtain ⟨l, hl⟩ := conserved_reach ⟨startState, overtaken, startState_init, hs⟩
  exact ⟨s, l, hs, hconsumed, hl⟩

end SystemFunc.CondList
