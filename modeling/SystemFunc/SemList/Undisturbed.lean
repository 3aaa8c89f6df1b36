import SystemFunc.Lib.Crowd
import SystemFunc.SemList.Defs

/-!
# Producers and consumers that do not disturb each other

The semaphores count the nodes, but nothing keeps two threads from being at `head` at once. Where every assignment to
`head` finds the list as its thread has read it (`Undisturbed`), the list is a chain with one node for each credit
(`Inv`), and every posted node is delivered (`delivered`). Two producers that have read the same `head` lose a node
(`node_lost`).
-/

namespace SystemFunc.SemList

open LinkedList

variable {θ : Type*} {mem mem' : Nat → Option Node} {consumed consumed' l l' : List Nat} {th : Thread}

/-- The node of this serial number is consumed or in the list `l`. -/
def Accounted (mem : Nat → Option Node) (consumed l : List Nat) (serial : Nat) : Prop :=
  serial ∈ consumed ∨ ∃ addr ∈ l, serialAt mem addr = some serial

/-- The node that no other thread accesses: not yet in the list, or taken off it. -/
def Thread.owned (th : Thread) : Option Nat :=
  match th.pc with
  | .clearNext | .waitPlace | .readHead | .setNext | .pushHead | .postPlace | .free => th.tmp
  | _ => none

/-- A producer with a node that is not yet in the list. -/
def Thread.pushing (th : Thread) : Bool :=
  match th.pc with
  | .clearNext | .waitPlace | .readHead | .setNext | .pushHead => true
  | _ => false

/-- A node of the list is for this thread: put there and not yet posted, or waited for and not yet taken. -/
def Thread.holds (th : Thread) : Bool :=
  match th.pc with
  | .postProduct | .readTmp | .readAgain | .readNext | .popHead => true
  | _ => false

/-- What holds of a thread, given the nodes, those consumed and the list. -/
structure ThreadOk (mem : Nat → Option Node) (consumed l : List Nat) (th : Thread) : Prop where
  owned : ∀ addr, th.owned = some addr → addr ∉ l ∧ mem addr ≠ none
  pushing : th.pushing = true → ∃ addr, th.tmp = some addr ∧ serialAt mem addr = some th.serial ∧
    th.serial ∉ consumed
  link : th.pc = .pushHead → ∀ addr ∈ th.tmp, (mem addr).map Node.next = some th.seen
  post : th.pc = .postProduct → Accounted mem consumed l th.serial
  seen : th.pc = .readNext → th.seen ≠ none

/-- What holds of the nodes: serial numbers are different, those consumed are not in the list. -/
structure HeapOk (mem : Nat → Option Node) (fresh : Nat) (consumed l : List Nat) : Prop where
  below : ∀ addr serial, serialAt mem addr = some serial → serial < fresh
  distinct : ∀ a b serial, serialAt mem a = some serial → serialAt mem b = some serial → a = b
  old : ∀ serial ∈ consumed, serial < fresh
  once : consumed.Nodup
  listed : ∀ addr ∈ l, ∀ serial ∈ serialAt mem addr, serial ∉ consumed

/-- The invariant: the list `l` from `head` on, one node in it for each credit. -/
structure Inv [Fintype θ] (s : State θ) (l : List Nat) : Prop where
  chain : Chain Node.next s.mem s.head l
  credits : l.length = s.semProduct + Crowd.count Thread.holds s.threads
  sound : s.nullRead = false ∧ s.undefined = false
  heap : HeapOk s.mem s.fresh s.consumed l
  posted : ∀ serial ∈ s.posted, Accounted s.mem s.consumed l serial
  owner : ∀ t u addr, (s.threads t).owned = some addr → (s.threads u).owned = some addr → t = u
  threads : ∀ t, ThreadOk s.mem s.consumed l (s.threads t)

theorem Thread.owned_of_pushing (h : th.pushing = true) : th.owned = th.tmp := by
  unfold Thread.pushing at h
  unfold Thread.owned
  split at h <;> simp_all

theorem Thread.holds_of_pushing (h : th.pushing = true) : th.holds = false := by
  unfold Thread.pushing at h
  unfold Thread.holds
  split at h <;> simp_all

/-- A thread that pushes a node has it. -/
theorem ThreadOk.pushing_node (h : ThreadOk mem consumed l th) (hp : th.pushing = true) :
    ∃ addr n, th.tmp = some addr ∧ mem addr = some n := by
  obtain ⟨addr, htmp, hserial, -⟩ := h.pushing hp
  obtain ⟨n, hn, -⟩ := Option.map_eq_some_iff.1 hserial
  exact ⟨addr, n, htmp, hn⟩

/-- What others do leaves a thread as it was, where they leave its own node alone. -/
theorem ThreadOk.frame (h : ThreadOk mem consumed l th)
    (hmem : ∀ addr, th.owned = some addr → mem' addr = mem addr ∧ (addr ∉ l → addr ∉ l') ∧
      ∀ serial ∈ serialAt mem addr, serial ∉ consumed → serial ∉ consumed')
    (hacc : ∀ serial, Accounted mem consumed l serial → Accounted mem' consumed' l' serial) :
    ThreadOk mem' consumed' l' th := by
  refine ⟨fun addr ha => ?_, fun hp => ?_, fun hpc addr ha => ?_, fun hpc => hacc _ (h.post hpc), h.seen⟩
  · obtain ⟨hl, hm⟩ := h.owned addr ha
    exact ⟨(hmem addr ha).2.1 hl, by rw [(hmem addr ha).1]; exact hm⟩
  · obtain ⟨addr, ht, hser, hnc⟩ := h.pushing hp
    have ha : th.owned = some addr := (Thread.owned_of_pushing hp).trans ht
    obtain ⟨hm, -, hc⟩ := hmem addr ha
    exact ⟨addr, ht, by rw [serialAt, hm]; exact hser, hc _ hser hnc⟩
  · have ho : th.owned = some addr := (Thread.owned_of_pushing (by simp [Thread.pushing, hpc])).trans ha
    rw [(hmem addr ho).1]
    exact h.link hpc addr ha

/-- An update outside the list leaves what is accounted for. -/
theorem Accounted.update {addr : Nat} {n : Option Node} (hl : addr ∉ l) {serial : Nat}
    (h : Accounted mem consumed l serial) : Accounted (Function.update mem addr n) consumed l serial := by
  refine h.imp id fun ⟨b, hb, he⟩ => ⟨b, hb, ?_⟩
  have hne : b ≠ addr := fun h => hl (h ▸ hb)
  simpa [serialAt, hne] using he

/-- An update outside the list leaves the threads that do not own the node. -/
theorem ThreadOk.update (h : ThreadOk mem consumed l th) {addr : Nat} (n : Option Node) (hl : addr ∉ l)
    (ho : th.owned ≠ some addr) : ThreadOk (Function.update mem addr n) consumed l th := by
  apply h.frame
  · intro b hb
    have hne : b ≠ addr := fun he => ho (he ▸ hb)
    exact ⟨Function.update_of_ne hne _ _, id, fun _ _ => id⟩
  · exact fun _ ha => ha.update hl

section Steps

variable [Fintype θ] [DecidableEq θ] {s : State θ} {t : θ}

/-- One thread moves. -/
theorem holds_goto (s : State θ) (t : θ) (th : Thread) :
    Crowd.count Thread.holds (Function.update s.threads t th) + (s.threads t).holds.toNat =
      Crowd.count Thread.holds s.threads + th.holds.toNat :=
  Crowd.count_update t th

omit [Fintype θ] in
/-- A thread gives its node up, keeps it, or gets one that nobody owns. -/
theorem owner_goto (h : ∀ t u addr, (s.threads t).owned = some addr → (s.threads u).owned = some addr → t = u)
    (hth : ∀ addr, th.owned = some addr → ∀ u, u ≠ t → (s.threads u).owned ≠ some addr) :
    ∀ u v addr, (Function.update s.threads t th u).owned = some addr →
      (Function.update s.threads t th v).owned = some addr → u = v := by
  intro u v addr hu hv
  exact Crowd.unique_update (P := fun th : Thread => th.owned = some addr) (fun u v => h u v addr) (hth addr)
    u v hu hv

omit [DecidableEq θ] in
theorem Inv.other (h : Inv s l) {addr : Nat} (ho : (s.threads t).owned = some addr) {u : θ} (hu : u ≠ t) :
    (s.threads u).owned ≠ some addr :=
  fun he => hu (h.owner u t addr he ho)

/-- A step that takes no node and gives none leaves the credits. -/
theorem Inv.credits_goto (h : Inv s l) (hh : th.holds = (s.threads t).holds) :
    l.length = s.semProduct + Crowd.count Thread.holds (Function.update s.threads t th) := by
  have hcount := holds_goto s t th
  rw [hh] at hcount
  rw [Nat.add_right_cancel hcount]
  exact h.credits

/-- One thread moves, and the semaphores with it. -/
theorem inv_goto (h : Inv s l) {place product : Nat} {posted : List Nat} {nullRead : Bool} (hnull : nullRead = false)
    (hcredit : product + th.holds.toNat = s.semProduct + (s.threads t).holds.toNat)
    (hposted : ∀ serial ∈ posted, Accounted s.mem s.consumed l serial)
    (howned : th.owned = none ∨ th.owned = (s.threads t).owned) (hok : ThreadOk s.mem s.consumed l th) :
    Inv ({ s with semPlace := place, semProduct := product, posted := posted, nullRead := nullRead }.goto t th) l := by
  have hcount := holds_goto s t th
  have hcr := h.credits
  refine ⟨h.chain, ?_, ⟨hnull, h.sound.2⟩, h.heap, hposted, owner_goto h.owner fun addr ha u hu => ?_, ?_⟩
  · simp only [State.goto]
    omega
  · rcases howned with hn | he
    · simp [hn] at ha
    · exact h.other (he ▸ ha) hu
  · exact (Function.forall_update_iff s.threads fun _ th => ThreadOk s.mem s.consumed l th).2
      ⟨hok, fun u _ => h.threads u⟩

/-! ## Steps on a node -/

omit [Fintype θ] [DecidableEq θ] in
/-- Writing `next` of a node leaves the serial numbers alone. -/
theorem serialAt_update {addr : Nat} {n : Node} (hn : mem addr = some n) (p : Option Nat) :
    serialAt (Function.update mem addr (some { n with next := p })) = serialAt mem := by
  funext b
  by_cases hb : b = addr
  · subst hb
    simp [serialAt, hn]
  · simp [serialAt, hb]

/-- A thread writes `next` of its own node. -/
theorem inv_setNext (h : Inv s l) {addr : Nat} {n : Node} {p : Option Nat} (hn : s.mem addr = some n)
    (hpush : (s.threads t).pushing = true) (htmp : (s.threads t).tmp = some addr) (hold : th.pushing = true)
    (hnew : th.tmp = some addr) (hser : th.serial = (s.threads t).serial) (hlink : th.pc = .pushHead → th.seen = p) :
    Inv ((s.store addr (some { n with next := p })).goto t th) l := by
  have ho : (s.threads t).owned = some addr := (Thread.owned_of_pushing hpush).trans htmp
  have hno : th.owned = some addr := (Thread.owned_of_pushing hold).trans hnew
  have hnot : addr ∉ l := ((h.threads t).owned addr ho).1
  have hs := serialAt_update hn p
  have hholds : th.holds = (s.threads t).holds :=
    (Thread.holds_of_pushing hold).trans (Thread.holds_of_pushing hpush).symm
  refine ⟨h.chain.update hnot _, h.credits_goto hholds, h.sound, ?_,
    fun serial hserial => (h.posted serial hserial).update hnot, owner_goto h.owner fun b hb u hu => ?_,
    (Function.forall_update_iff s.threads fun _ th => ThreadOk _ _ _ th).2
      ⟨?_, fun u hu => (h.threads u).update _ hnot (h.other ho hu)⟩⟩
  · obtain ⟨h1, h2, h3, h4, h5⟩ := h.heap
    simp only [State.goto, State.store]
    exact ⟨by rwa [hs], by rwa [hs], h3, h4, by rwa [hs]⟩
  · exact h.other (ho.trans (hno.symm.trans hb)) hu
  · obtain ⟨b, hb, hserial, hnc⟩ := (h.threads t).pushing hpush
    cases htmp.symm.trans hb
    refine ⟨fun b hb => ?_, fun _ => ⟨addr, hnew, ?_, hser ▸ hnc⟩, fun hpc b hb => ?_, fun hpc => ?_, fun hpc => ?_⟩
    · cases hno.symm.trans hb
      exact ⟨hnot, by simp [State.store, State.goto]⟩
    · simpa only [State.store, State.goto, hs, hser] using hserial
    · cases hnew.symm.trans hb
      simp [State.store, State.goto, hlink hpc]
    · simp [Thread.pushing, hpc] at hold
    · simp [Thread.pushing, hpc] at hold

theorem inv_malloc (h : Inv s l) {addr : Nat} {raw : Option Nat} (hpc : (s.threads t).pc = .malloc)
    (hm : s.mem addr = none) :
    Inv ({ s.store addr (some { next := raw, serial := s.fresh }) with fresh := s.fresh + 1 }.goto t
      { s.threads t with pc := .clearNext, tmp := some addr, serial := s.fresh }) l := by
  have hnot : addr ∉ l := fun hl => by obtain ⟨n, hn⟩ := h.chain.live hl; simp [hm] at hn
  have hfree : ∀ u, (s.threads u).owned ≠ some addr := fun u hu => ((h.threads u).owned addr hu).2 hm
  have hholds : { s.threads t with pc := .clearNext, tmp := some addr, serial := s.fresh : Thread }.holds =
      (s.threads t).holds := by simp [Thread.holds, hpc]
  obtain ⟨hbelow, hdist, hold, honce, hlisted⟩ := h.heap
  have hat : ∀ b serial, serialAt (Function.update s.mem addr (some { next := raw, serial := s.fresh })) b =
      some serial → b = addr ∧ serial = s.fresh ∨ b ≠ addr ∧ serialAt s.mem b = some serial := by
    intro b serial hb
    by_cases he : b = addr
    · subst he
      simp [serialAt] at hb
      exact .inl ⟨rfl, hb.symm⟩
    · exact .inr ⟨he, by simpa [serialAt, he] using hb⟩
  refine ⟨h.chain.update hnot _, h.credits_goto hholds, h.sound, ⟨?_, ?_, ?_, honce, ?_⟩,
    fun serial hs => (h.posted serial hs).update hnot, owner_goto h.owner fun b hb u _ => ?_,
    (Function.forall_update_iff s.threads fun _ th => ThreadOk _ _ _ th).2
      ⟨?_, fun u _ => (h.threads u).update _ hnot (hfree u)⟩⟩
  · intro b serial hb
    rcases hat b serial hb with ⟨-, rfl⟩ | ⟨-, hb⟩
    · exact Nat.lt_succ_self _
    · exact Nat.lt_succ_of_lt (hbelow b serial hb)
  · intro a b serial ha hb
    rcases hat a serial ha with ⟨haa, rfl⟩ | ⟨-, ha'⟩ <;> rcases hat b _ hb with ⟨hba, hs⟩ | ⟨-, hb'⟩
    · rw [haa, hba]
    · exact absurd (hbelow b _ hb') (Nat.lt_irrefl _)
    · exact absurd (hs ▸ hbelow a _ ha') (Nat.lt_irrefl _)
    · exact hdist a b serial ha' hb'
  · exact fun serial hs => Nat.lt_succ_of_lt (hold serial hs)
  · intro b hb serial hs
    rcases hat b serial hs with ⟨rfl, -⟩ | ⟨-, hs⟩
    · exact absurd hb hnot
    · exact hlisted b hb serial hs
  · simp only [Thread.owned, Option.some.injEq] at hb
    exact hb ▸ hfree u
  · refine ⟨fun b hb => ?_, fun _ => ⟨addr, rfl, by simp [serialAt, State.store, State.goto],
      fun hc => ?_⟩, nofun, nofun, nofun⟩
    · cases hb
      exact ⟨hnot, by simp [State.store, State.goto]⟩
    · exact absurd (hold _ hc) (Nat.lt_irrefl _)

/-- A producer puts its node in front of the list that it has read. -/
theorem inv_pushHead (h : Inv s l) (hpc : (s.threads t).pc = .pushHead) (hc : s.head = (s.threads t).seen) :
    ∃ addr, Inv ({ s with head := (s.threads t).tmp }.goto t { s.threads t with pc := .postProduct }) (addr :: l) := by
  have hpush : (s.threads t).pushing = true := by simp [Thread.pushing, hpc]
  obtain ⟨addr, htmp, hserial, hnc⟩ := (h.threads t).pushing hpush
  have ho : (s.threads t).owned = some addr := (Thread.owned_of_pushing hpush).trans htmp
  have hlink := (h.threads t).link hpc addr htmp
  obtain ⟨n, hn, hnext⟩ := Option.map_eq_some_iff.1 hlink
  have hacc : ∀ serial, Accounted s.mem s.consumed l serial → Accounted s.mem s.consumed (addr :: l) serial :=
    fun serial ha => ha.imp id fun ⟨b, hb, he⟩ => ⟨b, List.mem_cons_of_mem _ hb, he⟩
  have hcount := holds_goto s t { s.threads t with pc := .postProduct }
  obtain ⟨hbelow, hdist, hold, honce, hlisted⟩ := h.heap
  refine ⟨addr, htmp ▸ h.chain.push hn (hnext.trans hc.symm), ?_, h.sound, ⟨hbelow, hdist, hold, honce, ?_⟩,
    fun serial hs => hacc _ (h.posted serial hs), owner_goto h.owner nofun,
    (Function.forall_update_iff s.threads fun _ th => ThreadOk _ _ _ th).2 ⟨?_, fun u hu => ?_⟩⟩
  · have := h.credits
    simp only [Thread.holds, hpc, Bool.toNat_true, Bool.toNat_false] at hcount
    simp only [State.goto, List.length_cons]
    omega
  · intro b hb serial hs
    rcases List.mem_cons.1 hb with rfl | hb
    · cases hserial.symm.trans hs
      exact hnc
    · exact hlisted b hb serial hs
  · exact ⟨nofun, nofun, nofun, fun _ => .inr ⟨addr, .head _, hserial⟩, nofun⟩
  · refine (h.threads u).frame (fun b hb => ⟨rfl, fun hl hm => ?_, fun _ _ => id⟩) hacc
    rcases List.mem_cons.1 hm with rfl | hm
    · exact h.other ho hu hb
    · exact hl hm

/-- A consumer takes the first node of the list that it has read. -/
theorem inv_popHead (h : Inv s l) (hpc : (s.threads t).pc = .popHead) (htmp : s.head = (s.threads t).tmp)
    (hc : ∀ addr ∈ (s.threads t).tmp, (s.mem addr).map Node.next = some (s.threads t).next) :
    ∃ l', Inv ({ s with
      head := (s.threads t).next
      consumed := ((s.threads t).tmp.bind (serialAt s.mem)).toList ++ s.consumed }.goto t
        { s.threads t with pc := .postPlace }) l' := by
  have hcount := holds_goto s t { s.threads t with pc := .postPlace }
  have hcr := h.credits
  simp only [Thread.holds, hpc, Bool.toNat_true, Bool.toNat_false] at hcount
  obtain ⟨addr, hhead⟩ := h.chain.head_of_pos (by omega)
  have ha : (s.threads t).tmp = some addr := htmp.symm.trans hhead
  obtain ⟨n, l', rfl, hn, hchain⟩ := (hhead ▸ h.chain).pop
  have hnext : n.next = (s.threads t).next := by simpa [hn] using hc addr ha
  have hnot : addr ∉ l' := (List.nodup_cons.1 h.chain.nodup).1
  have hserial : serialAt s.mem addr = some n.serial := by simp [serialAt, hn]
  have hcons : ((s.threads t).tmp.bind (serialAt s.mem)).toList ++ s.consumed = n.serial :: s.consumed := by
    simp [ha, hserial]
  rw [hcons]
  have hacc : ∀ serial, Accounted s.mem s.consumed (addr :: l') serial →
      Accounted s.mem (n.serial :: s.consumed) l' serial := by
    rintro serial (hs | ⟨b, hb, hs⟩)
    · exact .inl (List.mem_cons_of_mem _ hs)
    · rcases List.mem_cons.1 hb with rfl | hb
      · cases hserial.symm.trans hs
        exact .inl (.head _)
      · exact .inr ⟨b, hb, hs⟩
  obtain ⟨hbelow, hdist, hold, honce, hlisted⟩ := h.heap
  have hne : ∀ b serial, b ≠ addr → serialAt s.mem b = some serial → serial ≠ n.serial := fun b serial hb hs he =>
    hb (hdist b addr serial hs (he ▸ hserial))
  refine ⟨l', hnext ▸ hchain, ?_, h.sound, ⟨hbelow, hdist, ?_, ?_, ?_⟩, fun serial hs => hacc _ (h.posted serial hs),
    owner_goto h.owner fun b hb u _ hu => ?_,
    (Function.forall_update_iff s.threads fun _ th => ThreadOk _ _ _ th).2 ⟨?_, fun u hu => ?_⟩⟩
  · simp only [List.length_cons] at hcr
    simp only [State.goto]
    omega
  · intro serial hs
    rcases List.mem_cons.1 hs with rfl | hs
    · exact hbelow addr _ hserial
    · exact hold serial hs
  · exact List.nodup_cons.2 ⟨hlisted addr (.head _) _ hserial, honce⟩
  · intro b hb serial hs hm
    rcases List.mem_cons.1 hm with rfl | hm
    · exact hne b _ (fun he => hnot (he ▸ hb)) hs rfl
    · exact hlisted b (List.mem_cons_of_mem _ hb) serial hs hm
  · cases ha.symm.trans hb
    exact ((h.threads u).owned addr hu).1 (.head _)
  · refine ⟨fun b hb => ?_, nofun, nofun, nofun, nofun⟩
    cases ha.symm.trans hb
    exact ⟨hnot, by simp [State.goto, hn]⟩
  · refine (h.threads u).frame (fun b hb => ?_) hacc
    have hb' := ((h.threads u).owned b hb).1
    refine ⟨rfl, fun _ hl => hb' (List.mem_cons_of_mem _ hl), fun serial hs hnc hm => ?_⟩
    rcases List.mem_cons.1 hm with rfl | hm
    · exact hne b _ (fun he => hb' (he ▸ .head _)) hs rfl
    · exact hnc hm

/-- A consumer frees the node that it has taken. -/
theorem inv_free (h : Inv s l) {addr : Nat} (hpc : (s.threads t).pc = .free) (ha : (s.threads t).tmp = some addr) :
    Inv ((s.store addr none).goto t { s.threads t with pc := .waitProduct }) l := by
  have ho : (s.threads t).owned = some addr := by simpa [Thread.owned, hpc] using ha
  have hnot : addr ∉ l := ((h.threads t).owned addr ho).1
  have hholds : { s.threads t with pc := .waitProduct : Thread }.holds = (s.threads t).holds := by
    simp [Thread.holds, hpc]
  obtain ⟨hbelow, hdist, hold, honce, hlisted⟩ := h.heap
  have hat : ∀ b serial, serialAt (Function.update s.mem addr none) b = some serial →
      serialAt s.mem b = some serial := by
    intro b serial hb
    by_cases he : b = addr
    · simp [serialAt, he] at hb
    · simpa [serialAt, he] using hb
  exact ⟨h.chain.update hnot _, h.credits_goto hholds, h.sound, ⟨fun b serial hb => hbelow b serial (hat b serial hb),
    fun a b serial ha hb => hdist a b serial (hat a serial ha) (hat b serial hb), hold, honce,
    fun b hb serial hs => hlisted b hb serial (hat b serial hs)⟩,
    fun serial hs => (h.posted serial hs).update hnot, owner_goto h.owner nofun,
    (Function.forall_update_iff s.threads fun _ th => ThreadOk _ _ _ th).2
      ⟨⟨nofun, nofun, nofun, nofun, nofun⟩, fun u hu => (h.threads u).update _ hnot (h.other ho hu)⟩⟩

/-! ## Every step -/

theorem inv_next {s' : State θ} (h : Inv s l) (hc : Undisturbed s (.next t)) (hs : next s t = some s') :
    ∃ l', Inv s' l' := by
  have hok := h.threads t
  have hnull := h.sound.1
  -- a thread that waits for no node of the list, or has waited for one
  have hhead : (s.threads t).holds = true → ∃ addr, s.head = some addr := fun hh =>
    h.chain.head_of_pos (by
      have hcr := h.credits
      have hpos : 0 < Crowd.count Thread.holds s.threads := Crowd.count_pos hh
      omega)
  unfold next at hs
  simp only [Undisturbed] at hc
  cases hpc : (s.threads t).pc with
  | malloc => simp [hpc] at hs
  | clearNext =>
    simp only [hpc, Option.some.injEq] at hs
    have hpush : (s.threads t).pushing = true := by simp [Thread.pushing, hpc]
    obtain ⟨addr, n, htmp, hn⟩ := hok.pushing_node hpush
    simp only [State.deref, htmp, hn] at hs
    subst hs
    exact ⟨l, inv_setNext h hn hpush htmp rfl rfl rfl nofun⟩
  | waitPlace =>
    simp only [hpc, Option.ite_none_right_eq_some, Option.some.injEq] at hs
    obtain ⟨-, rfl⟩ := hs
    refine ⟨l, inv_goto h hnull (by simp [Thread.holds, hpc]) h.posted (.inr (by simp [Thread.owned, hpc]))
      ⟨?_, ?_, nofun, nofun, nofun⟩⟩
    · simpa [Thread.owned, hpc] using hok.owned
    · simpa [Thread.pushing, hpc] using hok.pushing
  | readHead =>
    simp only [hpc, Option.some.injEq] at hs
    subst hs
    refine ⟨l, inv_goto h hnull (by simp [Thread.holds, hpc]) h.posted (.inr (by simp [Thread.owned, hpc]))
      ⟨?_, ?_, nofun, nofun, nofun⟩⟩
    · simpa [Thread.owned, hpc] using hok.owned
    · simpa [Thread.pushing, hpc] using hok.pushing
  | setNext =>
    simp only [hpc, Option.some.injEq] at hs
    have hpush : (s.threads t).pushing = true := by simp [Thread.pushing, hpc]
    obtain ⟨addr, n, htmp, hn⟩ := hok.pushing_node hpush
    simp only [State.deref, htmp, hn] at hs
    subst hs
    exact ⟨l, inv_setNext h hn hpush htmp rfl rfl rfl fun _ => rfl⟩
  | pushHead =>
    simp only [hpc, Option.some.injEq] at hs hc
    subst hs
    obtain ⟨addr, hi⟩ := inv_pushHead h hpc hc
    exact ⟨addr :: l, hi⟩
  | postProduct =>
    simp only [hpc, Option.some.injEq] at hs
    subst hs
    refine ⟨l, inv_goto h hnull (by simp [Thread.holds, hpc]) ?_ (.inl rfl) ⟨nofun, nofun, nofun, nofun, nofun⟩⟩
    intro serial hserial
    rcases List.mem_cons.1 hserial with rfl | hserial
    · exact hok.post hpc
    · exact h.posted serial hserial
  | waitProduct =>
    simp only [hpc, Option.ite_none_right_eq_some, Option.some.injEq] at hs
    obtain ⟨hpos, rfl⟩ := hs
    refine ⟨l, inv_goto h hnull ?_ h.posted (.inl rfl) ⟨nofun, nofun, nofun, nofun, nofun⟩⟩
    simp only [Thread.holds, hpc, Bool.toNat_true, Bool.toNat_false]
    omega
  | readTmp =>
    simp only [hpc, Option.some.injEq] at hs
    subst hs
    obtain ⟨addr, ha⟩ := hhead (by simp [Thread.holds, hpc])
    exact ⟨l, inv_goto h (by simp [hnull, ha]) (by simp [Thread.holds, hpc]) h.posted (.inl rfl)
      ⟨nofun, nofun, nofun, nofun, nofun⟩⟩
  | readAgain =>
    simp only [hpc, Option.some.injEq] at hs
    subst hs
    obtain ⟨addr, ha⟩ := hhead (by simp [Thread.holds, hpc])
    exact ⟨l, inv_goto h (by simp [hnull, ha]) (by simp [Thread.holds, hpc]) h.posted (.inl rfl)
      ⟨nofun, nofun, nofun, nofun, fun _ => by simp [ha]⟩⟩
  | readNext =>
    simp only [hpc, Option.some.injEq] at hs hc
    obtain ⟨addr, ha⟩ := Option.ne_none_iff_exists'.1 (hok.seen hpc)
    obtain ⟨n, hn⟩ := Option.ne_none_iff_exists'.1 (hc addr ha)
    simp only [State.deref, ha, hn] at hs
    subst hs
    exact ⟨l, inv_goto h hnull (by simp [Thread.holds, hpc]) h.posted (.inl rfl) ⟨nofun, nofun, nofun, nofun, nofun⟩⟩
  | popHead =>
    simp only [hpc, Option.some.injEq] at hs hc
    subst hs
    exact inv_popHead h hpc hc.1 hc.2.2
  | postPlace =>
    simp only [hpc, Option.some.injEq] at hs
    subst hs
    refine ⟨l, inv_goto h hnull (by simp [Thread.holds, hpc]) h.posted (.inr (by simp [Thread.owned, hpc]))
      ⟨?_, nofun, nofun, nofun, nofun⟩⟩
    simpa [Thread.owned, hpc] using hok.owned
  | free =>
    simp only [hpc] at hs
    split at hs
    · cases hs
      exact ⟨l, inv_goto h hnull (by simp [Thread.holds, hpc]) h.posted (.inl rfl) ⟨nofun, nofun, nofun, nofun, nofun⟩⟩
    · rename_i addr ha
      obtain ⟨n, hn⟩ := Option.ne_none_iff_exists'.1 (hok.owned addr (by simpa [Thread.owned, hpc] using ha)).2
      simp only [State.deref, ha, hn, Option.some.injEq] at hs
      subst hs
      exact ⟨l, by simpa only [ha] using inv_free h hpc ha⟩

theorem inv_step {s' : State θ} {a : Act θ} (h : ∃ l, Inv s l) (hc : Undisturbed s a) (hs : step s a = some s') :
    ∃ l, Inv s' l := by
  obtain ⟨l, h⟩ := h
  cases a with
  | malloc t addr raw =>
    simp only [step, Option.ite_none_right_eq_some, Option.some.injEq] at hs
    obtain ⟨⟨-, hpc, hm⟩, rfl⟩ := hs
    exact ⟨l, inv_malloc h hpc hm⟩
  | next t =>
    simp only [step, Option.ite_none_right_eq_some] at hs
    exact inv_next h hc hs.2

omit [DecidableEq θ] in
theorem inv_init (h : Init s) : ∃ l, Inv s l := by
  obtain ⟨-, hproduct, hhead, hmem, hpc, hposted, hcons, hnull, hundef⟩ := h
  have hth : ∀ t, (s.threads t).owned = none ∧ (s.threads t).pushing = false ∧ (s.threads t).holds = false ∧
      (s.threads t).pc ≠ .pushHead ∧ (s.threads t).pc ≠ .postProduct ∧ (s.threads t).pc ≠ .readNext := by
    intro t
    rcases hpc t with h | h <;> simp [Thread.owned, Thread.pushing, Thread.holds, h]
  refine ⟨[], hhead, ?_, ⟨hnull, hundef⟩, ?_, by simp [hposted], fun t u addr ht => ?_, fun t => ?_⟩
  · simp [hproduct, Crowd.count_eq_zero fun t => (hth t).2.2.1]
  · constructor <;> simp [serialAt, hmem, hcons]
  · simp [hth] at ht
  · obtain ⟨h1, h2, -, h4, h5, h6⟩ := hth t
    exact ⟨by simp [h1], by simp [h2], fun hp => absurd hp h4, fun hp => absurd hp h5, fun hp => absurd hp h6⟩

omit [DecidableEq θ] in
theorem Inv.all_delivered (h : Inv s l) : Delivered s := by
  refine ⟨h.sound.1, fun serial hs => ⟨List.nodup_iff_count_le_one.1 h.heap.once serial, ?_⟩⟩
  refine (h.posted serial hs).imp id fun ⟨addr, ha, he⟩ => ⟨addr, h.chain.mem_iff.1 ha, he⟩

/-- **Delivery without disturbance**: in every run whose steps find the list as their thread has read it, every posted
node is consumed at most once and is in the list until then, no consumer reads `NULL` from `head`, and nobody accesses
a node that is not there. -/
theorem delivered {as : List (Act θ)} (hs : Init s) (hm : Steps.Meets step Undisturbed s as) :
    Steps.Along step (fun s => Delivered s ∧ s.undefined = false) s as :=
  (Steps.along_of_meets (I := fun _ => True) (P := fun s => ∃ l, Inv s l) (fun _ _ _ _ _ => trivial)
    (fun _ _ _ _ hp hc => inv_step hp hc) trivial (inv_init hs) hm).mono fun _ ⟨_, h⟩ => ⟨h.all_delivered, h.sound.2⟩

end Steps

/-! ## Two producers and a consumer -/

def threeStart : State (Fin 3) where
  semPlace := NUM
  semProduct := 0
  head := none
  mem _ := none
  threads t := { pc := if t = 2 then .waitProduct else .malloc, tmp := none, seen := none, next := none, serial := 0 }
  fresh := 0
  posted := []
  consumed := []
  nullRead := false
  undefined := false

theorem threeStart_init : Init threeStart := ⟨rfl, rfl, rfl, fun _ => rfl, by decide, rfl, rfl, rfl, rfl⟩

instance (s : State (Fin 3)) : DecidablePred (Undisturbed s)
  | .malloc _ _ _ => inferInstanceAs (Decidable True)
  | .next t => by
    unfold Undisturbed
    simp only
    split <;> infer_instance

/-- Producer `0` and then producer `1` push a node, and the consumer takes one. -/
def turnRun : List (Act (Fin 3)) :=
  [.malloc 0 16 none, .next 0, .next 0, .next 0, .next 0, .next 0, .next 0,
    .malloc 1 32 (some 5), .next 1, .next 1, .next 1, .next 1, .next 1, .next 1,
    .next 2, .next 2, .next 2, .next 2, .next 2, .next 2, .next 2]

theorem delivered_turnRun : Steps.Along step (fun s => Delivered s ∧ s.undefined = false) threeStart turnRun :=
  delivered threeStart_init (by decide)

/-- Both producers read the empty `head`, then both push. -/
def lostRun : List (Act (Fin 3)) :=
  [.malloc 0 16 none, .next 0, .next 0, .next 0, .malloc 1 32 none, .next 1, .next 1, .next 1,
    .next 0, .next 0, .next 0, .next 1, .next 1, .next 1]

/-- **A node is lost**: it is posted, and neither consumed nor in the list. -/
theorem node_lost : Init threeStart ∧
    ∃ s, Steps.run step threeStart lostRun = some s ∧ s.undefined = false ∧ ¬Delivered s := by
  obtain ⟨s, hs, hu, hp, hc, hhead, hmem⟩ : ∃ s, Steps.run step threeStart lostRun = some s ∧ s.undefined = false ∧
      s.posted = [1, 0] ∧ s.consumed = [] ∧ s.head = some 32 ∧ s.mem 32 = some { next := none, serial := 1 } :=
    ⟨_, rfl, rfl, rfl, rfl, rfl, rfl⟩
  refine ⟨threeStart_init, s, hs, hu, fun h => ?_⟩
  rcases (h.2 0 (by simp [hp])).2 with hm | ⟨addr, hr, hserial⟩
  · simp [hc] at hm
  · -- the list from `head` on is the node of the second producer
    have hchain : Chain Node.next s.mem s.head [32] := ⟨hhead, _, hmem, rfl⟩
    cases List.mem_singleton.1 (hchain.mem_iff.2 hr)
    simp [serialAt, hmem] at hserial

end SystemFunc.SemList
