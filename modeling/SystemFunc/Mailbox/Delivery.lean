import SystemFunc.Lib.BoundedFifo
import SystemFunc.Mailbox.Defs

/-!
# The segment is a mailbox for one message

`Segment.slot` is what the segment stands for: a first-in-first-out queue of at most one message, in which `pid` says
whether there is one, whatever was left in `data`. A producer puts its message in if the queue takes it
(`produce_push`), and a consumer takes what the queue gives (`consume_pop`). So what the consumers have printed and what
is in the queue is what the producers have printed, in order (`delivered_in_order`).
-/

namespace SystemFunc.Mailbox

/-- The message in the segment. -/
def Segment.slot (seg : Segment) : BoundedFifo Message 1 :=
  if seg.pid = 0 then BoundedFifo.empty else ⟨[(seg.pid, strOf seg.data.buf)], Nat.le_refl 1⟩

/-- A message in the segment is a string that ends in the buffer, and `size` is its length. -/
structure Segment.Sound (seg : Segment) : Prop where
  buf : seg.data.buf.length = 1024
  text : seg.pid ≠ 0 → ∃ str rest, 0 ∉ str ∧ seg.data.buf = str ++ 0 :: rest ∧ seg.data.size = str.length

variable {seg : Segment} {p : Producer} {cache : List UInt8}

theorem Segment.slot_empty (h : seg.pid = 0) : seg.slot = BoundedFifo.empty := if_pos h

theorem Segment.slot_full (h : seg.pid ≠ 0) : seg.slot.items = [(seg.pid, strOf seg.data.buf)] := by
  rw [Segment.slot, if_neg h]

theorem Producer.nul_notMem_text (p : Producer) : 0 ∉ p.text := by
  have hcolon : (0 : UInt8) ∉ lit ":" := by decide
  simp [Producer.text, p.terminated, hcolon, nul_notMem_decimal]

/-- What the producer finds in the buffer after `sprintf`. -/
theorem produce_empty (h : seg.pid = 0) (hbuf : seg.data.buf.length = 1024) (hfit : p.text.length < 1024) :
    produce p seg = .ok ({ p with id := s32 (p.id + 1) },
      ⟨p.pid, ⟨p.text.length, p.text ++ 0 :: seg.data.buf.drop (p.text.length + 1)⟩⟩, some (p.pid, p.text)) := by
  have hnul := p.nul_notMem_text
  rw [produce, if_pos h, strcpy_eq hnul, hbuf, if_pos hfit, ok_bind, readStr_append_nul hnul, ok_bind]
  rfl

theorem produce_full (h : seg.pid ≠ 0) : produce p seg = .ok (p, seg, none) := if_neg h

/-- **The section of a producer** puts its message in the queue, if the queue takes it. -/
theorem produce_push (hseg : seg.Sound) (hfit : seg.pid = 0 → p.text.length < 1024) :
    ∃ p' seg', produce p seg = .ok (p', seg', (seg.slot.push (p.pid, p.text)).map fun _ => (p.pid, p.text)) ∧
      seg'.Sound ∧ seg'.slot = (seg.slot.push (p.pid, p.text)).getD seg.slot := by
  by_cases h : seg.pid = 0
  · rw [produce_empty h hseg.buf (hfit h), Segment.slot_empty h, BoundedFifo.push_of_lt (by decide)]
    have hnul := p.nul_notMem_text
    refine ⟨_, _, rfl, ⟨?_, fun _ => ?_⟩, ?_⟩
    · simp only [List.length_append, List.length_cons, List.length_drop, hseg.buf]
      omega
    · exact ⟨p.text, _, hnul, rfl, rfl⟩
    · simp only [Segment.slot, if_neg p.live, strOf_append_nul hnul]
      rfl
  · have hfull : ¬seg.slot.items.length < 1 := by
      rw [Segment.slot_full h]
      exact Nat.lt_irrefl 1
    rw [produce_full h, BoundedFifo.push_full hfull]
    exact ⟨_, _, rfl, hseg, rfl⟩

/-- **The section of a consumer** takes from the queue what is in it. -/
theorem consume_pop (hseg : seg.Sound) (hcache : cache.length = 1024) :
    ∃ cache' seg', consume cache seg = .ok (cache', seg', seg.slot.pop.map Prod.fst) ∧ cache'.length = 1024 ∧
      seg'.Sound ∧ seg'.slot = (seg.slot.pop.map Prod.snd).getD seg.slot := by
  by_cases h : seg.pid = 0
  · rw [consume, if_neg (not_not.2 h), Segment.slot_empty h]
    exact ⟨_, _, rfl, hcache, hseg, Segment.slot_empty h⟩
  · obtain ⟨str, rest, hnul, hbuf, hsize⟩ := hseg.text h
    have hlen := hseg.buf
    rw [hbuf, List.length_append, List.length_cons] at hlen
    have htake : seg.data.buf.take seg.data.size = str := by rw [hbuf, hsize, List.take_left]
    have hcopy := @memcpy_setCell cache seg.data.buf seg.data.size (by omega)
      (by rw [hseg.buf]; omega)
    rw [htake] at hcopy
    obtain ⟨copied, hmemcpy, hset⟩ := bind_eq_ok.1 hcopy
    obtain ⟨hl, hpop⟩ := BoundedFifo.pop_cons (Segment.slot_full h)
    rw [consume, if_pos h, hmemcpy, ok_bind, hset, ok_bind, readStr_append_nul hnul, ok_bind, hpop, Option.map_some,
      hbuf, strOf_append_nul hnul]
    refine ⟨_, _, rfl, ?_, ⟨hseg.buf, fun hne => absurd rfl hne⟩, Segment.slot_empty rfl⟩
    simp only [List.length_append, List.length_cons, List.length_drop]
    omega

/-! ## Runs -/

variable {ι κ : Type} {s t : State ι κ} {a : Act ι κ}

/-- What the processes have printed: nothing undefined has happened; the lines of the consumers and the message in the
segment are the lines of the producers; and a message is overwritten only when all have been consumed. -/
structure Delivered [DecidableEq ι] [DecidableEq κ] (s : State ι κ) : Prop where
  defined : s.undefined = false
  order : s.consumed ++ s.seg.slot.items = s.produced
  kept : ∀ a t, step s a = some t → t.seg.data ≠ s.seg.data → s.consumed = s.produced

/-- The invariant. -/
structure Inv (s : State ι κ) : Prop where
  seg : s.seg.Sound
  cache : ∀ i, (s.caches i).length = 1024
  defined : s.undefined = false
  delivered : s.consumed ++ s.seg.slot.items = s.produced

theorem Inv.init (h : Init s) : Inv s := by
  refine ⟨⟨h.buf, fun hne => absurd h.pid hne⟩, h.cache, h.undefined, ?_⟩
  rw [Segment.slot_empty h.pid, h.consumed, h.produced]
  rfl

variable [DecidableEq ι] [DecidableEq κ]

theorem Inv.act (h : Inv s) (hfit : Fits s a) : ∃ t, act s a = .ok t ∧ Inv t := by
  cases a with
  | produce i =>
    obtain ⟨p', seg', hp, hseg, hslot⟩ := produce_push h.seg hfit
    rw [Mailbox.act, hp, ok_bind]
    refine ⟨_, rfl, hseg, h.cache, h.defined, ?_⟩
    simp only [hslot]
    exact BoundedFifo.append_push h.delivered
  | consume i =>
    obtain ⟨cache', seg', hc, hcache, hseg, hslot⟩ := consume_pop h.seg (h.cache i)
    rw [Mailbox.act, hc, ok_bind]
    refine ⟨_, rfl, hseg, fun j => ?_, h.defined, ?_⟩
    · by_cases hj : j = i
      · subst hj
        simp only [Function.update_self, hcache]
      · simp only [Function.update_of_ne hj, h.cache j]
    · simp only [hslot]
      exact BoundedFifo.pop_append h.delivered

/-- **Every step** within the condition keeps the invariant. -/
theorem Inv.step (h : Inv s) (hfit : Fits s a) (hs : step s a = some t) : Inv t := by
  obtain ⟨t', ht, hinv⟩ := h.act hfit
  have hdef : ¬s.undefined = true := by rw [h.defined]; decide
  rw [Mailbox.step, if_neg hdef, ht] at hs
  cases hs
  exact hinv

theorem consume_data {cache' : List UInt8} {seg' : Segment} {printed : Option Message}
    (h : consume cache seg = .ok (cache', seg', printed)) : seg'.data = seg.data := by
  unfold consume at h
  split at h
  · obtain ⟨_, -, h⟩ := bind_eq_ok.1 h
    obtain ⟨_, -, h⟩ := bind_eq_ok.1 h
    obtain ⟨_, -, h⟩ := bind_eq_ok.1 h
    cases h
    rfl
  · cases h
    rfl

/-- A step leaves the message in the segment where it is. -/
theorem step_data (h : s.seg.pid ≠ 0) (hs : step s a = some t) : t.seg.data = s.seg.data := by
  unfold Mailbox.step at hs
  split at hs
  · cases hs
  cases hact : act s a with
  | error e =>
    rw [hact] at hs
    cases hs
    rfl
  | ok t' =>
    rw [hact] at hs
    cases hs
    cases a with
    | produce i =>
      rw [act, produce_full h, ok_bind] at hact
      cases hact
      rfl
    | consume i =>
      obtain ⟨⟨cache', seg', printed⟩, hc, hact⟩ := bind_eq_ok.1 hact
      cases hact
      exact consume_data hc

theorem Inv.delivered_of (h : Inv s) : Delivered s := by
  refine ⟨h.defined, h.delivered, fun a t hs hne => ?_⟩
  have hpid : s.seg.pid = 0 := by
    by_contra hpid
    exact hne (step_data hpid hs)
  have horder := h.delivered
  rw [Segment.slot_empty hpid] at horder
  exact (List.append_nil _).symm.trans horder

/-- **Every message is delivered once, and in order**: in every state of a run in which the messages are shorter than
the buffer. -/
theorem delivered_in_order {as : List (Act ι κ)} (h : Init s) (hfit : Steps.Meets step Fits s as) :
    Steps.Along step Delivered s as := by
  have hinv : Steps.Along step Inv s as := by
    apply Steps.along_of_meets (I := fun _ => True) ?_ ?_ trivial (Inv.init h) hfit
    · exact fun _ _ _ _ _ => trivial
    · exact fun s a t _ hs hc hstep => hs.step hc hstep
  exact hinv.mono fun s hs => hs.delivered_of

/-! ## Two producers and a consumer -/

def letterA : Producer := ⟨lit "a", 41, 1, by decide, by decide⟩

def letterB : Producer := ⟨lit "b", 42, 1, by decide, by decide⟩

def newSegment : State Bool Unit where
  seg := ⟨0, ⟨7, List.replicate 1024 120⟩⟩
  producers i := if i then letterA else letterB
  caches _ := List.replicate 1024 0
  undefined := false
  produced := []
  consumed := []

theorem newSegment_init : Init newSegment := by
  refine ⟨rfl, List.length_replicate, ?_, fun _ => List.length_replicate, rfl, rfl, rfl⟩
  rintro (_ | _) <;> rfl

/-- The second producer finds the segment full once. -/
def letters : List (Act Bool Unit) :=
  [.produce true, .produce false, .consume (), .consume (), .produce false, .produce true]

theorem delivered_in_order_letters : Steps.Along step Delivered newSegment letters ∧
    (Steps.run step newSegment letters).map (fun s => (s.consumed, s.seg.slot.items)) =
      some ([(41, lit "a:1")], [(42, lit "b:1")]) :=
  ⟨delivered_in_order newSegment_init (by decide +kernel), by decide +kernel⟩

end SystemFunc.Mailbox
