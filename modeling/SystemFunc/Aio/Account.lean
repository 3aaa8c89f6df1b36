import SystemFunc.Aio.Defs
import SystemFunc.Lib.CondVar
import SystemFunc.Lib.Slots

/-!
# The account of the requests

A node whose status is `1` has a request, submitted or finished, and the only requests of retired nodes are cancelled
ones (`Node.Fits`). So a notification that comes for a node is the end of its request, unless the scan of the main loop
has retired the node before, or `read_cb` writes outside of its buffer: `accounted_iff` says that the account is kept
along a run exactly when no notification of this kind is delivered. In `canceledWrite` one is.
-/

namespace SystemFunc.Aio

open CondVar Slots

/-- The request of a node fits its status. -/
def Node.Fits (quit : Bool) (n : Node) : Prop :=
  match n.req with
  | .none => n.status = false
  | .submitted cb => n.status = true ∧ (cb = .readCb → n.nbytes = BUF_SIZE)
  | .finished _ .canceled => quit = true
  | .finished cb (.done k) => n.status = true ∧ (cb = .readCb → k ≤ BUF_SIZE)
  | .finished _ (.failed errno) => n.status = true ∧ errno ≠ 0 ∧ errno ≠ EINPROGRESS ∧ errno ≠ ECANCELED

/-- The invariant. -/
structure Inv (s : State) : Prop where
  accounted : Accounted s
  length : s.nodes.length = AIOCB_CNT
  apart : ∀ (i j : Nat) n m, s.nodes[i]? = some n → s.nodes[j]? = some m → n.status = true → m.status = true →
    n.fildes = m.fildes → i = j
  req : ∀ n ∈ s.nodes, n.Fits s.gQuitFlag

variable {s t : State} {idx : Nat} {n n' : Node}

/-! ## Changes that keep the account -/

/-- A node that keeps its status and descriptor. -/
theorem Inv.request (h : Inv s) (hn : s.nodes[idx]? = some n) (hstatus : n'.status = n.status)
    (hfildes : n'.fildes = n.fildes) (hfits : n'.Fits s.gQuitFlag) : Inv { s with nodes := s.nodes.set idx n' } := by
  have hmem := List.mem_of_getElem? hn
  refine ⟨⟨?_, ?_, ?_, h.accounted.defined⟩, (List.length_set ..).trans h.length, ?_, forall_mem_set h.req hfits⟩
  · have hcount := countP_set_add Node.status hn n'
    rw [hstatus] at hcount
    rw [h.accounted.actCnt, Nat.add_right_cancel hcount]
  · apply forall_mem_set h.accounted.served
    intro hlive
    rw [hfildes]
    exact h.accounted.served n hmem (hstatus.symm.trans hlive)
  · intro c conn hc hnone
    apply h.accounted.rest c conn hc
    intro m hm hlive
    obtain ⟨j, hj⟩ := List.mem_iff_getElem?.1 hm
    by_cases hji : j = idx
    · subst hji
      cases hn.symm.trans hj
      rw [← hfildes]
      exact hnone n' (List.mem_set (List.getElem?_eq_some_iff.1 hn).1 n') (hstatus.trans hlive)
    · exact hnone m (slot_mem_set hji hj) hlive
  · intro i j m m' hi hj hm hm' he
    rcases slot_set hi with ⟨rfl, rfl⟩ | ⟨hne, hi'⟩ <;> rcases slot_set hj with ⟨rfl, hfd⟩ | ⟨-, hj'⟩
    · rfl
    · exact h.apart i j n m' hn hj' (hstatus.symm.trans hm) hm' (hfildes.symm.trans he)
    · subst hfd
      exact h.apart i j m n hi' hn hm (hstatus.symm.trans hm') (he.trans hfildes)
    · exact h.apart i j m m' hi' hj' hm hm' he

/-- A node with status `1` is retired. -/
theorem Inv.retire {req : Req} (h : Inv s) (hn : s.nodes[idx]? = some n) (hstatus : n.status = true)
    (hfits : Node.Fits s.gQuitFlag { n with status := false, req := req }) :
    Inv (retire s idx { n with req := req }) := by
  have hconn := h.accounted.served n (List.mem_of_getElem? hn) hstatus
  refine ⟨⟨?_, ?_, ?_, h.accounted.defined⟩, (List.length_set ..).trans h.length, ?_, forall_mem_set h.req hfits⟩
  · have hcount := countP_set_add Node.status hn { n with status := false, req := req }
    rw [hstatus] at hcount
    show s.actCnt - 1 = ((s.nodes.set idx { n with status := false, req := req }).countP Node.status : Int)
    rw [h.accounted.actCnt]
    simp only [Bool.toNat_true, Bool.toNat_false] at hcount
    omega
  · intro m hm hlive
    obtain ⟨j, hj⟩ := List.mem_iff_getElem?.1 hm
    rcases slot_set hj with ⟨-, rfl⟩ | ⟨hne, hj⟩
    · cases hlive
    · have hfildes : n.fildes ≠ m.fildes := fun he => hne (h.apart j idx m n hj hn hlive hstatus he.symm)
      show (s.conns.modify n.fildes _)[m.fildes]? = _
      rw [List.getElem?_modify_ne _ _ hfildes]
      exact h.accounted.served m (List.mem_of_getElem? hj) hlive
  · intro c conn hc hnone
    change (s.conns.modify n.fildes _)[c]? = _ at hc
    by_cases hcn : n.fildes = c
    · subst hcn
      rw [List.getElem?_modify_eq, hconn, hstatus] at hc
      cases hc
      exact ⟨rfl, rfl⟩
    · rw [List.getElem?_modify_ne _ _ hcn] at hc
      apply h.accounted.rest c conn hc
      intro m hm hlive
      obtain ⟨j, hj⟩ := List.mem_iff_getElem?.1 hm
      by_cases hji : j = idx
      · subst hji
        cases hn.symm.trans hj
        exact hcn
      · exact hnone m (slot_mem_set hji hj) hlive
  · intro i j m m' hi hj hm hm' he
    rcases slot_set hi with ⟨-, rfl⟩ | ⟨-, hi⟩
    · cases hm
    · rcases slot_set hj with ⟨-, rfl⟩ | ⟨-, hj⟩
      · cases hm'
      · exact h.apart i j m m' hi hj hm hm' he

/-- A new connection leaves the others. -/
theorem Accounted.served_append (h : Accounted s) {c : Conn} (hn : n ∈ s.nodes) (hstatus : n.status = true) :
    (s.conns ++ [c])[n.fildes]? = some { served := true, left := 0, closed := 0 } := by
  have hconn := h.served n hn hstatus
  rw [List.getElem?_append_left (List.getElem?_eq_some_iff.1 hconn).1, hconn]

/-- A connection for which there is no node. -/
theorem Inv.refuse (h : Inv s) : Inv { s with conns := s.conns ++ [{ served := false, left := 0, closed := 1 }] } := by
  refine ⟨⟨h.accounted.actCnt, ?_, ?_, h.accounted.defined⟩, h.length, h.apart, h.req⟩
  · exact fun m hm hlive => h.accounted.served_append hm hlive
  · intro c conn hc hnone
    rcases slot_snoc hc with ⟨-, rfl⟩ | hc
    · exact ⟨rfl, rfl⟩
    · exact h.accounted.rest c conn hc hnone

/-- A connection for a free node. -/
theorem Inv.serve (h : Inv s) (hn : s.nodes[idx]? = some n) (hstatus : n.status = false) :
    Inv { s with
      actCnt := s.actCnt + 1
      conns := s.conns ++ [{ served := true, left := 0, closed := 0 }]
      nodes := s.nodes.set idx
        { status := true, fildes := s.conns.length, nbytes := BUF_SIZE, req := .submitted .readCb } } := by
  have hold : ∀ m ∈ s.nodes, m.status = true → m.fildes ≠ s.conns.length := by
    intro m hm hlive he
    have hlt := (List.getElem?_eq_some_iff.1 (h.accounted.served m hm hlive)).1
    rw [he] at hlt
    exact Nat.lt_irrefl _ hlt
  refine ⟨⟨?_, ?_, ?_, h.accounted.defined⟩, (List.length_set ..).trans h.length, ?_, ?_⟩
  · have hcount := countP_set_add Node.status hn
      { status := true, fildes := s.conns.length, nbytes := BUF_SIZE, req := .submitted .readCb }
    rw [hstatus] at hcount
    simp only [Bool.toNat_true, Bool.toNat_false] at hcount
    dsimp only
    rw [h.accounted.actCnt]
    omega
  · intro m hm hlive
    rcases List.mem_or_eq_of_mem_set hm with hm | rfl
    · exact h.accounted.served_append hm hlive
    · exact List.getElem?_concat_length
  · intro c conn hc hnone
    rcases slot_snoc hc with ⟨rfl, -⟩ | hc
    · exact absurd rfl (hnone _ (List.mem_set (List.getElem?_eq_some_iff.1 hn).1 _) rfl)
    · apply h.accounted.rest c conn hc
      intro m hm hlive
      obtain ⟨j, hj⟩ := List.mem_iff_getElem?.1 hm
      refine hnone m (slot_mem_set ?_ hj) hlive
      rintro rfl
      cases hn.symm.trans hj
      rw [hstatus] at hlive
      cases hlive
  · intro i j m m' hi hj hm hm' he
    rcases slot_set hi with ⟨rfl, rfl⟩ | ⟨-, hi'⟩ <;> rcases slot_set hj with ⟨rfl, hfd⟩ | ⟨-, hj'⟩
    · rfl
    · exact absurd he.symm (hold m' (List.mem_of_getElem? hj') hm')
    · subst hfd
      exact absurd he (hold m (List.mem_of_getElem? hi') hm)
    · exact h.apart i j m m' hi' hj' hm hm' he
  · exact forall_mem_set h.req ⟨rfl, fun _ => rfl⟩

theorem Node.Fits.quit {quit : Bool} (h : n.Fits quit) : n.Fits true := by
  unfold Node.Fits at h ⊢
  split at h <;> first | exact h | exact rfl

theorem Inv.quit (h : Inv s) : Inv { s with gQuitFlag := true } :=
  ⟨⟨h.accounted.actCnt, h.accounted.served, h.accounted.rest, h.accounted.defined⟩, h.length, h.apart,
    fun n hn => (h.req n hn).quit⟩

theorem Inv.stop (h : Inv s) {e : End} (he : e ≠ .undefined) : Inv { s with ended := some e } :=
  ⟨⟨h.accounted.actCnt, h.accounted.served, h.accounted.rest, fun hu => he (Option.some.inj hu)⟩, h.length, h.apart,
    h.req⟩

/-! ## The sections -/

theorem Inv.node (h : Inv s) (hidx : idx ∈ List.range AIOCB_CNT) : ∃ n, s.nodes[idx]? = some n :=
  ⟨_, List.getElem?_eq_getElem (h.length ▸ List.mem_range.1 hidx)⟩

theorem scan_safe (h : Inv s) (hidx : idx ∈ List.range AIOCB_CNT) : Safe Inv (scanNode s idx) := by
  obtain ⟨n, hn⟩ := h.node hidx
  have hfits := h.req n (List.mem_of_getElem? hn)
  rw [scanNode, hn]
  dsimp only
  split
  · exact h
  · rename_i hstatus
    have hstatus : n.status = true := by simpa using hstatus
    cases hreq : n.req with
    | none =>
      rw [Node.Fits, hreq, hstatus] at hfits
      cases hfits
    | submitted cb => exact h
    | finished cb res =>
      rw [Node.Fits, hreq] at hfits
      cases res with
      | done k => exact h
      | failed errno =>
        obtain ⟨-, h0, hprogress, hcanceled⟩ := hfits
        rw [aioError, ok_bind, if_neg (not_or.2 ⟨h0, hprogress⟩), if_neg hcanceled]
        exact safe_exit
      | canceled =>
        refine @Inv.retire s idx n n.req h hn hstatus ?_
        rw [Node.Fits, hreq]
        exact hfits

theorem cancel_safe {answers : Nat → CancelAnswer} (h : Inv s ∧ s.gQuitFlag = true)
    (hidx : idx ∈ List.range AIOCB_CNT) :
    Safe (fun t => Inv t ∧ t.gQuitFlag = true) (cancelNode answers s idx) := by
  obtain ⟨n, hn⟩ := h.1.node hidx
  rw [cancelNode, hn]
  dsimp only
  split
  · exact h
  · split
    · exact safe_exit
    · exact ⟨h.1.request hn rfl rfl h.2, h.2⟩
    · exact safe_disabled
    · exact h

theorem sigInt_safe {answers : Nat → CancelAnswer} (h : Inv s) : Safe Inv (sigInt s answers) := by
  have hloop : Safe (fun t => Inv t ∧ t.gQuitFlag = true) (sigInt s answers) :=
    Safe.foldlM (fun idx hidx t ht => cancel_safe ht hidx) ⟨h.quit, rfl⟩
  exact hloop.mono fun t ht => ht.1

theorem accept_safe {accepted : AcceptAnswer} (h : Inv s) : Safe Inv (acceptSection s accepted) := by
  cases accepted with
  | interrupted => exact h
  | failed errno => exact safe_exit
  | connection submitted =>
    unfold acceptSection
    dsimp only
    split
    · exact h.refuse
    · rename_i hroom
      have hlt : s.nodes.findIdx (fun n => !n.status) < s.nodes.length := by
        rw [h.length]
        exact Nat.not_le.1 hroom
      have hfree : s.nodes[s.nodes.findIdx fun n => !n.status].status = false := by
        simpa using List.findIdx_getElem (w := hlt)
      cases submitted with
      | error errno => exact safe_exit
      | ok u => exact h.serve (List.getElem?_eq_getElem hlt) hfree

theorem pass_safe {accepted : AcceptAnswer} (h : Inv s) : Safe Inv (pass s accepted) := by
  have hscan : ∀ t, Inv t → Safe Inv ((List.range AIOCB_CNT).foldlM scanNode t) := fun t ht =>
    Safe.foldlM (fun idx hidx u hu => scan_safe hu hidx) ht
  unfold pass
  split
  · exact h.stop (by decide)
  · split
    · exact hscan s h
    · exact (accept_safe h).bind hscan

theorem complete_safe {res : Result} (h : Inv s) : Safe Inv (complete s idx res) := by
  unfold complete
  split
  · exact safe_disabled
  · rename_i n hn
    have hfits := h.req n (List.mem_of_getElem? hn)
    split
    · rename_i cb hreq
      rw [Node.Fits, hreq] at hfits
      split
      · rename_i hanswers
        refine h.request hn rfl rfl ?_
        cases res with
        | done k => exact ⟨hfits.1, fun hcb => hfits.2 hcb ▸ hanswers⟩
        | failed errno => exact ⟨hfits.1, hanswers⟩
        | canceled => exact hanswers.elim
      · exact safe_disabled
    · exact safe_disabled

/-- A request for a node whose request has finished. -/
theorem submit_safe {headStr : String} {submitted : Except Nat Unit} (h : Inv s) (hn : s.nodes[idx]? = some n)
    (hstatus : n'.status = n.status) (hfildes : n'.fildes = n.fildes) (hfits : n'.Fits s.gQuitFlag) :
    Safe Inv (submit s idx n' headStr submitted) := by
  cases submitted with
  | error errno => exact safe_exit
  | ok u => exact h.request hn hstatus hfildes hfits

theorem readCb_safe {res : Result} {submitted : Except Nat Unit} (h : Inv s) (hn : s.nodes[idx]? = some n)
    (hreq : n.req = .finished .readCb res) (ho : aioReturn res ≠ -1 ∧ aioReturn res ≠ BUF_SIZE) :
    Safe Inv (readCb s idx { n with req := .none } (aioReturn res) submitted) := by
  have hfits := h.req n (List.mem_of_getElem? hn)
  rw [Node.Fits, hreq] at hfits
  cases res with
  | failed errno => exact absurd rfl ho.1
  | canceled => exact absurd rfl ho.1
  | done k =>
    obtain ⟨hstatus, hk⟩ := hfits
    unfold readCb
    split
    · exact h.retire hn hstatus rfl
    · have hlt : (k : Int) < BUF_SIZE := by
        have hle := hk rfl
        have hne : (k : Int) ≠ BUF_SIZE := ho.2
        omega
      rw [if_pos ⟨Int.natCast_nonneg k, hlt⟩]
      exact submit_safe h hn rfl rfl ⟨hstatus, fun hcb => nomatch hcb⟩

theorem writeCb_safe {res : Result} {submitted : Except Nat Unit} (h : Inv s) (hn : s.nodes[idx]? = some n)
    (hreq : n.req = .finished .writeCb res) (ho : s.gQuitFlag = true → n.status = true) :
    Safe Inv (writeCb s idx { n with req := .none } submitted) := by
  have hfits := h.req n (List.mem_of_getElem? hn)
  rw [Node.Fits, hreq] at hfits
  unfold writeCb
  split
  · rename_i hquit
    exact h.retire hn (ho hquit) rfl
  · rename_i hquit
    have hstatus : n.status = true := by
      cases res with
      | done k => exact hfits.1
      | failed errno => exact hfits.1
      | canceled => exact absurd hfits hquit
    exact submit_safe h hn rfl rfl ⟨hstatus, fun _ => rfl⟩

theorem callback_safe {submitted : Except Nat Unit} (h : Inv s) (ho : Orderly s (.callback idx submitted)) :
    Safe Inv (callback s idx submitted) := by
  unfold callback
  split
  · exact safe_disabled
  · rename_i n hn
    have hn' := ho n hn
    split
    · rename_i res hreq
      rw [Node.Orderly, hreq] at hn'
      exact readCb_safe h hn hreq hn'
    · rename_i res hreq
      rw [Node.Orderly, hreq] at hn'
      exact writeCb_safe h hn hreq hn'
    · exact safe_disabled

theorem act_safe {a : Act} (h : Inv s) (ho : Orderly s a) : Safe Inv (act s a) := by
  cases a with
  | pass accepted => exact pass_safe h
  | sigInt answers => exact sigInt_safe h
  | complete idx res => exact complete_safe h
  | callback idx submitted => exact callback_safe h ho

/-! ## Runs -/

/-- **Every orderly step** keeps the account. -/
theorem inv_step {a : Act} (h : Inv s) (ho : Orderly s a) (hs : step s a = some t) : Inv t := by
  have hsafe := act_safe h ho
  simp only [step, Option.ite_none_right_eq_some] at hs
  obtain ⟨-, hs⟩ := hs
  cases hact : act s a with
  | ok t' =>
    rw [hact] at hs hsafe
    cases hs
    exact hsafe
  | error e =>
    rw [hact] at hs hsafe
    cases e with
    | exit errno headStr =>
      cases hs
      exact h.stop (by decide)
    | undefined => exact absurd rfl hsafe
    | disabled => cases hs

/-- `read_cb` without bytes, or with as many as the buffer has, writes outside of it. -/
theorem readCb_undefined {ret : Int} {submitted : Except Nat Unit} (hret : ¬(ret ≠ -1 ∧ ret ≠ BUF_SIZE)) :
    readCb s idx n ret submitted = .error .undefined := by
  have hsize : (BUF_SIZE : Int) = 1024 := rfl
  rw [readCb, if_neg (by omega), if_neg (by omega)]

/-- Retiring a node that is retired already leaves `actCnt` wrong. -/
theorem retire_again (h : Accounted s) (hn : s.nodes[idx]? = some n) (hstatus : n.status = false) (req : Req) :
    ¬Accounted (retire s idx { n with req := req }) := by
  intro hagain
  have hcount := countP_set_add Node.status hn { n with status := false, req := req }
  have hless : s.actCnt - 1 = (s.nodes.set idx { n with status := false, req := req }).countP Node.status :=
    hagain.actCnt
  rw [hstatus] at hcount
  rw [h.actCnt, Nat.add_right_cancel hcount] at hless
  omega

/-- A step that keeps the account is orderly. -/
theorem orderly_of_accounted {a : Act} (h : Accounted s) (hs : step s a = some t) (ht : Accounted t) : Orderly s a := by
  cases a with
  | pass accepted => trivial
  | sigInt answers => trivial
  | complete idx res => trivial
  | callback idx submitted =>
    intro n hn
    simp only [step, Option.ite_none_right_eq_some, act, callback, hn] at hs
    obtain ⟨-, hs⟩ := hs
    cases hreq : n.req with
    | none => rw [Node.Orderly, hreq]; trivial
    | submitted cb => rw [Node.Orderly, hreq]; trivial
    | finished cb res =>
      rw [hreq] at hs
      rw [Node.Orderly, hreq]
      cases cb with
      | readCb =>
        by_contra hret
        dsimp only at hs
        rw [readCb_undefined hret] at hs
        cases hs
        exact ht.defined rfl
      | writeCb =>
        intro hquit
        by_contra hstatus
        have hstatus : n.status = false := by simpa using hstatus
        dsimp only at hs
        rw [writeCb, if_pos hquit] at hs
        cases hs
        exact retire_again h hn hstatus .none ht

theorem start_inv : Inv start := by
  have hnode : ∀ n ∈ start.nodes, n.status = false ∧ n.req = .none := by decide
  refine ⟨⟨by decide, ?_, fun c conn hc => by simp [start] at hc, by decide⟩, by decide, ?_, ?_⟩
  · intro n hn hlive
    rw [(hnode n hn).1] at hlive
    cases hlive
  · intro i j n m hi _ hlive
    rw [(hnode n (List.mem_of_getElem? hi)).1] at hlive
    cases hlive
  · intro n hn
    rw [Node.Fits, (hnode n hn).2]
    exact (hnode n hn).1

/-- **The account is kept** along a run exactly when the notifications are delivered in order: no read that has failed
or has filled the buffer, and after `SIGINT` no write for a node that has been retired. -/
theorem accounted_iff (as : List Act) :
    Steps.Along step Accounted start as ↔ Steps.Meets step Orderly start as := by
  apply Steps.along_iff_meets_while (I := Inv) ?_ ?_ ?_ start_inv start_inv.accounted
  · exact fun s a t hi hp hpt hs => inv_step hi (orderly_of_accounted hp hs hpt) hs
  · exact fun s a t hi _ ho hs => (inv_step hi ho hs).accounted
  · exact fun s a t _ hp hpt hs => orderly_of_accounted hp hs hpt

/-- A client sends five bytes. The write of the echo is cancelled by `SIGINT`; the main loop retires the node, and then
the notification is delivered. -/
def canceledWrite : List Act :=
  [.pass (.connection (.ok ())), .complete 0 (.done 5), .callback 0 (.ok ()), .sigInt fun _ => .canceled,
    .pass .interrupted, .callback 0 (.ok ())]

theorem canceledWrite_twice : ¬Steps.Along step Accounted start canceledWrite ∧
    ∃ s, Steps.run step start canceledWrite = some s ∧ s.actCnt = -1 ∧ s.nodes.countP Node.status = 0 ∧
      s.conns = [{ served := true, left := 1, closed := 2 }] := by
  have hrun : ∃ s, Steps.run step start canceledWrite = some s ∧ s.actCnt = -1 ∧ s.nodes.countP Node.status = 0 ∧
      s.conns = [{ served := true, left := 1, closed := 2 }] := ⟨_, rfl, rfl, rfl, rfl⟩
  refine ⟨fun h => ?_, hrun⟩
  obtain ⟨s, hs, hact, hcount, -⟩ := hrun
  have haccounted := (h.last hs).actCnt
  rw [hact, hcount] at haccounted
  cases haccounted

end SystemFunc.Aio
