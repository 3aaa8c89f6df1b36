import SystemFunc.Framed.Session

/-!
# One echo

`Serving f s more`: the server is at work on the echo `f`, of whose bytes `more` are still to be sent, or it has failed;
and what it has sent is what it has to send by then. The server keeps this (`Serving.step`), also while bytes arrive
(`Serving.arrive`). `Server.Quiet` is the server between two requests.
-/

namespace SystemFunc.Framed

open Buffer Wrap

variable {s s' : Server} {f : Frame} {more : List UInt8}

/-- The server answers the echo `f`; of its bytes, `more` are still to be sent. -/
inductive Serving (f : Frame) (s : Server) (more : List UInt8) : Prop
  | header {l : Count} (hctrl : s.ctrl = .header l) (hindex : l.index < PROTO_SIZE)
      (hleft : l.left + l.index = PROTO_SIZE) (hslice : slice s.pto 0 l.index ++ (s.input ++ more) = f.bytes)
      (hout : s.output = [])
  | malloc (hctrl : s.ctrl = .malloc) (hholds : s.Holds f) (hunread : s.input ++ more = f.msg.payload)
      (hout : s.output = [])
  | body {l : Count} (hctrl : s.ctrl = .body l) (hholds : s.Holds f) (hindex : l.index < f.msg.payload.length)
      (hleft : l.left + l.index = f.msg.payload.length)
      (hslice : slice s.tmp 0 l.index ++ (s.input ++ more) = f.msg.payload) (hout : s.output = [])
  | echo {l : Count} (hctrl : s.ctrl = .echo l) (hunread : s.input ++ more = []) (hsome : 0 < l.left)
      (hleft : l.left + l.index = f.msg.payload.length)
      (htmp : slice s.tmp 0 f.msg.payload.length = f.msg.payload) (hout : s.output = slice s.tmp 0 l.index)
  | replied (hctrl : s.ctrl = .start) (hunread : s.input ++ more = []) (hout : s.output = f.msg.payload)
  | stopped (hctrl : s.ctrl.stopped = true) (hout : s.output <+: f.msg.payload) (hmore : more ≠ [] → s.output = [])

/-- The server waits for a header, and nothing is on its way; or it has stopped. -/
def Server.Quiet (s : Server) : Prop :=
  s.output = [] ∧ (s.ctrl = .start ∧ s.input = [] ∨ s.ctrl.stopped = true)

theorem step_stopped {a : ServerAct} (h : s.ctrl.stopped = true) : s.step a = none := by
  cases hctrl : s.ctrl <;> cases a <;> simp_all [Ctrl.stopped, Server.step]

/-- A `read` of the header, where the client has not closed its side. -/
theorem Serving.readHeader {l : Count} {a : Answer} (hnil : f.msg.payload ≠ []) (hclosed : s.closed = false)
    (hleft : l.left + l.index = PROTO_SIZE) (hslice : slice s.pto 0 l.index ++ (s.input ++ more) = f.bytes)
    (hout : s.output = []) (hanswers : s.answers l.left a = true)
    (hp : ReadPass (s.intoPto l.index a.size) l a .header (s.intoPto l.index a.size).afterHeader s') :
    Serving f s' more := by
  obtain ⟨htotal, hread⟩ := read_next hanswers hleft hslice
  cases hp with
  | again _ hmore =>
    have hindex' : l.index + a.size < PROTO_SIZE := by omega
    have hleft' : l.left - a.size + (l.index + a.size) = PROTO_SIZE := by omega
    exact .header rfl hindex' hleft' hread hout
  | full _ hfull =>
    have hindex' : l.index + a.size = PROTO_SIZE := by omega
    rw [hindex'] at hread ⊢
    obtain ⟨hproto, hunread⟩ := List.append_inj hread (by simp)
    obtain ⟨hholds, heq⟩ := afterHeader_some (s := s.intoPto l.index a.size) hproto hnil
    rw [heq]
    exact .malloc rfl (hholds.of_pto rfl) hunread hout
  | eof hz => exact absurd hz (answers_ne_zero hclosed hanswers)
  | failed hf => exact .stopped rfl (hout ▸ List.nil_prefix) fun _ => hout

/-- A `read` of the payload, where the client has not closed its side. -/
theorem Serving.readBody {l : Count} {a : Answer} (hkind : f.msg.kind = .echo) (hclosed : s.closed = false)
    (hholds : s.Holds f) (hleft : l.left + l.index = f.msg.payload.length)
    (hslice : slice s.tmp 0 l.index ++ (s.input ++ more) = f.msg.payload) (hout : s.output = [])
    (hanswers : s.answers l.left a = true)
    (hp : ReadPass (s.intoTmp l.index a.size) l a .body (s.intoTmp l.index a.size).afterBody s') :
    Serving f s' more := by
  obtain ⟨htotal, hread⟩ := read_next hanswers hleft hslice
  cases hp with
  | again _ hmore =>
    have hindex' : l.index + a.size < f.msg.payload.length := by omega
    have hleft' : l.left - a.size + (l.index + a.size) = f.msg.payload.length := by omega
    exact .body rfl (hholds.of_pto rfl) hindex' hleft' hread hout
  | full _ hfull =>
    have hindex' : l.index + a.size = f.msg.payload.length := by omega
    rw [hindex'] at hread ⊢
    have hread' : slice (s.intoTmp l.index a.size).tmp 0 f.msg.payload.length ++
        ((s.intoTmp l.index a.size).input ++ more) = f.msg.payload ++ [] := by
      rw [List.append_nil]
      exact hread
    obtain ⟨htmp, hunread⟩ := List.append_inj hread' (by simp)
    rw [afterBody_echo (s := s.intoTmp l.index a.size) (hholds.of_pto rfl) hkind htmp]
    exact .echo rfl hunread (List.length_pos_iff.2 hholds.some) (by simp [Count.start]) htmp hout
  | eof hz => exact absurd hz (answers_ne_zero hclosed hanswers)
  | failed hf => exact .stopped rfl (hout ▸ List.nil_prefix) fun _ => hout

/-- A `write` of the reply. -/
theorem Serving.write {l : Count} {a : Answer} (hctrl : s.ctrl = .echo l) (hunread : s.input ++ more = [])
    (hleft : l.left + l.index = f.msg.payload.length)
    (htmp : slice s.tmp 0 f.msg.payload.length = f.msg.payload) (hout : s.output = slice s.tmp 0 l.index)
    (hne : a ≠ .cnt 0) (hs : s.step (.write a) = some s') : Serving f s' more := by
  have hwritten : s.output ++ slice s.tmp l.index a.size = slice s.tmp 0 (l.index + a.size) := by
    rw [hout, slice_add, Nat.zero_add]
  cases server_move hs with
  | echo hctrl' _ _ hmore =>
    cases hctrl.symm.trans hctrl'
    have hleft' : l.left - a.size + (l.index + a.size) = f.msg.payload.length := by omega
    exact .echo rfl hunread (Nat.sub_pos_of_lt hmore) hleft' htmp hwritten
  | echoed hctrl' _ hall =>
    cases hctrl.symm.trans hctrl'
    have hfull : l.index + a.size = f.msg.payload.length := by
      have hsize := hall.resolve_right hne
      omega
    exact .replied rfl hunread (by rw [hwritten, hfull, htmp])
  | echoFailed _ =>
    refine .stopped rfl ?_ fun hmore => absurd (List.append_eq_nil_iff.1 hunread).2 hmore
    rw [← htmp]
    exact hout ▸ slice_le (by omega)

theorem waiting_step {a : ServerAct} (hctrl : s.ctrl = .start) (hinput : s.input = []) (hclosed : s.closed = false)
    (hs : s.step a = some s') :
    s'.output = s.output ∧ s'.input = [] ∧ (s'.ctrl = .start ∨ s'.ctrl.stopped = true) := by
  cases a with
  | read a =>
    obtain ⟨l, hanswers, ⟨hl, hp⟩ | ⟨hl, -⟩⟩ := step_read hs
    · obtain rfl : Count.start PROTO_SIZE = l := by
        rw [hctrl] at hl
        exact Ctrl.header.inj hl
      obtain ⟨-, hin, -⟩ := answers_size hanswers
      have hnone : a.size = 0 := by rw [hinput] at hin; simpa using hin
      cases hp with
      | again _ _ => exact ⟨rfl, by simp [Server.intoPto, hinput], .inl (by simp [hnone, Ctrl.start, Count.start])⟩
      | full _ hfull => simp [hnone, Count.start, PROTO_SIZE] at hfull
      | eof hz => exact absurd hz (answers_ne_zero hclosed hanswers)
      | failed _ => exact ⟨rfl, by simp [Server.intoPto, hinput], .inr rfl⟩
    · simp [hctrl, Ctrl.start] at hl
  | _ => simp [Server.step, hctrl, Ctrl.start] at hs

/-- A server that waits for a header of which nothing has been sent goes on waiting, or fails. -/
theorem Server.Quiet.step {a : ServerAct} (h : s.Quiet) (hclosed : s.closed = false) (hs : s.step a = some s') :
    s'.Quiet := by
  obtain ⟨hout, ⟨hctrl, hinput⟩ | hstop⟩ := h
  · obtain ⟨hout', hinput', hctrl'⟩ := waiting_step hctrl hinput hclosed hs
    exact ⟨hout'.trans hout, hctrl'.imp_left fun hc => ⟨hc, hinput'⟩⟩
  · rw [step_stopped hstop] at hs
    cases hs

/-- **The server goes on with the request**, or fails. -/
theorem Serving.step {a : ServerAct} (h : Serving f s more) (hkind : f.msg.kind = .echo) (hnil : f.msg.payload ≠ [])
    (hclosed : s.closed = false) (hne : a ≠ .write (.cnt 0)) (hs : s.step a = some s') : Serving f s' more := by
  cases h with
  | header hctrl hindex hleft hslice hout =>
    cases a with
    | read a =>
      obtain ⟨l, hanswers, ⟨hl, hp⟩ | ⟨hl, -⟩⟩ := step_read hs
      · cases hctrl.symm.trans hl
        exact .readHeader hnil hclosed hleft hslice hout hanswers hp
      · simp [hctrl] at hl
    | _ => simp [Server.step, hctrl] at hs
  | malloc hctrl hholds hunread hout =>
    cases a with
    | malloc block =>
      have hpos := List.length_pos_iff.2 hnil
      cases block with
      | none =>
        simp only [Server.step, hctrl, Option.some.injEq] at hs
        subst hs
        exact .stopped rfl (hout ▸ List.nil_prefix) fun _ => hout
      | some tmp =>
        simp only [Server.step, hctrl, Option.some.injEq] at hs
        subst hs
        refine .body rfl (hholds.of_pto rfl) ?_ ?_ ?_ hout
        · simpa [Count.start] using hpos
        · simp [Count.start, hholds.toNat_size]
        · simpa [Count.start] using hunread
    | _ => simp [Server.step, hctrl] at hs
  | body hctrl hholds hindex hleft hslice hout =>
    cases a with
    | read a =>
      obtain ⟨l, hanswers, ⟨hl, -⟩ | ⟨hl, hp⟩⟩ := step_read hs
      · simp [hctrl] at hl
      · cases hctrl.symm.trans hl
        exact .readBody hkind hclosed hholds hleft hslice hout hanswers hp
    | _ => simp [Server.step, hctrl] at hs
  | echo hctrl hunread hsome hleft htmp hout =>
    cases a with
    | write a => exact .write hctrl hunread hleft htmp hout (fun he => hne (he ▸ rfl)) hs
    | _ => simp [Server.step, hctrl] at hs
  | replied hctrl hunread hout =>
    obtain ⟨hinput, rfl⟩ := List.append_eq_nil_iff.1 hunread
    obtain ⟨hout', hinput', hctrl'⟩ := waiting_step hctrl hinput hclosed hs
    rcases hctrl' with hctrl' | hstop
    · exact .replied hctrl' (by simp [hinput']) (hout'.trans hout)
    · exact .stopped hstop ((hout'.trans hout).symm ▸ List.prefix_refl _) fun hmore => absurd rfl hmore
  | stopped hctrl hout hmore =>
    rw [step_stopped hctrl] at hs
    cases hs

/-- Some of the bytes to be sent arrive. -/
theorem Serving.arrive {bs : List UInt8} (h : Serving f s (bs ++ more)) : Serving f (s.arrive bs) more := by
  have happ : s.input ++ (bs ++ more) = (s.arrive bs).input ++ more := by simp [Server.arrive]
  cases h with
  | header hctrl hindex hleft hslice hout => exact .header hctrl hindex hleft (happ ▸ hslice) hout
  | malloc hctrl hholds hunread hout => exact .malloc hctrl (hholds.of_pto rfl) (happ ▸ hunread) hout
  | body hctrl hholds hindex hleft hslice hout =>
    exact .body hctrl (hholds.of_pto rfl) hindex hleft (happ ▸ hslice) hout
  | echo hctrl hunread hsome hleft htmp hout => exact .echo hctrl (happ ▸ hunread) hsome hleft htmp hout
  | replied hctrl hunread hout => exact .replied hctrl (happ ▸ hunread) hout
  | stopped hctrl hout hmore =>
    refine .stopped hctrl hout fun hne => hmore ?_
    simp [hne]

/-- A quiet server is served a new request. -/
theorem Server.Quiet.serve (h : s.Quiet) : Serving f s f.bytes := by
  obtain ⟨hout, ⟨hctrl, hinput⟩ | hstop⟩ := h
  · exact .header hctrl (by decide) rfl (by simp [Count.start, hinput]) hout
  · exact .stopped hstop (hout ▸ List.nil_prefix) fun _ => hout

/-! ## What the client reads -/

theorem Serving.output_le (h : Serving f s more) : s.output <+: f.msg.payload := by
  cases h with
  | header _ _ _ _ hout => exact hout ▸ List.nil_prefix
  | malloc _ _ _ hout => exact hout ▸ List.nil_prefix
  | body _ _ _ _ _ hout => exact hout ▸ List.nil_prefix
  | echo _ _ _ hleft htmp hout =>
    rw [hout, ← htmp]
    exact slice_le (by omega)
  | replied _ _ hout => exact hout ▸ List.prefix_refl _
  | stopped _ hout _ => exact hout

/-- What is printed is the payload exactly when all of it was read. -/
theorem Serving.printed_iff (h : Serving f s more) {n : Nat} (hn : n ≤ s.output.length) :
    cString (s.output.take n) = f.msg.payload ↔ n = f.msg.payload.length := by
  have hpre := (List.take_prefix n _).trans h.output_le
  have hnul : 0 ∉ s.output.take n := fun hmem => f.msg.nulFree (hpre.subset hmem)
  rw [cString_eq hnul]
  constructor
  · intro he
    rw [← he, List.length_take_of_le hn]
  · intro he
    exact hpre.eq_of_length (by rw [List.length_take_of_le hn, he])

/-- When all of it was read, the streams are empty. -/
theorem Serving.quiet (h : Serving f s []) (hnil : f.msg.payload ≠ [])
    (hn : f.msg.payload.length ≤ s.output.length) :
    Server.Quiet { s with output := s.output.drop f.msg.payload.length } := by
  have heq : s.output = f.msg.payload := h.output_le.eq_of_length_le hn
  have hdrop : s.output.drop f.msg.payload.length = [] := by simp [heq]
  cases h with
  | header _ _ _ _ hout => exact absurd (heq.symm.trans hout) hnil
  | malloc _ _ _ hout => exact absurd (heq.symm.trans hout) hnil
  | body _ _ _ _ _ hout => exact absurd (heq.symm.trans hout) hnil
  | echo _ _ hsome hleft _ hout =>
    rw [hout, slice_length] at hn
    omega
  | replied hctrl hunread _ => exact ⟨hdrop, .inl ⟨hctrl, by simpa using hunread⟩⟩
  | stopped hctrl _ _ => exact ⟨hdrop, .inr hctrl⟩

end SystemFunc.Framed
