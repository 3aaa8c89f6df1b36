import SystemFunc.Framed.Replies

/-!
# Waiting for each other

The client waits for a reply to every request. The server sends none to an empty request, and a command may print
nothing; then both wait, and nothing is on its way (`MutualWait`). While both go on, the server expects the requests of
the client, one after the other (`Together`), so that it waits for a header with nothing to read only between two
requests.

- `no_mutual_wait_iff`: the runs in which the two never wait for each other;
- `no_mutual_wait_of_answering`: those in which no line is empty and every command prints something are among them.
-/

namespace SystemFunc.Framed

open Buffer Wrap

variable {s s' : Session} {f : Frame}

/-- The client waits for a reply, the server waits for a header, and nothing is on its way. -/
def MutualWait (s : Session) : Prop :=
  s.client = .reply ∧ (∃ l, s.server.ctrl = .header l) ∧ s.server.input = [] ∧ s.server.output = []

/-- The server is through with the last request, and there is no reply: it reads the end of the header of an empty
request, or it comes back from a command. -/
def Unanswered (s : Session) (a : SessionAct) : Prop :=
  s.client = .reply ∧ s.server.output = [] ∧
    ((∃ l f, s.server.ctrl = .header l ∧ a = .server (.read (.cnt l.left)) ∧ s.server.input.length = l.left ∧
        s.requests.getLast? = some f ∧ f.msg.payload = []) ∨
      a = .server (.dup2 true) ∧ s.server.ctrl = .restore ∧ s.server.input = [])

/-- An accepted line that is not empty, and a command that prints something. -/
def Answering : SessionAct → Prop
  | .input type line _ => (doInput type line).isSome = true → line.text ≠ []
  | .server (.system output) => output ≠ []
  | _ => True

/-! ## Both go on -/

/-- What the client has still to write. -/
def ClientCtrl.unsent : ClientCtrl → List UInt8
  | .header f l => f.proto.drop l.index ++ f.msg.payload
  | .body f l => f.msg.payload.drop l.index
  | _ => []

/-- Within `WriteCount` there is something left to write. -/
def ClientCtrl.Counts : ClientCtrl → Prop
  | .header _ l => 0 < l.left ∧ l.left + l.index = PROTO_SIZE
  | .body f l => 0 < l.left ∧ l.left + l.index = f.msg.payload.length
  | _ => True

structure Session.Joined (s : Session) : Prop where
  opened : s.server.closed = false
  counts : s.client.Counts
  expects : ∃ rest, rest <:+ s.requests ∧ Expects s.server (s.server.input ++ s.client.unsent) rest

/-- As long as neither has stopped, they are joined. -/
def Together (s : Session) : Prop :=
  (∀ msg, s.client ≠ .exited msg) → s.server.ctrl.stopped = false → s.Joined

theorem together_init (h : s.Init) : Together s := by
  obtain ⟨hclient, ⟨pto, tmp, hserver⟩, hrequests, -⟩ := h
  intro _ _
  refine ⟨by rw [hserver]; rfl, by rw [hclient]; trivial, [], List.nil_suffix, ?_⟩
  rw [hclient, hserver]
  exact .start rfl rfl

theorem step_running {server s : Server} {a : ServerAct} (hs : s.step a = some server) : s.ctrl.stopped = false := by
  by_contra hstop
  rw [step_stopped (by simpa using hstop)] at hs
  cases hs

/-- A call that fails stops the server. -/
theorem step_not_ok {s s' : Server} {a : ServerAct} (hok : a.ok = false) (hs : s.step a = some s') :
    s'.ctrl.stopped = true := by
  cases server_move hs with
  | header hctrl _ _ =>
    obtain rfl : _ = Answer.failed .other := by simpa [ServerAct.ok] using hok
    simp only [Server.step, hctrl, Option.ite_none_right_eq_some, Option.some.injEq] at hs
    obtain ⟨-, rfl⟩ := hs
    rfl
  | body hctrl _ _ =>
    obtain rfl : _ = Answer.failed .other := by simpa [ServerAct.ok] using hok
    simp only [Server.step, hctrl, Option.ite_none_right_eq_some, Option.some.injEq] at hs
    obtain ⟨-, rfl⟩ := hs
    rfl
  | noBlock _ => rfl
  | echo _ _ hgo _ => exact absurd hok (by simp [ServerAct.ok, hgo])
  | echoed _ hgo _ => exact absurd hok (by simp [ServerAct.ok, hgo])
  | echoFailed _ => rfl
  | dup2Failed _ => rfl
  | block _ => cases hok
  | redirected _ => cases hok
  | restored _ => cases hok
  | system _ => cases hok

/-- Another request is to be sent. -/
theorem Expects.request {s : Server} {unread : List UInt8} {rest : List Frame} (h : Expects s unread rest)
    (hgo : s.ctrl.stopped = false) (f : Frame) : Expects s (unread ++ f.bytes) (rest ++ [f]) := by
  have hencode : encode (rest ++ [f]) = encode rest ++ f.bytes := by simp [encode]
  cases hctrl : s.ctrl with
  | header l =>
    simp only [Expects, hctrl] at h ⊢
    obtain ⟨hindex, hleft, hslice⟩ := h
    exact ⟨hindex, hleft, by rw [← List.append_assoc, hslice, hencode]⟩
  | malloc =>
    simp only [Expects, hctrl] at h ⊢
    obtain ⟨g, rest', rfl, hholds, hunread⟩ := h
    exact ⟨g, rest' ++ [f], rfl, hholds, by simp [hunread, encode]⟩
  | body l =>
    simp only [Expects, hctrl] at h ⊢
    obtain ⟨g, rest', rfl, hholds, hindex, hleft, hslice⟩ := h
    refine ⟨g, rest' ++ [f], rfl, hholds, hindex, hleft, ?_⟩
    rw [← List.append_assoc, hslice]
    simp [encode]
  | echo l =>
    simp only [Expects, hctrl] at h ⊢
    exact ⟨h.1, by rw [h.2, hencode]⟩
  | redirect =>
    simp only [Expects, hctrl] at h ⊢
    obtain ⟨g, rest', rfl, hholds, hkind, htmp, hunread⟩ := h
    exact ⟨g, rest' ++ [f], rfl, hholds, hkind, htmp, by simp [hunread, encode]⟩
  | system =>
    simp only [Expects, hctrl] at h ⊢
    obtain ⟨g, rest', rfl, hholds, hkind, htmp, hunread⟩ := h
    exact ⟨g, rest' ++ [f], rfl, hholds, hkind, htmp, by simp [hunread, encode]⟩
  | restore =>
    simp only [Expects, hctrl] at h ⊢
    rw [h, hencode]
  | _ => simp [Ctrl.stopped, hctrl] at hgo

/-- What arrives is no longer to be sent. -/
theorem arrive_unsent (s : Server) (buf rest : List UInt8) (i n : Nat) :
    (s.arrive ((buf.drop i).take n)).input ++ (buf.drop (i + n) ++ rest) = s.input ++ (buf.drop i ++ rest) := by
  rw [Server.arrive, List.append_assoc, ← List.drop_drop, ← List.append_assoc _ _ rest, List.take_append_drop]

/-- What the server expects does not depend on its streams. -/
theorem Expects.congr {s s' : Server} {unread : List UInt8} {rest : List Frame} (h : Expects s unread rest)
    (hctrl : s'.ctrl = s.ctrl) (hpto : s'.pto = s.pto) (htmp : s'.tmp = s.tmp) : Expects s' unread rest := by
  have hholds : ∀ f, s'.Holds f ↔ s.Holds f := fun f => ⟨fun h => h.of_pto hpto.symm, fun h => h.of_pto hpto⟩
  simp only [Expects, hctrl, hpto, htmp, hholds] at h ⊢
  exact h

theorem Session.Joined.server {server : Server} {a : ServerAct} (h : s.Joined) (hok : a.ok = true)
    (hs : s.server.step a = some server) : Session.Joined { s with server := server } := by
  obtain ⟨hopen, hcounts, rest, hrest, hexp⟩ := h
  obtain ⟨rest', hrest', hexp', -⟩ := hexp.step (fun hc => by rw [hopen] at hc; cases hc) hok hs
  exact ⟨(closed_step hs).trans hopen, hcounts, rest', hrest'.trans hrest, hexp'⟩

theorem Session.Joined.input (h : s.Joined) (hclient : s.client = .input) (hgo : s.server.ctrl.stopped = false)
    (f : Frame) :
    Session.Joined { s with client := .header f (.start PROTO_SIZE), requests := s.requests ++ [f] } := by
  obtain ⟨hopen, -, rest, ⟨done, hdone⟩, hexp⟩ := h
  rw [hclient] at hexp
  have hexp' := hexp.request hgo f
  rw [show ClientCtrl.input.unsent = [] from rfl, List.append_nil] at hexp'
  exact ⟨hopen, ⟨by decide, rfl⟩, rest ++ [f], ⟨done, by simp [← hdone]⟩, hexp'⟩

theorem Session.Joined.write {a : Answer} (h : s.Joined) (hs : s.step (.write a) = some s')
    (hgo : ∀ msg, s'.client ≠ .exited msg) : s'.Joined := by
  obtain ⟨hopen, hcounts, rest, hrest, hexp⟩ := h
  obtain ⟨f, l, hsize, ⟨hclient, hp⟩ | ⟨hclient, hp⟩⟩ := step_write hs
  · rw [hclient] at hcounts hexp
    obtain ⟨hpos, hleft⟩ := hcounts
    rw [ClientCtrl.unsent, ← arrive_unsent s.server f.proto f.msg.payload l.index a.size] at hexp
    cases hp with
    | again hmore =>
      have hpos' : 0 < l.left - a.size := by omega
      have hleft' : l.left - a.size + (l.index + a.size) = PROTO_SIZE := by omega
      exact ⟨hopen, ⟨hpos', hleft'⟩, rest, hrest, hexp.congr rfl rfl rfl⟩
    | full hfull =>
      have hindex : l.index + a.size = f.proto.length := by rw [Frame.proto_length]; omega
      rw [hindex, List.drop_length, List.nil_append] at hexp
      by_cases hnil : 0 < f.msg.payload.length
      · simp only [ClientCtrl.afterHeader, if_pos hnil]
        exact ⟨hopen, ⟨hnil, rfl⟩, rest, hrest, hexp.congr rfl rfl rfl⟩
      · have hpayload : f.msg.payload = [] := List.eq_nil_of_length_eq_zero (by omega)
        simp only [ClientCtrl.afterHeader, if_neg hnil]
        rw [hpayload] at hexp
        exact ⟨hopen, trivial, rest, hrest, hexp.congr rfl rfl rfl⟩
    | failed => exact absurd rfl (hgo _)
  · rw [hclient] at hcounts hexp
    obtain ⟨hpos, hleft⟩ := hcounts
    rw [ClientCtrl.unsent, ← List.append_nil (f.msg.payload.drop l.index),
      ← arrive_unsent s.server f.msg.payload [] l.index a.size, List.append_nil] at hexp
    cases hp with
    | again hmore =>
      have hpos' : 0 < l.left - a.size := by omega
      have hleft' : l.left - a.size + (l.index + a.size) = f.msg.payload.length := by omega
      exact ⟨hopen, ⟨hpos', hleft'⟩, rest, hrest, hexp.congr rfl rfl rfl⟩
    | full hfull =>
      have hindex : l.index + a.size = f.msg.payload.length := by omega
      rw [hindex, List.drop_length] at hexp
      exact ⟨hopen, trivial, rest, hrest, hexp.congr rfl rfl rfl⟩
    | failed => exact absurd rfl (hgo _)

theorem together_step {a : SessionAct} (h : Together s) (hs : s.step a = some s') : Together s' := by
  intro hgo hrun
  cases a with
  | server a =>
    obtain ⟨-, server, hserver, rfl⟩ := step_server hs
    have hok : a.ok = true := by
      by_contra hfail
      rw [step_not_ok (by simpa using hfail) hserver] at hrun
      cases hrun
    exact (h hgo (step_running hserver)).server hok hserver
  | input type line pad =>
    obtain ⟨hclient, rfl | ⟨f, -, rfl⟩⟩ := step_input hs
    · exact h hgo hrun
    · exact (h (by simp [hclient]) hrun).input hclient hrun f
  | noInput =>
    obtain rfl := step_noInput hs
    exact absurd rfl (hgo _)
  | write a =>
    have hpass := step_write hs
    obtain ⟨f, l, -, ⟨hclient, hp⟩ | ⟨hclient, hp⟩⟩ := hpass
    all_goals
      have hrun' : s.server.ctrl.stopped = false := by
        cases hp with
        | failed => exact absurd rfl (hgo _)
        | _ => exact hrun
      exact (h (by simp [hclient]) hrun').write hs hgo
  | read a =>
    cases a with
    | cnt n =>
      obtain ⟨hclient, -, rfl⟩ := step_readReply hs
      obtain ⟨hopen, -, rest, hrest, hexp⟩ := h (by simp [hclient]) hrun
      rw [hclient] at hexp
      exact ⟨hopen, trivial, rest, hrest, hexp.congr rfl rfl rfl⟩
    | failed e =>
      obtain rfl := step_readFailed hs
      exact absurd rfl (hgo _)

/-! ## How a wait begins -/

section Server

variable {s s' : Server} {rest : List Frame}

@[simp] theorem afterHeader_output (cnt : Nat) : (s.afterHeader cnt).output = s.output := by
  unfold Server.afterHeader
  split_ifs <;> rfl

@[simp] theorem afterBody_output (cnt : Nat) : (s.afterBody cnt).output = s.output := by
  unfold Server.afterBody
  split_ifs <;> rfl

theorem read_output {a : Answer} (hs : s.step (.read a) = some s') : s'.output = s.output := by
  obtain ⟨l, -, ⟨-, hp⟩ | ⟨-, hp⟩⟩ := step_read hs
  · cases hp <;> simp [Server.intoPto]
  · cases hp <;> simp [Server.intoTmp]

/-- A header that ends the stream is that of an empty request. -/
theorem Expects.endOfHeader {l : Count} (h : Expects s s.input rest) (hctrl : s.ctrl = .header l)
    (hlen : s.input.length = l.left) : ∃ f, rest = [f] ∧ f.msg.payload = [] := by
  simp only [Expects, hctrl] at h
  obtain ⟨-, hleft, hslice⟩ := h
  have hall := congrArg List.length hslice
  rw [List.length_append, slice_length, hlen] at hall
  cases rest with
  | nil =>
    simp only [encode_nil, List.length_nil, PROTO_SIZE] at hall hleft
    omega
  | cons f rest =>
    simp only [encode_cons, List.length_append, Frame.proto_length] at hall
    have hnil : f.msg.payload = [] := List.eq_nil_of_length_eq_zero (by omega)
    have hshort : (encode rest).length < PROTO_SIZE := by
      simp only [PROTO_SIZE] at *
      omega
    have hrest : rest = [] := encode_eq_short hshort rfl
    exact ⟨f, by rw [hrest], hnil⟩

/-- The server reads to the end of the stream, and waits for a header. -/
theorem Expects.read_waits {a : Answer} (h : Expects s s.input rest) (hclosed : s.closed = false)
    (hs : s.step (.read a) = some s') (hctrl' : ∃ l, s'.ctrl = .header l) (hinput' : s'.input = []) :
    ∃ l, s.ctrl = .header l ∧ (s.input = [] ∨ a = .cnt l.left ∧ s.input.length = l.left) := by
  obtain ⟨l, hanswers, ⟨hctrl, hp⟩ | ⟨hctrl, hp⟩⟩ := step_read hs
  · refine ⟨l, hctrl, ?_⟩
    simp only [Expects, hctrl] at h
    obtain ⟨hindex, hleft, hslice⟩ := h
    obtain ⟨hsize, hin, -⟩ := answers_size hanswers
    cases hp with
    | again _ hmore =>
      have hall : s.input.length ≤ a.size := List.drop_eq_nil_iff.1 hinput'
      -- less than a header has been sent, so nothing has
      have hshort : (slice s.pto 0 l.index ++ s.input).length < PROTO_SIZE := by
        rw [List.length_append, slice_length]
        omega
      have hnil := encode_eq_short hshort hslice
      rw [hnil] at hslice
      exact .inl (List.append_eq_nil_iff.1 hslice).2
    | full hne hfull =>
      rw [afterHeader_input] at hinput'
      have hall : s.input.length ≤ a.size := List.drop_eq_nil_iff.1 hinput'
      right
      cases a with
      | cnt n =>
        simp only [Answer.size] at hsize hin hall hfull
        exact ⟨by rw [Nat.le_antisymm hsize hfull], by omega⟩
      | failed e =>
        simp only [Answer.size] at hfull
        omega
    | eof hz => exact absurd hz (answers_ne_zero hclosed hanswers)
    | failed _ =>
      obtain ⟨l', hl'⟩ := hctrl'
      cases hl'
  · obtain ⟨l', hl'⟩ := hctrl'
    simp only [Expects, hctrl] at h
    obtain ⟨f, rest', rfl, hholds, hindex, hleft, hslice⟩ := h
    cases hp with
    | again _ _ => cases hl'
    | full _ hfull =>
      rw [← List.append_nil s.input] at hslice
      have hread := read_next hanswers hleft hslice
      have hindex' : l.index + a.size = f.msg.payload.length := by omega
      rw [hindex', List.append_nil] at hread
      obtain ⟨htmp, -⟩ := List.append_inj hread.2 (by simp)
      have hholds' : (s.intoTmp l.index a.size).Holds f := hholds.of_pto rfl
      rw [hindex'] at hl'
      cases hkind : f.msg.kind with
      | echo =>
        rw [afterBody_echo hholds' hkind htmp] at hl'
        cases hl'
      | call =>
        rw [afterBody_call hholds' hkind] at hl'
        cases hl'
    | eof hz => exact absurd hz (answers_ne_zero hclosed hanswers)
    | failed _ => cases hl'

/-- The server reads the rest of the header of an empty request. -/
theorem Expects.read_empty {l : Count} (h : Expects s s.input rest) (hctrl : s.ctrl = .header l)
    (hlen : s.input.length = l.left) (hs : s.step (.read (.cnt l.left)) = some s') :
    s'.ctrl = .start ∧ s'.input = [] := by
  obtain ⟨f, rfl, hnil⟩ := h.endOfHeader hctrl hlen
  simp only [Expects, hctrl] at h
  obtain ⟨hindex, hleft, hslice⟩ := h
  obtain ⟨l', hanswers, ⟨hctrl', hp⟩ | ⟨hctrl', -⟩⟩ := step_read hs
  · cases hctrl.symm.trans hctrl'
    rw [← List.append_nil s.input] at hslice
    have hread := read_next hanswers hleft hslice
    cases hp with
    | again _ hmore => exact absurd hmore (Nat.lt_irrefl _)
    | full _ _ =>
      have hindex' : l.index + l.left = PROTO_SIZE := by omega
      simp only [Answer.size, hindex', List.append_nil, encode_cons, encode_nil, hnil] at hread ⊢
      have hdrop : s.input.drop l.left = [] := by rw [← hlen, List.drop_length]
      rw [hdrop, List.append_nil] at hread
      rw [afterHeader_none (f := f) hread.2 hnil]
      exact ⟨rfl, hdrop⟩
    | eof hz =>
      have hzero : l.left = 0 := Answer.cnt.inj hz
      omega
    | failed hfailed => cases hfailed
  · rw [hctrl] at hctrl'
    cases hctrl'

/-- Without having written anything, the server comes to wait for a header from a `read`, or from a command. -/
theorem to_header {a : ServerAct} {unread : List UInt8} (h : Expects s unread rest) (hne : a ≠ .write (.cnt 0))
    (hs : s.step a = some s') (hctrl' : ∃ l, s'.ctrl = .header l) (houtput' : s'.output = []) :
    (∃ b, a = .read b) ∨ a = .dup2 true ∧ s.ctrl = .restore ∧ s' = { s with ctrl := .start } := by
  obtain ⟨l', hl'⟩ := hctrl'
  cases server_move hs with
  | header _ _ _ => exact .inl ⟨_, rfl⟩
  | body _ _ _ => exact .inl ⟨_, rfl⟩
  | restored hctrl => exact .inr ⟨rfl, hctrl, rfl⟩
  | echoed hctrl _ hall =>
    simp only [Expects, hctrl] at h
    have hsize := hall.resolve_right fun hz => hne (congrArg ServerAct.write hz)
    -- the end of the reply has been written
    have hlen := congrArg List.length houtput'
    simp only [List.length_append, slice_length, List.length_nil] at hlen
    omega
  | _ => cases hl'

end Server

/-- What the server expects while the client waits. -/
theorem Together.reply (h : Together s) (hclient : s.client = .reply) (hrun : s.server.ctrl.stopped = false) :
    s.server.closed = false ∧ ∃ rest, rest <:+ s.requests ∧ Expects s.server s.server.input rest := by
  obtain ⟨hopen, -, rest, hrest, hexp⟩ := h (by simp [hclient]) hrun
  rw [hclient] at hexp
  exact ⟨hopen, rest, hrest, by simpa [ClientCtrl.unsent] using hexp⟩

/-- The client has just sent the last byte of a request. -/
theorem write_input {a : Answer} (h : Together s) (hrun : s.server.ctrl.stopped = false)
    (hs : s.step (.write a) = some s') (hclient' : s'.client = .reply) : s'.server.input ≠ [] := by
  obtain ⟨f, l, hsize, ⟨hclient, hp⟩ | ⟨hclient, hp⟩⟩ := step_write hs
  all_goals
    have hcounts := (h (by simp [hclient]) hrun).counts
    rw [hclient] at hcounts
    obtain ⟨hpos, hleft⟩ := hcounts
    cases hp with
    | again _ => cases hclient'
    | full hfull =>
      intro hnil
      have hlen := congrArg List.length hnil
      simp only [Server.arrive, List.length_append, List.length_take, List.length_drop, List.length_nil,
        Frame.proto_length] at hlen
      omega
    | failed => cases hclient'

/-- **How a wait begins**: the server is through with the last request, and there is no reply. -/
theorem mutualWait_iff {a : SessionAct} (h : Together s) (hno : ¬MutualWait s) (hs : s.step a = some s') :
    MutualWait s' ↔ Unanswered s a := by
  constructor
  · rintro ⟨hclient', hctrl', hinput', houtput'⟩
    cases a with
    | server a =>
      obtain ⟨hne, server, hserver, rfl⟩ := step_server hs
      obtain ⟨hopen, rest, hrest, hexp⟩ := h.reply hclient' (step_running hserver)
      rcases to_header hexp hne hserver hctrl' houtput' with ⟨b, rfl⟩ | ⟨rfl, hctrl, rfl⟩
      · have hout : s.server.output = [] := (read_output hserver).symm.trans houtput'
        obtain ⟨l, hctrl, hnil | ⟨rfl, hlen⟩⟩ := hexp.read_waits hopen hserver hctrl' hinput'
        · exact absurd ⟨hclient', ⟨l, hctrl⟩, hnil, hout⟩ hno
        · obtain ⟨f, rfl, hnil⟩ := hexp.endOfHeader hctrl hlen
          obtain ⟨done, hdone⟩ := hrest
          have hlast : s.requests.getLast? = some f := by simp [← hdone]
          exact ⟨hclient', hout, .inl ⟨l, f, hctrl, rfl, hlen, hlast, hnil⟩⟩
      · exact ⟨hclient', houtput', .inr ⟨rfl, hctrl, hinput'⟩⟩
    | input type line pad =>
      obtain ⟨hclient, rfl | ⟨f, -, rfl⟩⟩ := step_input hs
      · rw [hclient] at hclient'
        cases hclient'
      · cases hclient'
    | noInput =>
      obtain rfl := step_noInput hs
      cases hclient'
    | write a =>
      obtain ⟨l, hl⟩ := hctrl'
      have hrun : s.server.ctrl.stopped = false := by
        obtain ⟨f, l', -, ⟨-, hp⟩ | ⟨-, hp⟩⟩ := step_write hs
        all_goals
          cases hp with
          | failed => cases hclient'
          | _ =>
            have hsame : s.server.ctrl = .header l := hl
            rw [hsame]
            rfl
      exact absurd hinput' (write_input h hrun hs hclient')
    | read a =>
      cases a with
      | cnt n =>
        obtain ⟨-, -, rfl⟩ := step_readReply hs
        cases hclient'
      | failed e =>
        obtain rfl := step_readFailed hs
        cases hclient'
  · rintro ⟨hclient, hout, ⟨l, f, hctrl, rfl, hlen, -, -⟩ | ⟨rfl, hctrl, hinput⟩⟩
    · obtain ⟨-, server, hserver, rfl⟩ := step_server hs
      obtain ⟨hopen, rest, -, hexp⟩ := h.reply hclient (step_running hserver)
      obtain ⟨hctrl', hinput'⟩ := hexp.read_empty hctrl hlen hserver
      exact ⟨hclient, ⟨_, hctrl'⟩, hinput', (read_output hserver).trans hout⟩
    · obtain ⟨-, server, hserver, rfl⟩ := step_server hs
      simp only [Server.step, hctrl, Option.some.injEq] at hserver
      subst hserver
      exact ⟨hclient, ⟨_, rfl⟩, hinput, hout⟩

theorem mutualWait_init (h : s.Init) : ¬MutualWait s := by
  rintro ⟨hclient, -⟩
  rw [h.client] at hclient
  cases hclient

/-- **The two never wait for each other** in the runs in which the server is never through with the last request
without a reply, and only in these. -/
theorem no_mutual_wait_iff (hs : s.Init) (as : List SessionAct) :
    Steps.Along Session.step (fun s => ¬MutualWait s) s as ↔
      Steps.Meets Session.step (fun s a => ¬Unanswered s a) s as := by
  refine Steps.along_iff_meets (fun s a t h hst => together_step h hst) ?_ ?_ (together_init hs) (mutualWait_init hs)
  · intro s a t h hno hanswered hst hwait
    exact hanswered ((mutualWait_iff h hno hst).1 hwait)
  · intro s a t h hno hno' hst hun
    exact hno' ((mutualWait_iff h hno hst).2 hun)

/-! ## Lines and commands that are answered -/

/-- Every request asks for something, and a command that has been executed has printed something. -/
structure Asked (s : Session) : Prop where
  requests : ∀ f ∈ s.requests, f.msg.payload ≠ []
  printed : s.server.ctrl = .restore → s.client = .reply → s.server.input = [] → s.server.output ≠ []

theorem Asked.answered (h : Asked s) (a : SessionAct) : ¬Unanswered s a := by
  rintro ⟨hclient, hout, ⟨l, f, -, -, -, hlast, hnil⟩ | ⟨-, hctrl, hinput⟩⟩
  · exact h.requests f (List.mem_of_getLast? hlast) hnil
  · exact h.printed hctrl hclient hinput hout

theorem afterHeader_restore {s : Server} (cnt : Nat) : (s.afterHeader cnt).ctrl ≠ .restore := by
  unfold Server.afterHeader
  split_ifs <;> simp [Ctrl.start]

theorem afterBody_restore {s : Server} (cnt : Nat) : (s.afterBody cnt).ctrl ≠ .restore := by
  unfold Server.afterBody
  split_ifs <;> simp [Ctrl.start]

/-- Only `system` leads to the second `dup2`. -/
theorem to_restore {s s' : Server} {a : ServerAct} (hs : s.step a = some s') (hctrl' : s'.ctrl = .restore) :
    ∃ output, a = .system output ∧ s'.output = s.output ++ output := by
  cases server_move hs with
  | header _ _ hp =>
    cases hp with
    | full _ _ => exact absurd hctrl' (afterHeader_restore _)
    | eof _ => exact absurd hctrl' (afterHeader_restore _)
    | _ => cases hctrl'
  | body _ _ hp =>
    cases hp with
    | full _ _ => exact absurd hctrl' (afterBody_restore _)
    | eof _ => exact absurd hctrl' (afterBody_restore _)
    | _ => cases hctrl'
  | system _ => exact ⟨_, rfl, rfl⟩
  | _ => cases hctrl'

theorem doInput_payload {type : Int} {line : Line} {msg : Msg} (h : doInput type line = some msg) :
    msg.payload = line.text := by
  unfold doInput at h
  split_ifs at h <;> cases h <;> rfl

theorem asked_step {a : SessionAct} (h : Together s) (hasked : Asked s) (ha : Answering a) (hs : s.step a = some s') :
    Asked s' := by
  cases a with
  | server a =>
    obtain ⟨-, server, hserver, rfl⟩ := step_server hs
    refine ⟨hasked.requests, fun hctrl' _ _ => ?_⟩
    obtain ⟨output, rfl, hout⟩ := to_restore hserver hctrl'
    have hsome : output ≠ [] := ha
    simp [hout, hsome]
  | input type line pad =>
    obtain ⟨-, rfl | ⟨f, hmsg, rfl⟩⟩ := step_input hs
    · exact hasked
    · refine ⟨fun g hg => ?_, fun _ hwait => by cases hwait⟩
      rcases List.mem_append.1 hg with hg | hg
      · exact hasked.requests g hg
      · obtain rfl := List.mem_singleton.1 hg
        have htext : line.text ≠ [] := ha (by rw [hmsg]; rfl)
        rwa [doInput_payload hmsg]
  | noInput =>
    obtain rfl := step_noInput hs
    exact ⟨hasked.requests, fun _ hwait => by cases hwait⟩
  | write a =>
    have hkeep : s'.requests = s.requests ∧ (s'.client = .reply → s'.server.ctrl = s.server.ctrl) := by
      obtain ⟨f, l, -, ⟨-, hp⟩ | ⟨-, hp⟩⟩ := step_write hs
      all_goals
        cases hp with
        | failed => exact ⟨rfl, fun hwait => by cases hwait⟩
        | _ => exact ⟨rfl, fun _ => rfl⟩
    refine ⟨hkeep.1 ▸ hasked.requests, fun hctrl' hwait hinput' => ?_⟩
    have hrun : s.server.ctrl.stopped = false := by
      rw [← hkeep.2 hwait, hctrl']
      rfl
    exact absurd hinput' (write_input h hrun hs hwait)
  | read a =>
    cases a with
    | cnt n =>
      obtain ⟨-, -, rfl⟩ := step_readReply hs
      exact ⟨hasked.requests, fun _ hwait => by cases hwait⟩
    | failed e =>
      obtain rfl := step_readFailed hs
      exact ⟨hasked.requests, fun _ hwait => by cases hwait⟩

theorem asked_init (h : s.Init) : Asked s := by
  refine ⟨by simp [h.requests], fun _ hwait => ?_⟩
  rw [h.client] at hwait
  cases hwait

/-- When no line is empty and every command prints something, they never wait for each other. -/
theorem no_mutual_wait_of_answering (hs : s.Init) (as : List SessionAct)
    (hanswering : Steps.Meets Session.step (fun _ => Answering) s as) :
    Steps.Along Session.step (fun s => ¬MutualWait s) s as := by
  have hboth : Steps.Along Session.step (fun s => ¬MutualWait s ∧ Asked s) s as := by
    refine Steps.along_of_meets (fun s a t h hst => together_step h hst) ?_ (together_init hs)
      ⟨mutualWait_init hs, asked_init hs⟩ hanswering
    rintro s a t h ⟨hno, hasked⟩ ha hst
    exact ⟨fun hwait => hasked.answered a ((mutualWait_iff h hno hst).1 hwait), asked_step h hasked ha hst⟩
  exact hboth.mono fun s hs => hs.1

/-! ## Two waits -/

def pad : Padding := { bytes := [1, 2, 3], len := rfl }

/-- `TYPE_ECHO` and an empty line. -/
def emptyRun : List SessionAct :=
  [.input 1 { bytes := [10], nulFree := by decide, short := by decide } pad, .write (.cnt 8), .server (.read (.cnt 8))]

/-- `TYPE_CALL` and `true`, a command that prints nothing. -/
def silentRun : List SessionAct :=
  [.input 2 { bytes := [116, 114, 117, 101, 10], nulFree := by decide, short := by decide } pad, .write (.cnt 8),
   .write (.cnt 4), .server (.read (.cnt 8)), .server (.malloc (some fun _ => 0)), .server (.read (.cnt 4)),
   .server (.dup2 true), .server (.system []), .server (.dup2 true)]

theorem no_mutual_wait_emptyRun : Steps.Along Session.step (fun s => ¬MutualWait s) startSession emptyRun ↔
    Steps.Meets Session.step (fun s a => ¬Unanswered s a) startSession emptyRun :=
  no_mutual_wait_iff startSession_init emptyRun

theorem mutual_wait : (∃ s, Steps.run Session.step startSession emptyRun = some s ∧ MutualWait s) ∧
    ∃ s, Steps.run Session.step startSession silentRun = some s ∧ MutualWait s :=
  ⟨⟨_, rfl, rfl, ⟨_, rfl⟩, rfl, rfl⟩, ⟨_, rfl, rfl, ⟨_, rfl⟩, rfl, rfl⟩⟩

end SystemFunc.Framed
