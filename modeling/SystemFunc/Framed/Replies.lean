import SystemFunc.Framed.Serving

/-!
# Replies and requests

While only echoes are requested, client and server take turns, and both streams are empty when the client has printed
the whole reply (`Lockstep`). So the client prints the payloads of its requests as long as each `read` returns the whole
reply, and not longer: a reply has no header, and what is left of one is taken for the next.

- `replies_match_iff`: the runs in which all that is printed is what was requested.
-/

namespace SystemFunc.Framed

open Buffer Wrap

variable {s s' : Session} {f : Frame}

/-- Only echoes of something have been requested. -/
def EchoOnly (fs : List Frame) : Prop := ∀ f ∈ fs, f.msg.kind = .echo ∧ f.msg.payload ≠ []

def payloads (fs : List Frame) : List (List UInt8) := fs.map fun f => f.msg.payload

/-- What has been printed are the payloads of the first requests. -/
def Matched (s : Session) : Prop := EchoOnly s.requests → s.printed <+: payloads s.requests

/-- A `read` of the client returns the whole reply. -/
def WholeReply (s : Session) (a : SessionAct) : Prop :=
  ∀ n, a = .read (.cnt n) → EchoOnly s.requests → ∃ f, s.requests.getLast? = some f ∧ n = f.msg.payload.length

/-- The reply to `f` has not been printed yet, and those before have. -/
structure Session.Current (s : Session) (f : Frame) : Prop where
  requests : ∃ fs, s.requests = fs ++ [f] ∧ s.printed.length = fs.length
  opened : s.server.closed = false

/-- Client and server take turns. -/
def Lockstep (s : Session) : Prop :=
  EchoOnly s.requests →
    match s.client with
    | .input => s.printed.length = s.requests.length ∧ s.server.closed = false ∧ s.server.Quiet
    | .header f l =>
      s.Current f ∧ l.left + l.index = PROTO_SIZE ∧ Serving f s.server (f.proto.drop l.index ++ f.msg.payload)
    | .body f l =>
      s.Current f ∧ l.left + l.index = f.msg.payload.length ∧ Serving f s.server (f.msg.payload.drop l.index)
    | .reply => ∃ f, s.Current f ∧ Serving f s.server []
    | .exited _ => True

theorem Session.Current.echo (h : s.Current f) (he : EchoOnly s.requests) :
    f.msg.kind = .echo ∧ f.msg.payload ≠ [] := by
  obtain ⟨fs, hfs, -⟩ := h.requests
  exact he f (by simp [hfs])

theorem lockstep_init (h : s.Init) : Lockstep s := by
  obtain ⟨hclient, ⟨pto, tmp, hserver⟩, hrequests, hprinted⟩ := h
  intro _
  rw [hclient, hserver]
  simp [hrequests, hprinted, Server.start, Server.Quiet]

/-! The turn of the client, read off `Lockstep`. -/

theorem Lockstep.input (h : Lockstep s) (he : EchoOnly s.requests) (hclient : s.client = .input) :
    s.printed.length = s.requests.length ∧ s.server.closed = false ∧ s.server.Quiet := by
  have hl := h he
  rwa [hclient] at hl

theorem Lockstep.header (h : Lockstep s) (he : EchoOnly s.requests) {l : Count} (hclient : s.client = .header f l) :
    s.Current f ∧ l.left + l.index = PROTO_SIZE ∧ Serving f s.server (f.proto.drop l.index ++ f.msg.payload) := by
  have hl := h he
  rwa [hclient] at hl

theorem Lockstep.body (h : Lockstep s) (he : EchoOnly s.requests) {l : Count} (hclient : s.client = .body f l) :
    s.Current f ∧ l.left + l.index = f.msg.payload.length ∧
      Serving f s.server (f.msg.payload.drop l.index) := by
  have hl := h he
  rwa [hclient] at hl

theorem Lockstep.reply (h : Lockstep s) (he : EchoOnly s.requests) (hclient : s.client = .reply) :
    ∃ f, s.Current f ∧ Serving f s.server [] := by
  have hl := h he
  rwa [hclient] at hl

/-- A step of the server. -/
theorem Lockstep.server (h : Lockstep s) {a : ServerAct} {server : Server} (hne : a ≠ .write (.cnt 0))
    (hs : s.server.step a = some server) : Lockstep { s with server := server } := by
  intro he
  have hclosed := closed_step hs
  cases hclient : s.client with
  | input =>
    obtain ⟨hlen, hopen, hquiet⟩ := h.input he hclient
    exact ⟨hlen, hclosed.trans hopen, hquiet.step hopen hs⟩
  | header f l =>
    obtain ⟨hcur, hleft, hserving⟩ := h.header he hclient
    obtain ⟨hkind, hnil⟩ := hcur.echo he
    exact ⟨⟨hcur.requests, hclosed.trans hcur.opened⟩, hleft, hserving.step hkind hnil hcur.opened hne hs⟩
  | body f l =>
    obtain ⟨hcur, hleft, hserving⟩ := h.body he hclient
    obtain ⟨hkind, hnil⟩ := hcur.echo he
    exact ⟨⟨hcur.requests, hclosed.trans hcur.opened⟩, hleft, hserving.step hkind hnil hcur.opened hne hs⟩
  | reply =>
    obtain ⟨f, hcur, hserving⟩ := h.reply he hclient
    obtain ⟨hkind, hnil⟩ := hcur.echo he
    exact ⟨f, ⟨hcur.requests, hclosed.trans hcur.opened⟩, hserving.step hkind hnil hcur.opened hne hs⟩
  | exited _ => trivial

/-- What a pass of the client's `WriteCount` comes to: it goes on, it has written everything, or it has failed. -/
inductive WritePass (s : Session) (buf : List UInt8) (l : Count) (a : Answer) (more : Count → ClientCtrl)
    (done : ClientCtrl) : Session → Prop
  | again (hleft : a.size < l.left) :
      WritePass s buf l a more done { s with
        server := s.server.arrive ((buf.drop l.index).take a.size)
        client := more { left := l.left - a.size, index := l.index + a.size } }
  | full (hleft : l.left ≤ a.size) :
      WritePass s buf l a more done { s with
        server := s.server.arrive ((buf.drop l.index).take a.size)
        client := done }
  | failed {server : Server} {msg : String} :
      WritePass s buf l a more done { s with server := server, client := .exited msg }

theorem writePass (s : Session) (buf : List UInt8) (l : Count) {a : Answer} (hne : a ≠ .cnt 0)
    (more : Count → ClientCtrl) (done : ClientCtrl) :
    WritePass s buf l a more done (s.writeCount buf l a more done) := by
  unfold Session.writeCount
  cases hpass : l.pass WriteCount.headStr a with
  | again l' =>
    obtain rfl := pass_again hpass
    simp only
    split
    · exact .again (by omega)
    · exact .full (by omega)
  | leave => exact absurd (pass_leave hpass) hne
  | exit msg => exact .failed

/-- A `write` of the header, or of the payload. -/
theorem step_write {a : Answer} (hs : s.step (.write a) = some s') :
    ∃ f l, a.size ≤ l.left ∧
      (s.client = .header f l ∧ WritePass s f.proto l a (.header f) (.afterHeader f) s' ∨
        s.client = .body f l ∧ WritePass s f.msg.payload l a (.body f) .reply s') := by
  cases hclient : s.client with
  | header f l =>
    simp only [Session.step, hclient, Option.ite_none_right_eq_some, Option.some.injEq] at hs
    obtain ⟨⟨hne, hsize⟩, rfl⟩ := hs
    exact ⟨f, l, hsize, .inl ⟨rfl, writePass s _ l hne _ _⟩⟩
  | body f l =>
    simp only [Session.step, hclient, Option.ite_none_right_eq_some, Option.some.injEq] at hs
    obtain ⟨⟨hne, hsize⟩, rfl⟩ := hs
    exact ⟨f, l, hsize, .inr ⟨rfl, writePass s _ l hne _ _⟩⟩
  | _ => simp [Session.step, hclient] at hs

/-- The bytes of a `write` arrive. -/
theorem Serving.written {server : Server} {buf rest : List UInt8} {i : Nat} (n : Nat)
    (h : Serving f server (buf.drop i ++ rest)) :
    Serving f (server.arrive ((buf.drop i).take n)) (buf.drop (i + n) ++ rest) := by
  apply Serving.arrive
  rwa [← List.append_assoc, ← List.drop_drop, List.take_append_drop]

/-- A `write` of the client. -/
theorem Lockstep.write (h : Lockstep s) {a : Answer} (hs : s.step (.write a) = some s') : Lockstep s' := by
  obtain ⟨f, l, hsize, ⟨hclient, hp⟩ | ⟨hclient, hp⟩⟩ := step_write hs
  · cases hp with
    | again hmore =>
      intro he
      obtain ⟨hcur, hleft, hserving⟩ := h.header he hclient
      have hleft' : l.left - a.size + (l.index + a.size) = PROTO_SIZE := by omega
      exact ⟨⟨hcur.requests, hcur.opened⟩, hleft', hserving.written a.size⟩
    | full hfull =>
      intro he
      obtain ⟨hcur, hleft, hserving⟩ := h.header he hclient
      have hindex : l.index + a.size = f.proto.length := by rw [Frame.proto_length]; omega
      have hwritten := hserving.written a.size
      rw [hindex, List.drop_length, List.nil_append] at hwritten
      -- the payload is not empty, so that it is written next
      have hpos := List.length_pos_iff.2 (hcur.echo he).2
      simp only [ClientCtrl.afterHeader, if_pos hpos]
      exact ⟨⟨hcur.requests, hcur.opened⟩, by simp [Count.start], by simpa [Count.start] using hwritten⟩
    | failed => exact fun _ => trivial
  · cases hp with
    | again hmore =>
      intro he
      obtain ⟨hcur, hleft, hserving⟩ := h.body he hclient
      rw [← List.append_nil (f.msg.payload.drop l.index)] at hserving
      have hwritten := hserving.written a.size
      rw [List.append_nil] at hwritten
      have hleft' : l.left - a.size + (l.index + a.size) = f.msg.payload.length := by omega
      exact ⟨⟨hcur.requests, hcur.opened⟩, hleft', hwritten⟩
    | full hfull =>
      intro he
      obtain ⟨hcur, hleft, hserving⟩ := h.body he hclient
      have hindex : l.index + a.size = f.msg.payload.length := by omega
      rw [← List.append_nil (f.msg.payload.drop l.index)] at hserving
      have hwritten := hserving.written a.size
      rw [hindex, List.drop_length, List.append_nil] at hwritten
      exact ⟨f, ⟨hcur.requests, hcur.opened⟩, hwritten⟩
    | failed => exact fun _ => trivial

/-- A `read` of the client, from a state where it is the reply to `f` that comes next. -/
theorem step_readReply {n : Nat} (hs : s.step (.read (.cnt n)) = some s') :
    s.client = .reply ∧ n ≤ s.server.output.length ∧
      s' = { s with
        client := .input
        server := { s.server with output := s.server.output.drop n }
        printed := s.printed ++ [cString (s.server.output.take n)] } := by
  cases hclient : s.client with
  | reply =>
    simp only [Session.step, hclient, Option.ite_none_right_eq_some, Option.some.injEq] at hs
    obtain ⟨⟨-, hn, -⟩, rfl⟩ := hs
    exact ⟨rfl, hn, rfl⟩
  | _ => simp [Session.step, hclient] at hs

/-- What is printed after the request `f` is its payload exactly when all of it was read. -/
theorem matched_read_iff (h : Lockstep s) (hm : Matched s) (he : EchoOnly s.requests) {n : Nat}
    (hs : s.step (.read (.cnt n)) = some s') :
    Matched s' ↔ ∃ f, s.requests.getLast? = some f ∧ n = f.msg.payload.length := by
  obtain ⟨hclient, hn, rfl⟩ := step_readReply hs
  obtain ⟨f, hcur, hserving⟩ := h.reply he hclient
  obtain ⟨fs, hfs, hlen⟩ := hcur.requests
  have hprinted : s.printed = payloads fs := by
    have hpre := hm he
    rw [hfs, payloads, List.map_append] at hpre
    have hp := List.prefix_of_prefix_length_le hpre (List.prefix_append _ _) (by simp [hlen])
    exact hp.eq_of_length (by simp [hlen])
  have hlast : s.requests.getLast? = some f := by simp [hfs]
  have hiff := hserving.printed_iff hn
  constructor
  · intro hm'
    have hp := hm' he
    simp only [hprinted, hfs, payloads, List.map_append, List.map_cons, List.map_nil] at hp
    have heq := hp.eq_of_length (by simp)
    exact ⟨f, hlast, hiff.1 (by simpa using heq)⟩
  · rintro ⟨g, hg, hng⟩
    cases hlast.symm.trans hg
    intro _
    simp only [hprinted, hfs, payloads, List.map_append, List.map_cons, List.map_nil, hiff.2 hng]
    exact List.prefix_refl _

/-! ## Every step -/

theorem step_server {a : ServerAct} (hs : s.step (.server a) = some s') :
    a ≠ .write (.cnt 0) ∧ ∃ server, s.server.step a = some server ∧ s' = { s with server := server } := by
  simp only [Session.step] at hs
  split at hs
  · cases hs
  · rename_i hne
    obtain ⟨server, hserver, rfl⟩ := Option.map_eq_some_iff.1 hs
    exact ⟨hne, server, hserver, rfl⟩

/-- The next request is read from the terminal, or another type is asked for. -/
theorem step_input {type : Int} {line : Line} {pad : Padding} (hs : s.step (.input type line pad) = some s') :
    s.client = .input ∧ (s' = s ∨ ∃ f : Frame, doInput type line = some f.msg ∧
      s' = { s with client := .header f (.start PROTO_SIZE), requests := s.requests ++ [f] }) := by
  cases hclient : s.client with
  | input =>
    simp only [Session.step, hclient] at hs
    split at hs
    · cases hs
      exact ⟨rfl, .inl rfl⟩
    · rename_i msg hmsg
      cases hs
      exact ⟨rfl, .inr ⟨{ msg := msg, pad := pad }, hmsg, rfl⟩⟩
  | _ => simp [Session.step, hclient] at hs

/-- At the end of the terminal's input the client exits. -/
theorem step_noInput (hs : s.step .noInput = some s') : s' = s.exit "" := by
  cases hclient : s.client with
  | input =>
    simp only [Session.step, hclient, Option.some.injEq] at hs
    exact hs.symm
  | _ => simp [Session.step, hclient] at hs

/-- A `read` that fails makes the client exit. -/
theorem step_readFailed {e : Errno} (hs : s.step (.read (.failed e)) = some s') : s' = s.exit "read error" := by
  cases hclient : s.client with
  | reply =>
    simp only [Session.step, hclient, Option.some.injEq] at hs
    exact hs.symm
  | _ => simp [Session.step, hclient] at hs

/-- Where everything printed so far was requested, client and server go on taking turns. -/
theorem lockstep_step {a : SessionAct} (h : Lockstep s) (hm : Matched s) (hm' : Matched s')
    (hs : s.step a = some s') : Lockstep s' := by
  cases a with
  | server a =>
    obtain ⟨hne, server, hserver, rfl⟩ := step_server hs
    exact h.server hne hserver
  | input type line pad =>
    obtain ⟨hclient, rfl | ⟨f, -, rfl⟩⟩ := step_input hs
    · exact h
    · intro he
      have he' : EchoOnly s.requests := fun g hg => he g (List.mem_append_left _ hg)
      obtain ⟨hlen, hopen, hquiet⟩ := h.input he' hclient
      exact ⟨⟨⟨s.requests, rfl, hlen⟩, hopen⟩, rfl, hquiet.serve⟩
  | noInput =>
    obtain rfl := step_noInput hs
    exact fun _ => trivial
  | write a => exact h.write hs
  | read a =>
    cases a with
    | cnt n =>
      intro he
      have he' : EchoOnly s.requests := by
        obtain ⟨-, -, rfl⟩ := step_readReply hs
        exact he
      obtain ⟨g, hg, rfl⟩ := (matched_read_iff h hm he' hs).1 hm'
      obtain ⟨hclient, hn, rfl⟩ := step_readReply hs
      obtain ⟨f, hcur, hserving⟩ := h.reply he' hclient
      obtain ⟨fs, hfs, hlen⟩ := hcur.requests
      obtain rfl : f = g := by simpa [hfs] using hg
      exact ⟨by simp [hfs, hlen], hcur.opened, hserving.quiet (hcur.echo he').2 hn⟩
    | failed e =>
      obtain rfl := step_readFailed hs
      exact fun _ => trivial

/-- Only a `read` prints. -/
theorem matched_step {a : SessionAct} (hm : Matched s) (hs : s.step a = some s')
    (hread : ∀ n, a ≠ .read (.cnt n)) : Matched s' := by
  cases a with
  | server a =>
    obtain ⟨-, server, -, rfl⟩ := step_server hs
    exact hm
  | input type line pad =>
    obtain ⟨-, rfl | ⟨f, -, rfl⟩⟩ := step_input hs
    · exact hm
    · intro he
      have he' : EchoOnly s.requests := fun g hg => he g (List.mem_append_left _ hg)
      simp only [payloads, List.map_append]
      exact (hm he').trans (List.prefix_append _ _)
  | noInput =>
    obtain rfl := step_noInput hs
    exact hm
  | write a =>
    obtain ⟨f, l, -, ⟨-, hp⟩ | ⟨-, hp⟩⟩ := step_write hs
    · cases hp <;> exact hm
    · cases hp <;> exact hm
  | read a =>
    cases a with
    | cnt n => exact absurd rfl (hread n)
    | failed e =>
      obtain rfl := step_readFailed hs
      exact hm

/-- **Replies match requests**, while only echoes are requested, in the runs in which every `read` of the client returns
the whole reply, and only in these. -/
theorem replies_match_iff (hs : s.Init) (as : List SessionAct) :
    Steps.Along Session.step Matched s as ↔ Steps.Meets Session.step WholeReply s as := by
  refine Steps.along_iff_meets_while (I := Lockstep) (fun s a t h hm hm' hst => lockstep_step h hm hm' hst) ?_ ?_
    (lockstep_init hs) ?_
  · intro s a t h hm hc hst
    by_cases hread : ∃ n, a = .read (.cnt n)
    · obtain ⟨n, rfl⟩ := hread
      intro he
      have he' : EchoOnly s.requests := by
        obtain ⟨-, -, rfl⟩ := step_readReply hst
        exact he
      exact (matched_read_iff h hm he' hst).2 (hc n rfl he') he
    · exact matched_step hm hst fun n hn => hread ⟨n, hn⟩
  · rintro s a t h hm hm' hst n rfl he
    exact (matched_read_iff h hm he hst).1 hm'
  · intro _
    rw [hs.printed]
    exact List.nil_prefix

/-! ## A reply that is cut -/

def startSession : Session :=
  { server := .start (fun _ => 0) (fun _ => 0) [] false, client := .input, requests := [], printed := [] }

theorem startSession_init : startSession.Init := ⟨rfl, ⟨_, _, rfl⟩, rfl, rfl⟩

/-- `TYPE_ECHO` and the lines `hi` and `yo`; the first reply arrives in two pieces. -/
def cutRun : List SessionAct :=
  let pad : Padding := { bytes := [0, 0, 0], len := rfl }
  [.input 1 { bytes := [104, 105, 10], nulFree := by decide, short := by decide } pad, .write (.cnt 8), .write (.cnt 2),
   .server (.read (.cnt 8)), .server (.malloc (some fun _ => 0)), .server (.read (.cnt 2)), .server (.write (.cnt 1)),
   .read (.cnt 1),
   .input 1 { bytes := [121, 111, 10], nulFree := by decide, short := by decide } pad, .write (.cnt 8), .write (.cnt 2),
   .server (.write (.cnt 1)), .read (.cnt 1)]

theorem replies_match_cutRun : Steps.Along Session.step Matched startSession cutRun ↔
    Steps.Meets Session.step WholeReply startSession cutRun :=
  replies_match_iff startSession_init cutRun

/-- Every reply from then on is the rest of the one before. -/
theorem replies_shifted : ∃ s, Steps.run Session.step startSession cutRun = some s ∧
    (s.requests.map fun f => f.msg.kind) = [.echo, .echo] ∧ payloads s.requests = [[104, 105], [121, 111]] ∧
      s.printed = [[104], [105]] :=
  ⟨_, rfl, rfl, rfl, rfl⟩

end SystemFunc.Framed
