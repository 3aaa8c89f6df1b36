import SystemFunc.Lib.Steps
import SystemFunc.Framed.Defs

/-!
# The server does what it is asked

`Expects s unread rest`: the server is where it has to be when the bytes that it has not read are `unread` and the
requests that it has not answered are `rest`. Every step keeps this for what is then left, so the calls made and those
of the requests that are left are always those of all requests.

- `sendAll_eq`: the client sends the stream of its requests;
- `calls_of_stream`: from any segmentation of it, the server makes the calls of the requests, and returns.
-/

namespace SystemFunc.Framed

open Buffer Wrap

variable {s s' : Server} {f : Frame} {fs rest : List Frame} {unread more : List UInt8}

/-- What is done for a request. -/
def Frame.calls (f : Frame) : List Call :=
  if f.msg.payload = [] then []
  else
    match f.msg.kind with
    | .echo => [.writeCount f.msg.payload]
    | .call => [.system f.msg.payload]

/-- What is done for some requests. -/
def calls (fs : List Frame) : List Call := fs.flatMap Frame.calls

@[simp] theorem encode_nil : encode [] = [] := rfl

@[simp] theorem encode_cons : encode (f :: fs) = f.proto ++ (f.msg.payload ++ encode fs) := by
  simp [encode, Frame.bytes]

@[simp] theorem calls_cons : calls (f :: fs) = f.calls ++ calls fs := rfl

@[simp] theorem Frame.proto_length (f : Frame) : f.proto.length = PROTO_SIZE := by
  simp [Frame.proto, f.pad.len, PROTO_SIZE]

/-! ## The client -/

/-- What is stored in a buffer of zeros is there. -/
theorem slice_zeros (bs : List UInt8) : slice (store (fun _ => 0) 0 bs) 0 bs.length = bs := slice_store_self

/-- **The client sends the stream of its requests**, however its writes are cut. -/
theorem sendAll_eq {as : List Answer} {stream : List UInt8} (h : sendAll fs as = some stream)
    (hpos : ∀ a ∈ as, a ≠ .cnt 0) : stream = encode fs := by
  induction fs generalizing as stream with
  | nil => cases h; rfl
  | cons f fs ih =>
    simp only [sendAll, Option.bind_eq_bind, Option.pure_def, Option.bind_eq_some_iff, Option.some.injEq] at h
    obtain ⟨⟨proto, r, as₁⟩, hproto, ⟨inbuf, r', as₂⟩, hinbuf, rest, hrest, rfl⟩ := h
    obtain ⟨rfl, -, hsuffix⟩ := writeCount_eq hproto hpos
    have hpos₁ : ∀ a ∈ as₁, a ≠ .cnt 0 := fun a ha => hpos a (hsuffix.subset ha)
    obtain ⟨rfl, -, hsuffix⟩ := writeCount_eq hinbuf hpos₁
    obtain rfl := ih hrest fun a ha => hpos₁ a (hsuffix.subset ha)
    have hp := slice_zeros f.proto
    rw [Frame.proto_length] at hp
    simp only [Count.start, encode_cons, hp, slice_zeros, List.append_assoc]

/-! ## What the server expects -/

/-- `pto` is the header of the request, and there is something behind it. -/
structure Server.Holds (s : Server) (f : Frame) : Prop where
  some : f.msg.payload ≠ []
  type : s.type = f.msg.kind.type
  size : s.size = f.msg.payload.length

/-- The header is in `pto`. -/
theorem Server.Holds.of_pto (h : s.Holds f) (hpto : s'.pto = s.pto) : s'.Holds f := by
  refine ⟨h.some, ?_, ?_⟩
  · rw [Server.type, hpto]
    exact h.type
  · rw [Server.size, hpto]
    exact h.size

def Expects (s : Server) (unread : List UInt8) (rest : List Frame) : Prop :=
  match s.ctrl with
  | .header l =>
    l.index < PROTO_SIZE ∧ l.left + l.index = PROTO_SIZE ∧ slice s.pto 0 l.index ++ unread = encode rest
  | .malloc => ∃ f rest', rest = f :: rest' ∧ s.Holds f ∧ unread = f.msg.payload ++ encode rest'
  | .body l =>
    ∃ f rest', rest = f :: rest' ∧ s.Holds f ∧ l.index < f.msg.payload.length ∧
      l.left + l.index = f.msg.payload.length ∧ slice s.tmp 0 l.index ++ unread = f.msg.payload ++ encode rest'
  | .echo l => 0 < l.left ∧ unread = encode rest
  | .redirect | .system =>
    ∃ f rest', rest = f :: rest' ∧ s.Holds f ∧ f.msg.kind = .call ∧
      slice s.tmp 0 f.msg.payload.length = f.msg.payload ∧ unread = encode rest'
  | .restore => unread = encode rest
  | .returned => unread = [] ∧ rest = []
  | .exited _ => False
  | .undefined => False

theorem Server.Holds.toNat_size (h : s.Holds f) : s.size.toNat = f.msg.payload.length := by
  rw [h.size, Int.toNat_natCast]

/-- The header of a request is read as it was written. -/
theorem parse_proto (h : slice s.pto 0 PROTO_SIZE = f.proto) :
    s.type = f.msg.kind.type ∧ s.size = f.msg.payload.length := by
  have hshort := f.msg.short
  constructor
  · have hhead : s.pto 0 :: slice s.pto 1 7 = f.proto := by
      rw [← h]
      exact (@slice_add _ s.pto 0 1 7).symm
    exact (List.cons.inj hhead).1
  · have hdrop : slice s.pto 4 4 = f.proto.drop 4 := by
      rw [← h, slice_drop (by decide)]
      rfl
    have hsize : f.proto.drop 4 = LittleEndian.encode 4 f.msg.payload.length := by
      rw [Frame.proto, List.drop_succ_cons, ← f.pad.len, List.drop_left]
    rw [Server.size, hdrop, hsize, LittleEndian.decode_encode (by omega)]
    exact s32_of_lt (by omega) (by omega)

theorem Expects.start (hctrl : s.ctrl = .start) (hunread : unread = encode rest) : Expects s unread rest := by
  simp [Expects, hctrl, Ctrl.start, Count.start, PROTO_SIZE, hunread]

theorem type_known {kind : Kind} (h : s.type = kind.type) : ¬(s.type ≠ Kind.echo.type ∧ s.type ≠ Kind.call.type) := by
  rw [h]
  cases kind <;> simp

/-- After the header of a request with a payload. -/
theorem afterHeader_some (h : slice s.pto 0 PROTO_SIZE = f.proto) (hnil : f.msg.payload ≠ []) :
    s.Holds f ∧ s.afterHeader PROTO_SIZE = { s with ctrl := .malloc } := by
  obtain ⟨htype, hsize⟩ := parse_proto h
  have hshort := f.msg.short
  have hpos : 0 < f.msg.payload.length := List.length_pos_iff.2 hnil
  have hkind := type_known htype
  have h1 : ¬s.size < 0 := by omega
  have h2 : ¬s.size = 0 := by omega
  have h3 : ¬2 ^ 31 ≤ s.size + 1 := by omega
  refine ⟨⟨hnil, htype, hsize⟩, ?_⟩
  simp only [Server.afterHeader, if_neg hkind, if_neg h1, if_neg h2, if_neg h3]
  simp [PROTO_SIZE]

/-- After the header of a request without one. -/
theorem afterHeader_none (h : slice s.pto 0 PROTO_SIZE = f.proto) (hnil : f.msg.payload = []) :
    s.afterHeader PROTO_SIZE = { s with ctrl := .start } := by
  obtain ⟨htype, hsize⟩ := parse_proto h
  have hkind := type_known htype
  have hzero : s.size = 0 := by simp [hsize, hnil]
  simp only [Server.afterHeader, if_neg hkind, hzero]
  simp [PROTO_SIZE]

/-- After the payload of an echo. -/
theorem afterBody_echo (h : s.Holds f) (hkind : f.msg.kind = .echo)
    (htmp : slice s.tmp 0 f.msg.payload.length = f.msg.payload) :
    s.afterBody f.msg.payload.length =
      { s with ctrl := .echo (.start f.msg.payload.length), calls := s.calls ++ [.writeCount f.msg.payload] } := by
  have hcnt : ¬(f.msg.payload.length : Int) ≠ s.size := by rw [h.size]; simp
  have htype : s.type = Kind.echo.type := by rw [h.type, hkind]
  simp only [Server.afterBody, if_neg hcnt, if_pos htype, htmp]

/-- After the payload of a command. -/
theorem afterBody_call (h : s.Holds f) (hkind : f.msg.kind = .call) :
    s.afterBody f.msg.payload.length = { s with ctrl := .redirect } := by
  have hcnt : ¬(f.msg.payload.length : Int) ≠ s.size := by rw [h.size]; simp
  have htype : s.type = Kind.call.type := by rw [h.type, hkind]
  have hne : ¬s.type = Kind.echo.type := by rw [htype]; decide
  simp only [Server.afterBody, if_neg hcnt, if_neg hne, if_pos htype]

/-- After a header: the payload of the request comes next, or nothing is to be done for it. -/
theorem expects_afterHeader (h : slice s.pto 0 PROTO_SIZE ++ unread = encode rest) :
    ∃ rest', rest' <:+ rest ∧ Expects (s.afterHeader PROTO_SIZE) unread rest' ∧
      (s.afterHeader PROTO_SIZE).calls ++ calls rest' = s.calls ++ calls rest := by
  cases rest with
  | nil =>
    have hlen := congrArg List.length h
    simp [PROTO_SIZE] at hlen
  | cons f rest =>
    rw [encode_cons] at h
    obtain ⟨hproto, hunread⟩ := List.append_inj h (by simp)
    by_cases hnil : f.msg.payload = []
    · rw [afterHeader_none hproto hnil]
      refine ⟨rest, List.suffix_cons _ _, .start rfl (by simpa [hnil] using hunread), ?_⟩
      simp [Frame.calls, hnil]
    · obtain ⟨hholds, heq⟩ := afterHeader_some hproto hnil
      rw [heq]
      exact ⟨f :: rest, List.suffix_refl _, ⟨f, rest, rfl, hholds.of_pto rfl, hunread⟩, rfl⟩

/-- After a payload: it is written, or executed. -/
theorem expects_afterBody (hholds : s.Holds f) (h : slice s.tmp 0 f.msg.payload.length ++ unread =
    f.msg.payload ++ encode rest) :
    ∃ rest', rest' <:+ f :: rest ∧ Expects (s.afterBody f.msg.payload.length) unread rest' ∧
      (s.afterBody f.msg.payload.length).calls ++ calls rest' = s.calls ++ calls (f :: rest) := by
  obtain ⟨htmp, hunread⟩ := List.append_inj h (by simp)
  have hnil := hholds.some
  cases hkind : f.msg.kind with
  | echo =>
    rw [afterBody_echo hholds hkind htmp]
    refine ⟨rest, List.suffix_cons _ _, ⟨List.length_pos_iff.2 hnil, hunread⟩, ?_⟩
    simp [Frame.calls, hnil, hkind]
  | call =>
    rw [afterBody_call hholds hkind]
    exact ⟨f :: rest, List.suffix_refl _, ⟨f, rest, rfl, hholds.of_pto rfl, hkind, htmp, hunread⟩, rfl⟩

/-! ## Every step -/

/-- The call does not fail: a `read` or `write` may be interrupted. -/
def ServerAct.ok : ServerAct → Bool
  | .read a => a ≠ .failed .other
  | .malloc block => block.isSome
  | .write a => a ≠ .failed .other
  | .dup2 ok => ok
  | .system _ => true

@[simp] theorem afterHeader_input (cnt : Nat) : (s.afterHeader cnt).input = s.input := by
  unfold Server.afterHeader
  split_ifs <;> rfl

@[simp] theorem afterBody_input (cnt : Nat) : (s.afterBody cnt).input = s.input := by
  unfold Server.afterBody
  split_ifs <;> rfl

/-- A text without a `NUL` is a C string. -/
theorem cString_eq {bs : List UInt8} (h : 0 ∉ bs) : cString bs = bs :=
  List.takeWhile_eq_self_iff.2 fun b hb => by
    have hne : b ≠ 0 := fun he => h (he ▸ hb)
    simp [hne]

/-- What a `read` takes from the stream. -/
theorem answers_size {l : Nat} {a : Answer} (h : s.answers l a = true) :
    a.size ≤ l ∧ a.size ≤ s.input.length ∧ (a = .cnt 0 → s.input = [] ∧ s.closed = true) := by
  cases a with
  | cnt n =>
    simp only [Server.answers, Bool.and_eq_true, decide_eq_true_eq, Bool.or_eq_true, List.isEmpty_iff] at h
    refine ⟨h.1.1, h.1.2, ?_⟩
    intro hz
    cases hz
    simpa using h.2
  | failed e => simp [Answer.size]

/-- The end of the stream is not read before the client has closed its side. -/
theorem answers_ne_zero {l : Nat} {a : Answer} (hclosed : s.closed = false) (h : s.answers l a = true) :
    a ≠ .cnt 0 := by
  intro hz
  have hopen := ((answers_size h).2.2 hz).2
  simp [hclosed] at hopen

/-- The bytes that are read are the next ones, and no more than those that are `left`. -/
theorem read_next {buf : Nat → UInt8} {l : Count} {a : Answer} {total : Nat} {bs : List UInt8}
    (hanswers : s.answers l.left a = true) (hleft : l.left + l.index = total)
    (hslice : slice buf 0 l.index ++ (s.input ++ more) = bs) :
    l.index + a.size ≤ total ∧
      slice (store buf l.index (s.input.take a.size)) 0 (l.index + a.size) ++ (s.input.drop a.size ++ more) = bs := by
  obtain ⟨hsize, hinput, -⟩ := answers_size hanswers
  refine ⟨by omega, ?_⟩
  have hstore := @slice_store _ buf 0 l.index (s.input.take a.size)
  rw [Nat.zero_add, List.length_take_of_le hinput] at hstore
  rw [hstore, List.append_assoc, ← List.append_assoc (s.input.take a.size), List.take_append_drop, hslice]

/-- At the end of the stream nothing is left, and no request is half read. -/
theorem encode_eq_short {bs : List UInt8} (hlen : bs.length < PROTO_SIZE) (h : bs = encode rest) : rest = [] := by
  cases rest with
  | nil => rfl
  | cons f rest =>
    rw [h] at hlen
    simp at hlen

/-- What a pass of `ReadCount` comes to: it goes on, it has everything, it has met the end of the stream, or it has
failed. -/
inductive ReadPass (s : Server) (l : Count) (a : Answer) (more : Count → Ctrl) (done : Nat → Server) : Server → Prop
  | again (hne : a ≠ .cnt 0) (hleft : a.size < l.left) :
      ReadPass s l a more done { s with ctrl := more { left := l.left - a.size, index := l.index + a.size } }
  | full (hne : a ≠ .cnt 0) (hleft : l.left ≤ a.size) : ReadPass s l a more done (done (l.index + a.size))
  | eof (hzero : a = .cnt 0) : ReadPass s l a more done (done l.index)
  | failed (hfailed : a = .failed .other) : ReadPass s l a more done { s with ctrl := .exited ReadCount.headStr }

theorem readPass (l : Count) (a : Answer) (more : Count → Ctrl) (done : Nat → Server) :
    ReadPass s l a more done (s.readCount l a more done) := by
  unfold Server.readCount
  cases hpass : l.pass ReadCount.headStr a with
  | again l' =>
    have hne : a ≠ .cnt 0 := by
      rintro rfl
      cases hpass
    obtain rfl := pass_again hpass
    simp only
    split
    · exact .again hne (by omega)
    · exact .full hne (by omega)
  | leave => exact .eof (pass_leave hpass)
  | exit msg =>
    obtain rfl := pass_exit hpass
    cases hpass
    exact .failed rfl

/-- A `read` of the header, or of the payload. -/
theorem step_read {a : Answer} (hs : s.step (.read a) = some s') :
    ∃ l, s.answers l.left a = true ∧
      (s.ctrl = .header l ∧
          ReadPass (s.intoPto l.index a.size) l a .header (s.intoPto l.index a.size).afterHeader s' ∨
        s.ctrl = .body l ∧
          ReadPass (s.intoTmp l.index a.size) l a .body (s.intoTmp l.index a.size).afterBody s') := by
  cases hctrl : s.ctrl with
  | header l =>
    simp only [Server.step, hctrl, Option.ite_none_right_eq_some, Option.some.injEq] at hs
    obtain ⟨hanswers, rfl⟩ := hs
    exact ⟨l, hanswers, .inl ⟨rfl, readPass l a _ _⟩⟩
  | body l =>
    simp only [Server.step, hctrl, Option.ite_none_right_eq_some, Option.some.injEq] at hs
    obtain ⟨hanswers, rfl⟩ := hs
    exact ⟨l, hanswers, .inr ⟨rfl, readPass l a _ _⟩⟩
  | _ => simp [Server.step, hctrl] at hs

/-- What the server can do in a step. -/
inductive ServerMove (s : Server) : ServerAct → Server → Prop
  | header {l : Count} {a : Answer} {s' : Server} (hctrl : s.ctrl = .header l) (hanswers : s.answers l.left a = true)
      (hp : ReadPass (s.intoPto l.index a.size) l a .header (s.intoPto l.index a.size).afterHeader s') :
      ServerMove s (.read a) s'
  | body {l : Count} {a : Answer} {s' : Server} (hctrl : s.ctrl = .body l) (hanswers : s.answers l.left a = true)
      (hp : ReadPass (s.intoTmp l.index a.size) l a .body (s.intoTmp l.index a.size).afterBody s') :
      ServerMove s (.read a) s'
  | noBlock (hctrl : s.ctrl = .malloc) : ServerMove s (.malloc none) { s with ctrl := .exited "malloc error" }
  | block {tmp : Nat → UInt8} (hctrl : s.ctrl = .malloc) :
      ServerMove s (.malloc (some tmp)) { s with tmp := tmp, ctrl := .body (.start s.size.toNat) }
  | echo {l : Count} {a : Answer} (hctrl : s.ctrl = .echo l) (hne : a ≠ .cnt 0) (hok : a ≠ .failed .other)
      (hmore : a.size < l.left) :
      ServerMove s (.write a)
        { s with
          output := s.output ++ slice s.tmp l.index a.size
          ctrl := .echo { left := l.left - a.size, index := l.index + a.size } }
  | echoed {l : Count} {a : Answer} (hctrl : s.ctrl = .echo l) (hok : a ≠ .failed .other)
      (hall : a.size = l.left ∨ a = .cnt 0) :
      ServerMove s (.write a) { s with output := s.output ++ slice s.tmp l.index a.size, ctrl := .start }
  | echoFailed {l : Count} (hctrl : s.ctrl = .echo l) :
      ServerMove s (.write (.failed .other)) { s with ctrl := .exited WriteCount.headStr }
  | redirected (hctrl : s.ctrl = .redirect) : ServerMove s (.dup2 true) { s with ctrl := .system }
  | restored (hctrl : s.ctrl = .restore) : ServerMove s (.dup2 true) { s with ctrl := .start }
  | dup2Failed {msg : String} (hctrl : s.ctrl = .redirect ∨ s.ctrl = .restore) :
      ServerMove s (.dup2 false) { s with ctrl := .exited msg }
  | system {output : List UInt8} (hctrl : s.ctrl = .system) :
      ServerMove s (.system output)
        { s with
          ctrl := .restore
          output := s.output ++ output
          calls := s.calls ++ [.system (cString (slice s.tmp 0 s.size.toNat))] }

/-- A `write` of the reply. -/
theorem move_write {a : Answer} (hs : s.step (.write a) = some s') : ServerMove s (.write a) s' := by
  cases hctrl : s.ctrl with
  | echo l =>
    simp only [Server.step, hctrl, Option.ite_none_right_eq_some] at hs
    obtain ⟨hsize, hs⟩ := hs
    split at hs
    · rename_i l' hpass
      have hne : a ≠ .cnt 0 := by
        rintro rfl
        cases hpass
      have hok : a ≠ .failed .other := by
        rintro rfl
        cases hpass
      obtain rfl := pass_again hpass
      cases hs
      split
      · rename_i hmore
        exact .echo hctrl hne hok (Nat.lt_of_sub_pos hmore)
      · rename_i hmore
        have hall : a.size = l.left := by
          simp only at hmore
          omega
        exact .echoed hctrl hok (.inl hall)
    · rename_i hpass
      cases hs
      obtain rfl := pass_leave hpass
      exact .echoed hctrl nofun (.inr rfl)
    · rename_i msg hpass
      obtain rfl := pass_exit hpass
      cases hpass
      cases hs
      simpa [Answer.size] using ServerMove.echoFailed hctrl
  | _ => simp [Server.step, hctrl] at hs

theorem server_move {a : ServerAct} (hs : s.step a = some s') : ServerMove s a s' := by
  cases a with
  | read a =>
    obtain ⟨l, hanswers, ⟨hctrl, hp⟩ | ⟨hctrl, hp⟩⟩ := step_read hs
    · exact .header hctrl hanswers hp
    · exact .body hctrl hanswers hp
  | malloc block =>
    cases hctrl : s.ctrl with
    | malloc =>
      simp only [Server.step, hctrl] at hs
      cases block with
      | none =>
        cases hs
        exact .noBlock hctrl
      | some tmp =>
        cases hs
        exact .block hctrl
    | _ => simp [Server.step, hctrl] at hs
  | write a => exact move_write hs
  | dup2 ok =>
    cases hctrl : s.ctrl with
    | redirect =>
      simp only [Server.step, hctrl, Option.some.injEq] at hs
      subst hs
      cases ok with
      | true => exact .redirected hctrl
      | false => exact .dup2Failed (.inl hctrl)
    | restore =>
      simp only [Server.step, hctrl, Option.some.injEq] at hs
      subst hs
      cases ok with
      | true => exact .restored hctrl
      | false => exact .dup2Failed (.inr hctrl)
    | _ => simp [Server.step, hctrl] at hs
  | system output =>
    cases hctrl : s.ctrl with
    | system =>
      simp only [Server.step, hctrl, Option.some.injEq] at hs
      subst hs
      exact .system hctrl
    | _ => simp [Server.step, hctrl] at hs

/-- A `read` of the header. -/
theorem Expects.readHeader {l : Count} {a : Answer} (hctrl : s.ctrl = .header l)
    (h : Expects s (s.input ++ more) rest) (heof : s.closed = true → more = []) (hanswers : s.answers l.left a = true)
    (hne : a ≠ .failed .other)
    (hp : ReadPass (s.intoPto l.index a.size) l a .header (s.intoPto l.index a.size).afterHeader s') :
    ∃ rest', rest' <:+ rest ∧ Expects s' (s'.input ++ more) rest' ∧
      s'.calls ++ calls rest' = s.calls ++ calls rest := by
  simp only [Expects, hctrl] at h
  obtain ⟨hindex, hleft, hslice⟩ := h
  obtain ⟨htotal, hread⟩ := read_next hanswers hleft hslice
  cases hp with
  | again _ hmore =>
    have hindex' : l.index + a.size < PROTO_SIZE := by omega
    have hleft' : l.left - a.size + (l.index + a.size) = PROTO_SIZE := by omega
    exact ⟨rest, List.suffix_refl _, ⟨hindex', hleft', hread⟩, rfl⟩
  | full _ hfull =>
    have hindex' : l.index + a.size = PROTO_SIZE := by omega
    rw [hindex'] at hread ⊢
    rw [afterHeader_input]
    exact expects_afterHeader hread
  | eof hz =>
    subst hz
    obtain ⟨hnil, hclosed⟩ := (answers_size hanswers).2.2 rfl
    rw [hnil, heof hclosed, List.append_nil, List.append_nil] at hslice
    obtain rfl := encode_eq_short (by simpa using hindex) hslice
    have hlen := congrArg List.length hslice
    simp only [slice_length, encode_nil, List.length_nil] at hlen
    refine ⟨[], List.suffix_refl _, ?_, ?_⟩
    · simp [Expects, Server.afterHeader, Server.intoPto, hlen, hnil, heof hclosed]
    · simp [Server.afterHeader, Server.intoPto, hlen]
  | failed hf => exact absurd hf hne

/-- A `read` of the payload. -/
theorem Expects.readBody {l : Count} {a : Answer} (hctrl : s.ctrl = .body l)
    (h : Expects s (s.input ++ more) rest) (heof : s.closed = true → more = []) (hanswers : s.answers l.left a = true)
    (hne : a ≠ .failed .other)
    (hp : ReadPass (s.intoTmp l.index a.size) l a .body (s.intoTmp l.index a.size).afterBody s') :
    ∃ rest', rest' <:+ rest ∧ Expects s' (s'.input ++ more) rest' ∧
      s'.calls ++ calls rest' = s.calls ++ calls rest := by
  simp only [Expects, hctrl] at h
  obtain ⟨f, rest', rfl, hholds, hindex, hleft, hslice⟩ := h
  obtain ⟨htotal, hread⟩ := read_next hanswers hleft hslice
  cases hp with
  | again _ hmore =>
    have hindex' : l.index + a.size < f.msg.payload.length := by omega
    have hleft' : l.left - a.size + (l.index + a.size) = f.msg.payload.length := by omega
    exact ⟨f :: rest', List.suffix_refl _, ⟨f, rest', rfl, hholds.of_pto rfl, hindex', hleft', hread⟩, rfl⟩
  | full _ hfull =>
    have hindex' : l.index + a.size = f.msg.payload.length := by omega
    rw [hindex'] at hread ⊢
    rw [afterBody_input]
    exact expects_afterBody (hholds.of_pto rfl) hread
  | eof hz =>
    -- the stream does not end within a payload
    subst hz
    obtain ⟨hnil, hclosed⟩ := (answers_size hanswers).2.2 rfl
    rw [hnil, heof hclosed, List.append_nil, List.append_nil] at hslice
    have hlen := congrArg List.length hslice
    simp only [slice_length, List.length_append] at hlen
    omega
  | failed hf => exact absurd hf hne

/-- **Every step** that does not fail does what is expected of the requests, one after the other; `more` is what the
client has still to send. -/
theorem Expects.step {a : ServerAct} (h : Expects s (s.input ++ more) rest) (heof : s.closed = true → more = [])
    (hok : a.ok = true) (hs : s.step a = some s') :
    ∃ rest', rest' <:+ rest ∧ Expects s' (s'.input ++ more) rest' ∧
      s'.calls ++ calls rest' = s.calls ++ calls rest := by
  cases server_move hs with
  | @header l a _ hctrl hanswers hp =>
    have hne : a ≠ .failed .other := by simpa [ServerAct.ok] using hok
    exact h.readHeader hctrl heof hanswers hne hp
  | @body l a _ hctrl hanswers hp =>
    have hne : a ≠ .failed .other := by simpa [ServerAct.ok] using hok
    exact h.readBody hctrl heof hanswers hne hp
  | noBlock _ => simp [ServerAct.ok] at hok
  | block hctrl =>
    simp only [Expects, hctrl] at h
    obtain ⟨f, rest', rfl, hholds, hunread⟩ := h
    have hpos := List.length_pos_iff.2 hholds.some
    refine ⟨f :: rest', List.suffix_refl _, ⟨f, rest', rfl, hholds.of_pto rfl, ?_⟩, rfl⟩
    simp [Count.start, hholds.toNat_size, hpos, hunread]
  | echo hctrl _ _ hmore =>
    simp only [Expects, hctrl] at h
    exact ⟨rest, List.suffix_refl _, ⟨Nat.sub_pos_of_lt hmore, h.2⟩, rfl⟩
  | echoed hctrl _ _ =>
    simp only [Expects, hctrl] at h
    exact ⟨rest, List.suffix_refl _, .start rfl h.2, rfl⟩
  | echoFailed _ => simp [ServerAct.ok] at hok
  | redirected hctrl =>
    simp only [Expects, hctrl] at h
    obtain ⟨f, rest', rfl, hholds, hexp⟩ := h
    exact ⟨f :: rest', List.suffix_refl _, ⟨f, rest', rfl, hholds.of_pto rfl, hexp⟩, rfl⟩
  | restored hctrl =>
    simp only [Expects, hctrl] at h
    exact ⟨rest, List.suffix_refl _, .start rfl h, rfl⟩
  | dup2Failed _ => simp [ServerAct.ok] at hok
  | system hctrl =>
    simp only [Expects, hctrl] at h
    obtain ⟨f, rest', rfl, hholds, hkind, htmp, hunread⟩ := h
    refine ⟨rest', List.suffix_cons _ _, hunread, ?_⟩
    have hcommand : cString f.msg.payload = f.msg.payload := cString_eq f.msg.nulFree
    simp [Frame.calls, hholds.some, hkind, hholds.toNat_size, htmp, hcommand]

/-! ## The server returns -/

/-- An interrupted `read` or `write`. -/
def ServerAct.interrupted : ServerAct → Bool
  | .read (.failed _) => true
  | .write (.failed _) => true
  | _ => false

/-- A bound on the steps that are left: two for each byte of the stream, and those of the request at hand. -/
def Server.todo (s : Server) : Nat :=
  2 * s.input.length + match s.ctrl with
    | .header l => l.index + 2
    | .malloc => 9
    | .body l => l.index + 8
    | .echo l => l.left + 3
    | .redirect => 5
    | .system => 4
    | .restore => 3
    | .returned => 0
    | .exited _ => 0
    | .undefined => 0

theorem todo_afterHeader (cnt : Nat) : (s.afterHeader cnt).todo ≤ 2 * s.input.length + cnt + 1 := by
  unfold Server.afterHeader
  split_ifs <;> simp_all [Server.todo, Ctrl.start, Count.start, PROTO_SIZE] <;> omega

theorem todo_afterBody (cnt : Nat) : (s.afterBody cnt).todo ≤ 2 * s.input.length + cnt + 5 := by
  unfold Server.afterBody
  split_ifs <;> simp [Server.todo, Ctrl.start, Count.start] <;> omega

/-- What a step has to take from the bound. -/
def ServerAct.cost (a : ServerAct) : Nat := if a.interrupted then 0 else 1

theorem cost_le (a : ServerAct) : a.cost ≤ 1 := by
  unfold ServerAct.cost
  split <;> omega

/-- A pass that goes on has taken a byte, or was interrupted. -/
theorem cost_read {a : Answer} (h : a ≠ .cnt 0) : (ServerAct.read a).cost ≤ a.size := by
  cases a with
  | cnt n =>
    have hpos : 1 ≤ n := Nat.pos_of_ne_zero fun hn => h (hn ▸ rfl)
    simpa [ServerAct.cost, ServerAct.interrupted, Answer.size] using hpos
  | failed e => simp [ServerAct.cost, ServerAct.interrupted]

/-- A pass of a reading loop, for which `k` is what the bound has beside the bytes. -/
theorem ReadPass.todo {l : Count} {a : Answer} {more : Count → Ctrl} {done : Nat → Server} {k : Nat}
    (hp : ReadPass s l a more done s')
    (hmore : ∀ l', { s with ctrl := more l' }.todo = 2 * s.input.length + (l'.index + k))
    (hdone : ∀ cnt, (done cnt).todo + 1 ≤ 2 * s.input.length + (cnt + k)) (hk : 1 ≤ k) :
    s'.todo + (ServerAct.read a).cost ≤ 2 * (s.input.length + a.size) + (l.index + k) := by
  have hone := cost_le (.read a)
  cases hp with
  | again hne _ =>
    have hcost := cost_read hne
    have hbound := hmore { left := l.left - a.size, index := l.index + a.size }
    simp only at hbound
    omega
  | full _ _ =>
    have hbound := hdone (l.index + a.size)
    omega
  | eof _ =>
    have hbound := hdone l.index
    omega
  | failed _ =>
    simp only [Server.todo]
    omega

/-- **Each step takes something from the bound**, but for interruptions. -/
theorem todo_step {a : ServerAct} (hs : s.step a = some s') : s'.todo + a.cost ≤ s.todo := by
  have hone := cost_le a
  cases server_move hs with
  | header hctrl hanswers hp =>
    obtain ⟨-, hinput, -⟩ := answers_size hanswers
    have hbound := hp.todo (k := 2) (fun _ => rfl) (fun cnt => Nat.succ_le_succ (todo_afterHeader cnt)) (by omega)
    simp only [Server.intoPto, List.length_drop] at hbound
    simp only [Server.todo, hctrl] at hbound ⊢
    omega
  | body hctrl hanswers hp =>
    obtain ⟨-, hinput, -⟩ := answers_size hanswers
    have hbound := hp.todo (k := 8) (fun _ => rfl)
      (fun cnt => Nat.le_trans (Nat.succ_le_succ (todo_afterBody cnt)) (by omega)) (by omega)
    simp only [Server.intoTmp, List.length_drop] at hbound
    simp only [Server.todo, hctrl] at hbound ⊢
    omega
  | noBlock hctrl =>
    simp only [Server.todo, hctrl]
    omega
  | block hctrl =>
    simp only [Server.todo, hctrl, Count.start]
    omega
  | @echo l a hctrl hne _ hmore =>
    have hcost : (ServerAct.write a).cost ≤ a.size := by
      have hread := cost_read hne
      cases a <;> exact hread
    simp only [Server.todo, hctrl]
    omega
  | echoed hctrl _ _ =>
    simp only [Server.todo, hctrl, Ctrl.start, Count.start]
    omega
  | echoFailed hctrl =>
    simp only [Server.todo, hctrl]
    omega
  | redirected hctrl =>
    simp only [Server.todo, hctrl]
    omega
  | restored hctrl =>
    simp only [Server.todo, hctrl, Ctrl.start, Count.start]
    omega
  | dup2Failed hctrl =>
    rcases hctrl with hctrl | hctrl
    all_goals
      simp only [Server.todo, hctrl]
      omega
  | system hctrl =>
    simp only [Server.todo, hctrl]
    omega

@[simp] theorem afterHeader_closed (cnt : Nat) : (s.afterHeader cnt).closed = s.closed := by
  unfold Server.afterHeader
  split_ifs <;> rfl

@[simp] theorem afterBody_closed (cnt : Nat) : (s.afterBody cnt).closed = s.closed := by
  unfold Server.afterBody
  split_ifs <;> rfl

/-- No step of the server closes the client's side. -/
theorem closed_step {a : ServerAct} (hs : s.step a = some s') : s'.closed = s.closed := by
  cases server_move hs with
  | header _ _ hp => cases hp <;> simp [Server.intoPto]
  | body _ _ hp => cases hp <;> simp [Server.intoTmp]
  | _ => rfl

/-- There is something to read, or the end of the stream. -/
theorem answers_some (hclosed : s.closed = true) {left : Nat} (hleft : 0 < left) :
    ∃ n, s.answers left (.cnt n) = true := by
  by_cases hnil : s.input = []
  · exact ⟨0, by simp [Server.answers, hnil, hclosed]⟩
  · have hpos := List.length_pos_iff.2 hnil
    refine ⟨1, ?_⟩
    simp only [Server.answers, Bool.and_eq_true, decide_eq_true_eq, ne_eq, one_ne_zero, not_false_eq_true, decide_true,
      Bool.true_or, and_true]
    omega

/-- A server that has not returned goes on. -/
theorem Expects.goesOn (h : Expects s unread rest) (hclosed : s.closed = true) (hctrl : s.ctrl ≠ .returned) :
    ∃ a, a.ok = true ∧ a.interrupted = false ∧ (s.step a).isSome = true := by
  cases hc : s.ctrl with
  | header l =>
    simp only [Expects, hc] at h
    have hpos : 0 < l.left := by omega
    obtain ⟨n, hn⟩ := answers_some hclosed hpos
    exact ⟨.read (.cnt n), rfl, rfl, by simp [Server.step, hc, hn]⟩
  | malloc => exact ⟨.malloc (some fun _ => 0), rfl, rfl, by simp [Server.step, hc]⟩
  | body l =>
    simp only [Expects, hc] at h
    obtain ⟨f, rest', -, -, hindex, hleft, -⟩ := h
    have hpos : 0 < l.left := by omega
    obtain ⟨n, hn⟩ := answers_some hclosed hpos
    exact ⟨.read (.cnt n), rfl, rfl, by simp [Server.step, hc, hn]⟩
  | echo l =>
    simp only [Expects, hc] at h
    have hleft : (Answer.cnt 1).size ≤ l.left := h.1
    exact ⟨.write (.cnt 1), rfl, rfl, by simp [Server.step, hc, hleft, Count.pass]⟩
  | redirect => exact ⟨.dup2 true, rfl, rfl, by simp [Server.step, hc]⟩
  | system => exact ⟨.system [], rfl, rfl, by simp [Server.step, hc]⟩
  | restore => exact ⟨.dup2 true, rfl, rfl, by simp [Server.step, hc]⟩
  | returned => exact absurd hc hctrl
  | exited msg => simp [Expects, hc] at h
  | undefined => simp [Expects, hc] at h

/-! ## A session -/

/-- What every run in which no call fails keeps, and what it costs. -/
theorem run_expects {bs : List ServerAct} (h : Expects s s.input rest) (hclosed : s.closed = true)
    (hok : ∀ b ∈ bs, b.ok = true) {t : Server} (hrun : Steps.run Server.step s bs = some t) :
    t.closed = true ∧ (∃ rest', Expects t t.input rest' ∧ t.calls ++ calls rest' = s.calls ++ calls rest) ∧
      t.todo + (bs.map ServerAct.cost).sum ≤ s.todo := by
  induction bs generalizing s rest with
  | nil =>
    cases hrun
    exact ⟨hclosed, ⟨rest, h, rfl⟩, by simp⟩
  | cons b bs ih =>
    obtain ⟨s', hs, hrun'⟩ := Steps.run_cons.1 hrun
    have h' : Expects s (s.input ++ []) rest := by rwa [List.append_nil]
    obtain ⟨rest', -, hexp, hcalls⟩ := h'.step (fun _ => rfl) (hok b List.mem_cons_self) hs
    rw [List.append_nil] at hexp
    have hclosed' := (closed_step hs).trans hclosed
    obtain ⟨ht, ⟨rest'', hexp', hcalls'⟩, hcost⟩ :=
      ih hexp hclosed' (fun c hc => hok c (List.mem_cons_of_mem _ hc)) hrun'
    have hstep := todo_step hs
    refine ⟨ht, ⟨rest'', hexp', hcalls'.trans hcalls⟩, ?_⟩
    simp only [List.map_cons, List.sum_cons]
    omega

theorem sum_cost (bs : List ServerAct) : (bs.map ServerAct.cost).sum = (bs.filter fun b => !b.interrupted).length := by
  induction bs with
  | nil => rfl
  | cons b bs ih => cases hb : b.interrupted <;> simp [ServerAct.cost, hb, ih, Nat.add_comm]

/-- **The server does what it is asked**: however the writes of the client and the reads of the server are cut, it makes
the calls of the requests, in order, and no others. It goes on as long as it has not returned, and it returns: all but
`2 * stream.length + 2` of its steps are interruptions. -/
theorem calls_of_stream {as : List Answer} {stream : List UInt8} (hsent : sendAll fs as = some stream)
    (hpos : ∀ a ∈ as, a ≠ .cnt 0) {pto tmp : Nat → UInt8} {bs : List ServerAct} (hok : ∀ b ∈ bs, b.ok = true)
    {t : Server} (hrun : Steps.run Server.step (.start pto tmp stream true) bs = some t) :
    t.calls <+: calls fs ∧ (t.ctrl = .returned → t.calls = calls fs) ∧
      (t.ctrl ≠ .returned → ∃ b, b.ok = true ∧ b.interrupted = false ∧ (t.step b).isSome = true) ∧
      (bs.filter fun b => !b.interrupted).length ≤ 2 * stream.length + 2 := by
  obtain rfl := sendAll_eq hsent hpos
  have hstart : Expects (.start pto tmp (encode fs) true) (encode fs) fs := .start rfl rfl
  obtain ⟨hclosed, ⟨rest, hexp, hcalls⟩, hcost⟩ := run_expects hstart rfl hok hrun
  have hcalls' : t.calls ++ calls rest = calls fs := hcalls
  refine ⟨hcalls' ▸ List.prefix_append _ _, fun hret => ?_, fun hne => hexp.goesOn hclosed hne, ?_⟩
  · simp only [Expects, hret] at hexp
    simpa [hexp.2, calls] using hcalls'
  · rw [sum_cost] at hcost
    have htodo : (Server.start pto tmp (encode fs) true).todo = 2 * (encode fs).length + 2 := rfl
    omega

/-- An echo of two bytes, an empty request, and a command. -/
def someFrames : List Frame :=
  let pad : Padding := { bytes := [7, 7, 7], len := rfl }
  [{ msg := { kind := .echo, payload := [104, 105], nulFree := by decide, short := by decide }, pad := pad },
   { msg := { kind := .call, payload := [], nulFree := by decide, short := by decide }, pad := pad },
   { msg := { kind := .call, payload := [108, 115], nulFree := by decide, short := by decide }, pad := pad }]

def someWrites : List Answer :=
  [.cnt 3, .failed .eintr, .cnt 5, .cnt 1, .cnt 1, .cnt 8, .failed .eagain, .cnt 8, .cnt 2]

def someReads : List ServerAct :=
  [.read (.cnt 5), .read (.failed .eagain), .read (.cnt 3), .malloc (some fun _ => 0), .read (.cnt 2),
   .write (.cnt 1), .write (.failed .eintr), .write (.cnt 1), .read (.cnt 8), .read (.cnt 1), .read (.cnt 7),
   .malloc (some fun _ => 9), .read (.cnt 1), .read (.cnt 1), .dup2 true, .system [10], .dup2 true, .read (.cnt 0)]

theorem someReads_runs : ∃ stream t, sendAll someFrames someWrites = some stream ∧
    Steps.run Server.step (.start (fun _ => 1) (fun _ => 2) stream true) someReads = some t ∧ t.ctrl = .returned :=
  ⟨_, _, rfl, rfl, rfl⟩

theorem calls_of_stream_someReads : ∃ stream t, sendAll someFrames someWrites = some stream ∧
    Steps.run Server.step (.start (fun _ => 1) (fun _ => 2) stream true) someReads = some t ∧
      t.calls = [.writeCount [104, 105], .system [108, 115]] := by
  obtain ⟨stream, t, hsent, hrun, hret⟩ := someReads_runs
  exact ⟨stream, t, hsent, hrun, (calls_of_stream hsent (by decide) (by decide) hrun).2.1 hret⟩

end SystemFunc.Framed
