import SystemFunc.Http.Serve

/-!
# Requests in pieces

Every call of `read_cb` parses what has arrived since the last one from scratch, and queues a response to it. So a
request that arrives in several pieces gets several responses, and what is queued is what one call would queue only when
there is one piece (`segmentation_iff`). With no file at all, every response is one of two short ones
(`readCb_noFiles`), so that the number of calls shows in the length.
-/

namespace SystemFunc.Http

/-- The calls of `read_cb` for the pieces of a request; `stales i` is in `tmp` before call `i`. -/
def calls (stales : Nat → Block UInt8 TMP_SIZE) (pieces : List (List UInt8)) : List Call :=
  pieces.mapIdx fun i buf => { buf := buf, stale := stales i }

/-- Nothing is there. -/
def noFiles : FileSystem where
  access _ := false
  stat _ := none
  openReads _ := none
  scandir _ := none

/-! ## Code that ends only in undefined behaviour -/

/-- It goes on, or it is undefined. -/
def Returns {β : Type} (x : Except Stop β) : Prop := ∀ e, x = .error e → e = .undefined

section Returns

variable {β γ : Type} {x : Except Stop β} {f : β → Except Stop γ}

theorem returns_ok (b : β) : Returns (.ok b : Except Stop β) := fun e h => by cases h

theorem returns_undefined : Returns (.error .undefined : Except Stop β) := fun e h => by cases h; rfl

theorem Returns.bind (hx : Returns x) (hf : ∀ b, Returns (f b)) : Returns (x >>= f) := by
  cases x with
  | error e =>
    rw [hx e rfl, error_bind]
    exact returns_undefined
  | ok b => exact hf b

theorem Returns.ite {p : Prop} [Decidable p] {y : Except Stop β} (hx : Returns x) (hy : Returns y) :
    Returns (if p then x else y) := by
  split
  · exact hx
  · exact hy

end Returns

theorem returns_readStr (cells : List UInt8) : Returns (readStr cells) := (returns_ok _).ite returns_undefined

theorem returns_put (size : Nat) (res : List UInt8) (b : UInt8) : Returns (put size res b) :=
  (returns_ok _).ite returns_undefined

theorem returns_strcpy (dst src : List UInt8) : Returns (strcpy dst src) :=
  (returns_readStr src).bind fun _ => (returns_ok _).ite returns_undefined

theorem returns_scanWord (field s : List UInt8) : Returns (scanWord field s) :=
  (returns_ok _).ite ((returns_ok _).ite returns_undefined)

theorem returns_decodeLoop (cells : List UInt8) (n : Nat) (res : List UInt8) :
    Returns (Url.decodeLoop cells n res) := by
  fun_induction Url.decodeLoop cells n res with
  | case1 => exact returns_ok _
  | case2 => exact returns_undefined
  | case3 n res b cells hb ih => exact (returns_put _ _ _).bind ih
  | case4 n res b hb c1 c0 cells num ih => exact (returns_put _ _ _).bind ih
  | case5 => exact returns_undefined

theorem returns_urldecode (url : List UInt8) : Returns (urldecode url) :=
  (returns_readStr url).bind fun _ => (returns_decodeLoop _ _ _).bind fun _ =>
    (returns_put _ _ _).bind fun _ => returns_strcpy _ _

theorem returns_sscanf (req : HttpRequestT) (s : List UInt8) : Returns (sscanf req s) := by
  apply (returns_scanWord _ _).bind
  intro r
  match r with
  | none => exact returns_ok _
  | some (_, s) =>
    apply (returns_scanWord _ _).bind
    intro r
    match r with
    | none => exact returns_ok _
    | some (_, s) =>
      apply (returns_scanWord _ _).bind
      intro r
      match r with
      | none => exact returns_ok _
      | some (_, _) => exact returns_ok _

theorem returns_parseRequest (req : HttpRequestT) (tmp : List UInt8) : Returns (parseRequest req tmp) :=
  (returns_readStr _).bind fun _ => (returns_sscanf _ _).bind fun _ => (returns_urldecode _).bind fun _ => returns_ok _

/-! ## No file at all -/

theorem handler404_length : ∃ r, handler404 = .ok r ∧ r.length = 97 := ⟨_, rfl, by decide⟩

theorem handlerInvalidRequest_length : ∃ r, handlerInvalidRequest = .ok r ∧ r.length = 91 := ⟨_, rfl, by decide⟩

/-- The response to a request that is parsed. -/
theorem mainHandler_noFiles (req : HttpRequestT) :
    ∃ r, mainHandler noFiles req = .ok r ∧ 91 ≤ r.length ∧ r.length ≤ 97 := by
  unfold mainHandler
  split
  · obtain ⟨r, hr, hlen⟩ := handlerInvalidRequest_length
    exact ⟨r, hr, by omega, by omega⟩
  · obtain ⟨r, hr, hlen⟩ := handler404_length
    exact ⟨r, hr, by omega, by omega⟩

/-- A call comes to the same for every file system, or its response shows only that no file is there. -/
theorem readCb_noFiles (call : Call) :
    (∃ e, ∀ fs, readCb fs call = .error e) ∧ readCb noFiles call = .error .undefined ∨
      ∃ r, readCb noFiles call = .ok r ∧ 91 ≤ r.length ∧ r.length ≤ 97 := by
  unfold readCb
  cases hparse : parseRequest .zero (fill call.stale call.buf) with
  | error e =>
    obtain rfl := returns_parseRequest _ _ e hparse
    exact .inl ⟨⟨.undefined, fun _ => rfl⟩, rfl⟩
  | ok req => exact .inr (mainHandler_noFiles req)

theorem queued_noFiles {cs : List Call} {r : List UInt8} (h : queued noFiles cs = .ok r) :
    91 * cs.length ≤ r.length := by
  induction cs generalizing r with
  | nil => exact Nat.zero_le _
  | cons call cs ih =>
    obtain ⟨response, hresponse, h⟩ := bind_eq_ok.1 h
    obtain ⟨responses, hresponses, h⟩ := bind_eq_ok.1 h
    cases h
    have hrest := ih hresponses
    rcases readCb_noFiles call with ⟨-, hundefined⟩ | ⟨response', hresponse', hlen, -⟩
    · rw [hundefined] at hresponse
      cases hresponse
    · cases hresponse.symm.trans hresponse'
      simp only [List.length_append, List.length_cons]
      omega

/-! ## One piece, or several -/

/-- **The response depends on how the request is delivered**: what its pieces get is what it gets in one call, for every
file system and whatever is in `tmp` before, exactly when there is one piece; or it has no defined response anyway. -/
theorem segmentation_iff (pieces : List (List UInt8)) :
    (∀ fs stales, readCb fs { buf := pieces.flatten, stale := stales 0 } ≠ .error .undefined →
        queued fs (calls stales pieces) = readCb fs { buf := pieces.flatten, stale := stales 0 }) ↔
      pieces.length = 1 ∨ ∀ fs stale, readCb fs { buf := pieces.flatten, stale := stale } = .error .undefined := by
  constructor
  · intro h
    by_contra hno
    simp only [not_or, not_forall] at hno
    obtain ⟨hpieces, fs, stale, hdefined⟩ := hno
    -- the same request where no file is there, and the same bytes in `tmp` before every call
    rcases readCb_noFiles { buf := pieces.flatten, stale := stale } with ⟨⟨e, hall⟩, hundefined⟩ | ⟨r, hr, hlow, hhigh⟩
    · rw [hall noFiles] at hundefined
      rw [hall fs] at hdefined
      exact hdefined hundefined
    · have hsame := h noFiles (fun _ => stale) (by rw [hr]; simp)
      rw [hr] at hsame
      have hlen := queued_noFiles hsame
      rw [calls, List.length_mapIdx] at hlen
      match pieces, hpieces with
      | [], _ =>
        cases hsame
        simp at hlow
      | _ :: _ :: _, _ =>
        simp only [List.length_cons] at hlen
        omega
  · rintro (hone | hundefined) fs stales hdefined
    · obtain ⟨piece, rfl⟩ := List.length_eq_one_iff.1 hone
      simp only [calls, List.mapIdx_cons, List.mapIdx_nil, queued, List.flatten_cons, List.flatten_nil,
        List.append_nil]
      cases readCb fs { buf := piece, stale := stales 0 } <;> simp [pure, Except.pure]
    · exact absurd (hundefined fs (stales 0)) hdefined

/-- `tmp` is zero before the call. -/
def zeros : Block UInt8 TMP_SIZE := { cells := List.replicate TMP_SIZE 0, len := List.length_replicate }

/-- A request for a file that is not there, in two pieces: two responses, and neither is the one to the request. -/
theorem two_responses :
    readCb noFiles { buf := lit "GET /x HTTP/1.1\r\n\r\n", stale := zeros } = handler404 ∧
      queued noFiles (calls (fun _ => zeros) [lit "GET /x", lit " HTTP/1.1\r\n\r\n"]) =
        (do return (← handlerInvalidRequest) ++ (← handlerInvalidRequest)) ∧
      queued noFiles (calls (fun _ => zeros) [lit "GET /x", lit " HTTP/1.1\r\n\r\n"]) ≠
        readCb noFiles { buf := lit "GET /x HTTP/1.1\r\n\r\n", stale := zeros } := by
  refine ⟨?_, ?_, ?_⟩ <;> decide +kernel

end SystemFunc.Http
