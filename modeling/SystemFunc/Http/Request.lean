import SystemFunc.Url.Decode

/-!
# Requests to `libevent/myhttpd.c`

`parse_request` copies what has arrived into `tmp`, an array on the stack that is not cleared, reads three words of it
with `sscanf`, and decodes the second one in place. The texts it prints are left out, but printing `tmp` reads it to its
first `NUL`.
-/

namespace SystemFunc.Http

/-- `struct http_request_t`; the fields of type `char[]` are lists of their cells. -/
structure HttpRequestT where
  status : Nat
  method : List UInt8
  path : List UInt8
  pro : List UInt8
  deriving DecidableEq

/-- After `bzero`. -/
def HttpRequestT.zero : HttpRequestT where
  status := 0
  method := List.replicate 64 0
  path := List.replicate 256 0
  pro := List.replicate 64 0

/-- White space, in the C locale. -/
def isspace (b : UInt8) : Bool := b = 32 || (9 ≤ b.toNat && b.toNat ≤ 13)

/-- The next word of the input, behind white space. -/
def word (s : List UInt8) : List UInt8 := (s.dropWhile isspace).takeWhile (!isspace ·)

def afterWord (s : List UInt8) : List UInt8 := (s.dropWhile isspace).dropWhile (!isspace ·)

/-- `%s` of `sscanf`: the next word is stored in `field`, if there is one. The result is the field and the rest of the
input. -/
def scanWord (field s : List UInt8) : Except Stop (Option (List UInt8 × List UInt8)) :=
  if word s = [] then .ok none
  else if (word s).length < field.length then
    .ok (some (word s ++ 0 :: field.drop ((word s).length + 1), afterWord s))
  else .error .undefined

/-- `sscanf(tmp, "%s %s %s", req->method, req->path, req->pro)`: the fields and what it returns. -/
def sscanf (req : HttpRequestT) (s : List UInt8) : Except Stop (HttpRequestT × Int) := do
  match ← scanWord req.method s with
  | none => return (req, -1)
  | some (method, s) =>
    let req := { req with method := method }
    match ← scanWord req.path s with
    | none => return (req, 1)
    | some (path, s) =>
      let req := { req with path := path }
      match ← scanWord req.pro s with
      | none => return (req, 2)
      | some (pro, _) => return ({ req with pro := pro }, 3)

/-- `sizeof(tmp)`. -/
def TMP_SIZE : Nat := 10240

/-- `tmp` after `evbuffer_remove`; `stale` was in it before. -/
def fill (stale : Block UInt8 TMP_SIZE) (buf : List UInt8) : List UInt8 :=
  buf.take TMP_SIZE ++ stale.cells.drop buf.length

/-- The text of `useful_func/url_encode_decode.c` again. -/
def urldecode : List UInt8 → Except Stop (List UInt8) := Url.urldecode

/-- `parse_request`, from `tmp` on. -/
def parseRequest (req : HttpRequestT) (tmp : List UInt8) : Except Stop HttpRequestT := do
  let s ← readStr tmp
  let (req, ret) ← sscanf req s
  let path ← urldecode req.path
  return { req with path := path, status := if ret = 3 then 1 else 0 }

/-- `spath` in `main_handler`. -/
def spath (path : List UInt8) : List UInt8 :=
  if path.head? = some 47 then 46 :: path else path

/-- The second word of the input. -/
def pathWord (s : List UInt8) : List UInt8 := word (afterWord s)

/-! ## Words -/

variable {s w tmp : List UInt8}

theorem word_space {b : UInt8} (hb : isspace b = true) : word (b :: s) = word s := by
  simp [word, hb]

theorem afterWord_space {b : UInt8} (hb : isspace b = true) : afterWord (b :: s) = afterWord s := by
  simp [afterWord, hb]

/-- A text without white space. -/
def NoSpace (w : List UInt8) : Prop := ∀ b ∈ w, isspace b = false

instance (w : List UInt8) : Decidable (NoSpace w) := List.decidableBAll (fun b => isspace b = false) w

theorem takeWhile_append_stop {p : UInt8 → Bool} {b : UInt8} (hb : p b = false) :
    (w ++ b :: s).takeWhile p = w.takeWhile p := by
  induction w with
  | nil => simp [hb]
  | cons c w ih => rw [List.cons_append, List.takeWhile_cons, List.takeWhile_cons, ih]

/-- A word, and white space behind it. -/
theorem word_append {b : UInt8} (hw : NoSpace w) (hnil : w ≠ []) (hb : isspace b = true) :
    word (w ++ b :: s) = w ∧ afterWord (w ++ b :: s) = b :: s := by
  have hdrop : (w ++ b :: s).dropWhile isspace = w ++ b :: s := by
    cases w with
    | nil => exact absurd rfl hnil
    | cons c w => simp [hw c List.mem_cons_self]
  have hall : ∀ c ∈ w, (!isspace c) = true := fun c hc => by rw [hw c hc]; rfl
  rw [word, afterWord, hdrop, List.takeWhile_append_of_pos hall, List.dropWhile_append_of_pos hall]
  simp [hb]

/-- What follows does not matter for a word that there is. -/
theorem word_append_space {b : UInt8} (hs : ∃ c ∈ s, isspace c = false) (hb : isspace b = true) :
    word (s ++ b :: tmp) = word s := by
  induction s with
  | nil =>
    obtain ⟨c, hc, -⟩ := hs
    cases hc
  | cons c s ih =>
    by_cases hc : isspace c = true
    · obtain ⟨d, hd, hdspace⟩ := hs
      have hrest : ∃ d ∈ s, isspace d = false := by
        rcases List.mem_cons.1 hd with rfl | hd
        · rw [hc] at hdspace
          cases hdspace
        · exact ⟨d, hd, hdspace⟩
      rw [List.cons_append, word_space hc, word_space hc, ih hrest]
    · have hstop : (!isspace b) = false := by rw [hb]; rfl
      have hdrop : ∀ l, (c :: l).dropWhile isspace = c :: l := fun l => by simp [hc]
      rw [List.cons_append, word, word, hdrop, hdrop, ← List.cons_append, takeWhile_append_stop hstop]

theorem noSpace_word (s : List UInt8) : NoSpace (word s) := fun b hb => by
  simpa using List.mem_takeWhile_imp hb

theorem word_sublist (s : List UInt8) : (word s).Sublist s :=
  (List.takeWhile_sublist _).trans (List.dropWhile_sublist _)

/-! ## What is parsed -/

theorem word_subset (s : List UInt8) : word s ⊆ s :=
  List.Subset.trans (List.takeWhile_subset _) (List.dropWhile_subset _)

theorem afterWord_subset (s : List UInt8) : afterWord s ⊆ s :=
  List.Subset.trans (List.dropWhile_subset _) (List.dropWhile_subset _)

theorem pathWord_nulFree (h : 0 ∉ s) : 0 ∉ pathWord s :=
  fun h0 => h (afterWord_subset s (word_subset _ h0))

theorem scanWord_some {field field' rest : List UInt8} (h : scanWord field s = .ok (some (field', rest))) :
    word s ≠ [] ∧ (word s).length < field.length ∧ field' = word s ++ 0 :: field.drop ((word s).length + 1) ∧
      rest = afterWord s := by
  unfold scanWord at h
  split_ifs at h with hnil hlen
  · cases h
  · cases h
    exact ⟨hnil, hlen, rfl, rfl⟩

theorem zero_length : HttpRequestT.zero.method.length = 64 ∧ HttpRequestT.zero.path.length = 256 ∧
    HttpRequestT.zero.pro.length = 64 :=
  ⟨List.length_replicate, List.length_replicate, List.length_replicate⟩

/-- The field after a word has been stored in it. -/
theorem zero_path_store (w : List UInt8) :
    w ++ 0 :: HttpRequestT.zero.path.drop (w.length + 1) = w ++ List.replicate ((255 - w.length) + 1) 0 := by
  rw [HttpRequestT.zero, List.drop_replicate, List.replicate_succ, Nat.add_comm w.length, Nat.sub_add_eq]

/-- Three words have been stored. -/
theorem sscanf_three {req : HttpRequestT} (h : sscanf .zero s = .ok (req, 3)) :
    (pathWord s).length < 256 ∧ req.path = pathWord s ++ List.replicate ((255 - (pathWord s).length) + 1) 0 := by
  obtain ⟨r, hmethod, h⟩ := bind_eq_ok.1 h
  match r, hmethod, h with
  | none, _, h => cases h
  | some (method, s₁), hmethod, h =>
    obtain ⟨-, -, -, rfl⟩ := scanWord_some hmethod
    obtain ⟨r, hpath, h⟩ := bind_eq_ok.1 h
    match r, hpath, h with
    | none, _, h => cases h
    | some (path, s₂), hpath, h =>
      obtain ⟨-, hlen, rfl, -⟩ := scanWord_some hpath
      have hlen' : (pathWord s).length < 256 := zero_length.2.1 ▸ hlen
      obtain ⟨r, -, h⟩ := bind_eq_ok.1 h
      match r, h with
      | none, h => cases h
      | some (pro, s₃), h =>
        cases h
        exact ⟨hlen', zero_path_store _⟩

theorem scanWord_eq {field w rest : List UInt8} (hw : word s = w) (hrest : afterWord s = rest) (hnil : w ≠ [])
    (hlen : w.length < field.length) :
    scanWord field s = .ok (some (w ++ 0 :: field.drop (w.length + 1), rest)) := by
  subst hw hrest
  rw [scanWord, if_neg hnil, if_pos hlen]

/-- The path of a request that has been parsed. -/
theorem parse_path {req : HttpRequestT} (h : parseRequest .zero tmp = .ok req) (hstatus : req.status = 1) :
    strOf req.path = strOf (Url.decode (pathWord (strOf tmp))) := by
  obtain ⟨s, hs, h⟩ := bind_eq_ok.1 h
  obtain ⟨-, rfl⟩ := readStr_ok.1 hs
  obtain ⟨⟨req', ret⟩, hscan, h⟩ := bind_eq_ok.1 h
  obtain ⟨path, hdecode, h⟩ := bind_eq_ok.1 h
  cases h
  have hret : ret = 3 := by
    by_contra hne
    simp [hne] at hstatus
  subst hret
  obtain ⟨-, hpath⟩ := sscanf_three hscan
  rw [hpath] at hdecode
  exact Url.urldecode_zeros (pathWord_nulFree nul_notMem_strOf) hdecode

end SystemFunc.Http
