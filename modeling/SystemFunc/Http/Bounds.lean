import SystemFunc.Http.Confine

/-!
# The bounds of `parse_request`

`tmp` is read as a string, and nothing puts a `NUL` behind what has arrived; and `sscanf` stores words of any length in
fields of `64`, `256` and `64` cells. So the bounds are kept exactly for what the peer has made a string of three short
words itself (`inBounds_iff`), which no ordinary request is.
-/

namespace SystemFunc.Http

/-- The part of `parse_request` that reads `tmp` and stores the words. -/
def scanned (tmp : List UInt8) : Except Stop (HttpRequestT × Int) := do
  let s ← readStr tmp
  sscanf .zero s

/-- The words fit into the fields, with a `NUL` each. -/
structure WordsFit (s : List UInt8) : Prop where
  method : (word s).length < 64
  path : (word (afterWord s)).length < 256
  pro : (word (afterWord (afterWord s))).length < 64

/-- Of `tmp` only the received bytes are read, what is parsed does not depend on what was in it before, and the words
are stored in their fields. -/
structure InBounds (buf : List UInt8) : Prop where
  reads : readStr buf ≠ .error .undefined
  result : ∀ stale stale', parseRequest .zero (fill stale buf) = parseRequest .zero (fill stale' buf)
  stores : ∀ stale, scanned (fill stale buf) ≠ .error .undefined

variable {s buf : List UInt8}

/-! ## The words -/

theorem afterWord_of_word_nil (h : word s = []) : afterWord s = [] := by
  induction s with
  | nil => rfl
  | cons b s ih =>
    by_cases hb : isspace b = true
    · rw [word_space hb] at h
      rw [afterWord_space hb, ih h]
    · simp [word, hb] at h

/-- `%s` stores nothing, stores a word that fits, or stores behind the field. -/
inductive Scans (field s : List UInt8) : Except Stop (Option (List UInt8 × List UInt8)) → Prop
  | none (hword : word s = []) : Scans field s (.ok none)
  | word {field' : List UInt8} (hlen : (word s).length < field.length) :
      Scans field s (.ok (some (field', afterWord s)))
  | behind (hlen : field.length ≤ (Http.word s).length) : Scans field s (.error .undefined)

theorem scanWord_scans (field s : List UInt8) : Scans field s (scanWord field s) := by
  unfold scanWord
  split_ifs with hnil hlen
  · exact .none hnil
  · exact .word hlen
  · exact .behind (Nat.le_of_not_lt hlen)

theorem wordsFit_of_nil (h : word s = []) : WordsFit s := by
  have hafter := afterWord_of_word_nil h
  have hafter' : afterWord ([] : List UInt8) = [] := rfl
  have hword' : word ([] : List UInt8) = [] := rfl
  refine ⟨?_, ?_, ?_⟩
  · rw [h]
    decide
  · rw [hafter, hword']
    decide
  · rw [hafter, hafter', hword']
    decide

/-- **The words are stored in their fields** exactly when they fit. -/
theorem sscanf_defined_iff : sscanf .zero s ≠ .error .undefined ↔ WordsFit s := by
  obtain ⟨hmethod, hpath, hpro⟩ := zero_length
  have hscan := scanWord_scans HttpRequestT.zero.method s
  unfold sscanf
  generalize scanWord HttpRequestT.zero.method s = r at hscan
  cases hscan with
  | none hword => exact iff_of_true nofun (wordsFit_of_nil hword)
  | behind hlen => exact iff_of_false (fun h => h rfl) fun h => Nat.not_le_of_lt (hmethod ▸ h.method) hlen
  | @word method hlen =>
    have hscan := scanWord_scans HttpRequestT.zero.path (afterWord s)
    simp only [ok_bind]
    generalize scanWord HttpRequestT.zero.path (afterWord s) = r at hscan
    cases hscan with
    | none hword =>
      have hrest := afterWord_of_word_nil hword
      exact iff_of_true nofun ⟨hmethod ▸ hlen, by rw [hword]; decide, by rw [hrest]; decide⟩
    | behind hlen' => exact iff_of_false (fun h => h rfl) fun h => Nat.not_le_of_lt (hpath ▸ h.path) hlen'
    | @word path hlen' =>
      have hscan := scanWord_scans HttpRequestT.zero.pro (afterWord (afterWord s))
      simp only [ok_bind]
      generalize scanWord HttpRequestT.zero.pro (afterWord (afterWord s)) = r at hscan
      cases hscan with
      | none hword => exact iff_of_true nofun ⟨hmethod ▸ hlen, hpath ▸ hlen', by rw [hword]; decide⟩
      | behind hlen'' => exact iff_of_false (fun h => h rfl) fun h => Nat.not_le_of_lt (hpro ▸ h.pro) hlen''
      | word hlen'' => exact iff_of_true nofun ⟨hmethod ▸ hlen, hpath ▸ hlen', hpro ▸ hlen''⟩

/-! ## What has arrived -/

theorem fill_eq (hlen : buf.length ≤ TMP_SIZE) (stale : Block UInt8 TMP_SIZE) :
    fill stale buf = buf ++ stale.cells.drop buf.length := by
  rw [fill, List.take_of_length_le hlen]

/-- With a `NUL` in what has arrived, that is all that is read. -/
theorem readStr_fill (hlen : buf.length ≤ TMP_SIZE) (hnul : 0 ∈ buf) (stale : Block UInt8 TMP_SIZE) :
    readStr (fill stale buf) = .ok (strOf buf) := by
  obtain ⟨t, rest, rfl, ht⟩ := List.eq_append_cons_of_mem hnul
  rw [fill_eq hlen, strOf_append_nul ht, List.append_assoc]
  exact readStr_append_nul ht

theorem readStr_defined_iff : readStr buf ≠ .error .undefined ↔ 0 ∈ buf := by
  unfold readStr
  split <;> simp_all

/-- **Parsing stays in bounds** exactly when a `NUL` has arrived, and three words that fit before it. -/
theorem inBounds_iff (hlen : buf.length ≤ TMP_SIZE) : InBounds buf ↔ 0 ∈ buf ∧ WordsFit (strOf buf) := by
  constructor
  · rintro ⟨hreads, -, hstores⟩
    have hnul := readStr_defined_iff.1 hreads
    have hscan := hstores zeros
    rw [scanned, readStr_fill hlen hnul, ok_bind] at hscan
    exact ⟨hnul, sscanf_defined_iff.1 hscan⟩
  · rintro ⟨hnul, hfit⟩
    refine ⟨readStr_defined_iff.2 hnul, fun stale stale' => ?_, fun stale => ?_⟩
    · rw [parseRequest, parseRequest, readStr_fill hlen hnul, readStr_fill hlen hnul]
    · rw [scanned, readStr_fill hlen hnul, ok_bind]
      exact sscanf_defined_iff.2 hfit

theorem inBounds_iff_string :
    InBounds (lit "GET / HTTP/1.1" ++ [0]) ↔
      0 ∈ lit "GET / HTTP/1.1" ++ [0] ∧ WordsFit (strOf (lit "GET / HTTP/1.1" ++ [0])) :=
  inBounds_iff (by decide)

/-- In `tmp` are the bytes `49` before the call. -/
def digits : Block UInt8 TMP_SIZE := { cells := List.replicate TMP_SIZE 49, len := List.length_replicate }

/-- An ordinary request has no `NUL`, so `tmp` is read behind it; and a method of `64` letters does not fit. -/
theorem request_unterminated :
    readStr (lit "GET / HTTP/1.1\r\n\r\n") = .error .undefined ∧
      parsed (lit "GET / HTTP/1.1\r\n\r\n") = .ok (1, lit "./") ∧
      parseRequest .zero (fill digits (lit "GET / HTTP/1.1\r\n\r\n")) = .error .undefined ∧
      ¬InBounds (lit "GET / HTTP/1.1\r\n\r\n") ∧
      sscanf .zero (List.replicate 64 65) = .error .undefined := by
  have hread : readStr (lit "GET / HTTP/1.1\r\n\r\n") = .error .undefined := by decide
  have hdigits : 0 ∉ fill digits (lit "GET / HTTP/1.1\r\n\r\n") := by
    rw [fill_eq (by decide), List.mem_append, not_or]
    refine ⟨by decide, fun hmem => ?_⟩
    exact absurd (List.eq_of_mem_replicate (List.mem_of_mem_drop hmem)) (by decide)
  refine ⟨hread, by decide +kernel, ?_, fun h => h.reads hread, by decide⟩
  rw [parseRequest, readStr, if_neg hdigits]
  rfl

end SystemFunc.Http
