import SystemFunc.Url.Decode

/-!
# Decoding what was encoded

`encode` is what `urlencode` computes, as long as it fits (`encodeLoop_eq`): the kept characters, and an escape for any
other byte. One pass of the decoder takes one of these (`decode_escape`), so it finds the string again.

- `url_round_trip`: the two functions on an array, the form of the encoded string, and that it determines the string.
-/

namespace SystemFunc.Url

/-- ASCII letters, digits, `/` and `.`. -/
def Plain (b : UInt8) : Prop :=
  b ∈ lit "0123456789" ∨ b ∈ lit "abcdefghijklmnopqrstuvwxyz" ∨ b ∈ lit "ABCDEFGHIJKLMNOPQRSTUVWXYZ" ∨ b ∈ lit "/."

/-- Plain bytes and escapes. -/
inductive Escaped : List UInt8 → Prop
  | nil : Escaped []
  | plain {b : UInt8} {s : List UInt8} (hb : Plain b) (hs : Escaped s) : Escaped (b :: s)
  | escape {x y : UInt8} {s : List UInt8} (hx : x ∈ lit "0123456789ABCDEF") (hy : y ∈ lit "0123456789ABCDEF")
      (hs : Escaped s) : Escaped (toChar (ch '%') :: x :: y :: s)

/-- What a byte is encoded as. -/
def escape (b : UInt8) : List UInt8 :=
  if kept (schar b) then [b] else [toChar (ch '%'), dec2hex (b.toNat / 16 : Nat), dec2hex (b.toNat % 16 : Nat)]

/-- What a string is encoded as. -/
def encode (s : List UInt8) : List UInt8 := s.flatMap escape

variable {b : UInt8} {s res cells : List UInt8}

/-! ## One byte -/

/-- The correction of the sign. -/
theorem signFix (b : UInt8) : (if schar b < 0 then schar b + 256 else schar b) = b.toNat := by
  have hb := b.toNat_lt
  unfold schar
  split_ifs <;> omega

/-- The two tables of digits agree. -/
theorem hex2dec_dec2hex : ∀ i : Nat, i < 16 → hex2dec (schar (dec2hex i)) = i := by decide

theorem dec2hex_digit : ∀ i : Nat, i < 16 → dec2hex i ∈ lit "0123456789ABCDEF" := by decide

theorem kept_plain (h : kept (schar b)) : Plain b := by
  have hall : ∀ n : Nat, n < 256 → kept (schar (UInt8.ofNat n)) → Plain (UInt8.ofNat n) := by
    unfold Plain
    decide +kernel
  have hb := hall b.toNat b.toNat_lt
  simp only [UInt8.ofNat_toNat] at hb
  exact hb h

theorem kept_ne_percent {c : Int} (h : kept c) : c ≠ ch '%' := by
  have hpercent : ¬kept (ch '%') := by decide
  exact fun he => hpercent (he ▸ h)

theorem escape_some (b : UInt8) : 0 < (escape b).length := by
  unfold escape
  split_ifs <;> simp

theorem escape_nulFree (hb : b ≠ 0) : 0 ∉ escape b := by
  have hdigit : ∀ i : Nat, i < 16 → dec2hex i ≠ 0 := by decide
  have hhi := hdigit (b.toNat / 16) (by have := b.toNat_lt; omega)
  have hlo := hdigit (b.toNat % 16) (by omega)
  unfold escape
  split_ifs
  · simpa using hb.symm
  · have hpercent : toChar (ch '%') ≠ 0 := by decide
    simp only [List.mem_cons, not_or]
    exact ⟨hpercent.symm, hhi.symm, hlo.symm, List.not_mem_nil⟩

/-- The pass of the decoder over what a byte is encoded as. -/
theorem decode_escape (b : UInt8) (n : Nat) :
    decodeLoop (escape b ++ cells) ((escape b).length + n) res = put BURSIZE res b >>= decodeLoop cells n := by
  by_cases hkept : kept (schar b)
  · simp only [escape, if_pos hkept, List.cons_append, List.nil_append, List.length_cons, List.length_nil]
    rw [Nat.add_comm]
    exact decodeLoop_plain (kept_ne_percent hkept)
  · have hhi := hex2dec_dec2hex (b.toNat / 16) (by have := b.toNat_lt; omega)
    have hlo := hex2dec_dec2hex (b.toNat % 16) (by omega)
    have hnum : ((b.toNat / 16 : Nat) : Int) * 16 + (b.toNat % 16 : Nat) = b.toNat := by omega
    have hlen : (0 + 1 + 1 + 1 + n) = (n + 2) + 1 := by omega
    simp only [escape, if_neg hkept, List.cons_append, List.nil_append, List.length_cons, List.length_nil, hlen]
    rw [decodeLoop_escape (by decide), hhi, hlo, hnum, toChar_toNat, Nat.add_sub_cancel]

/-! ## The loops -/

theorem decodeLoop_encode (s : List UInt8) (hlen : (res ++ s).length ≤ BURSIZE) :
    decodeLoop (encode s ++ cells) (encode s).length res = .ok (res ++ s) := by
  induction s generalizing res with
  | nil => simp [encode, decodeLoop]
  | cons b s ih =>
    have hput : put BURSIZE res b = .ok (res ++ [b]) := by
      rw [List.length_append, List.length_cons] at hlen
      exact put_ok.2 ⟨by omega, rfl⟩
    have hrest := @ih (res ++ [b]) (by simpa using hlen)
    simp only [encode, List.flatMap_cons, List.length_append, List.append_assoc] at hrest ⊢
    rw [decode_escape, hput, ok_bind, hrest, List.singleton_append]

/-- The pass of the encoder over a byte. -/
theorem encodeLoop_cons (b : UInt8) (s res : List UInt8) :
    encodeLoop (b :: s) res =
      if (res ++ escape b).length ≤ BURSIZE then encodeLoop s (res ++ escape b) else .error .undefined := by
  by_cases hkept : kept (schar b)
  · simp only [encodeLoop, if_pos hkept, escape, put_bind, List.length_append, List.length_cons, List.length_nil]
    rfl
  · have hhi : (b.toNat : Int) / 16 = (b.toNat / 16 : Nat) := by omega
    have hlo : (b.toNat : Int) - (b.toNat / 16 : Nat) * 16 = (b.toNat % 16 : Nat) := by omega
    simp only [encodeLoop, if_neg hkept, signFix, hhi, hlo, escape, put_bind, List.append_assoc, List.cons_append,
      List.nil_append, List.length_append, List.length_cons, List.length_nil]
    split_ifs <;> first | rfl | omega

/-- **The encoder**, as long as the result fits. -/
theorem encodeLoop_eq (s res : List UInt8) (hres : res.length ≤ BURSIZE) :
    encodeLoop s res = if (res ++ encode s).length ≤ BURSIZE then .ok (res ++ encode s) else .error .undefined := by
  induction s generalizing res with
  | nil => simp [encodeLoop, encode, hres]
  | cons b s ih =>
    rw [encodeLoop_cons]
    by_cases hfits : (res ++ escape b).length ≤ BURSIZE
    · rw [if_pos hfits, ih _ hfits]
      simp [encode]
    · have hmore : ¬(res ++ encode (b :: s)).length ≤ BURSIZE := by
        simp only [encode, List.flatMap_cons, List.length_append] at hfits ⊢
        omega
      rw [if_neg hfits, if_neg hmore]

/-! ## The encoded string -/

theorem encode_nulFree (hnul : 0 ∉ s) : 0 ∉ encode s := by
  intro h
  obtain ⟨b, hb, h0⟩ := List.mem_flatMap.1 h
  exact escape_nulFree (fun he => hnul (he ▸ hb)) h0

theorem encode_escaped (s : List UInt8) : Escaped (encode s) := by
  induction s with
  | nil => exact .nil
  | cons b s ih =>
    rw [encode, List.flatMap_cons, escape]
    split_ifs with hkept
    · exact .plain (kept_plain hkept) ih
    · exact .escape (dec2hex_digit _ (by have := b.toNat_lt; omega)) (dec2hex_digit _ (by omega)) ih

theorem length_le_encode (s : List UInt8) : s.length ≤ (encode s).length := by
  induction s with
  | nil => exact Nat.zero_le _
  | cons b s ih =>
    have hsome := escape_some b
    rw [encode, List.flatMap_cons, List.length_append, List.length_cons]
    rw [encode] at ih
    omega

/-- The encoded string determines the string, by what the decoder finds in it. -/
theorem encode_injective {t : List UInt8} (hs : (encode s).length ≤ BURSIZE) (h : encode s = encode t) : s = t := by
  have hslen : ([] ++ s).length ≤ BURSIZE := (length_le_encode s).trans hs
  have htlen : ([] ++ t).length ≤ BURSIZE := (length_le_encode t).trans (h ▸ hs)
  have hdecode := @decodeLoop_encode [] [] s hslen
  rw [h, @decodeLoop_encode [] [] t htlen] at hdecode
  exact (Except.ok.inj hdecode).symm

/-! ## Arrays -/

/-- `urlencode` on an array that holds `s`. -/
theorem urlencode_eq {rest : List UInt8} (hnul : 0 ∉ s) :
    urlencode (s ++ 0 :: rest) =
      if (encode s).length < BURSIZE ∧ (encode s).length ≤ s.length + rest.length then
        .ok (encode s ++ 0 :: (s ++ 0 :: rest).drop ((encode s).length + 1))
      else .error .undefined := by
  have hloop := encodeLoop_eq s [] (Nat.zero_le _)
  have hfits : (encode s).length < (s ++ 0 :: rest).length ↔ (encode s).length ≤ s.length + rest.length := by
    rw [List.length_append, List.length_cons]
    omega
  rw [urlencode, readStr_append_nul hnul, ok_bind, hloop, List.nil_append]
  by_cases hlen : (encode s).length < BURSIZE
  · rw [if_pos (Nat.le_of_lt hlen), ok_bind, put_bind, if_pos hlen, strcpy_eq (encode_nulFree hnul)]
    simp only [hfits, hlen, true_and]
  · have hno : ¬((encode s).length < BURSIZE ∧ (encode s).length ≤ s.length + rest.length) := fun h => hlen h.1
    rw [if_neg hno]
    split
    · rw [ok_bind, put_bind, if_neg hlen]
    · rw [error_bind]

/-- `urldecode` on an array that holds an encoded string. -/
theorem urldecode_encode {rest : List UInt8} (hnul : 0 ∉ s) (hlen : (encode s).length < BURSIZE) :
    ∃ rest', urldecode (encode s ++ 0 :: rest) = .ok (s ++ 0 :: rest') := by
  have hle := length_le_encode s
  have hloop := @decodeLoop_encode [] (0 :: rest) s (by rw [List.nil_append]; omega)
  have hput : s.length < BURSIZE := by omega
  have hfits : s.length < (encode s ++ 0 :: rest).length := by rw [List.length_append, List.length_cons]; omega
  refine ⟨(encode s ++ 0 :: rest).drop (s.length + 1), ?_⟩
  rw [urldecode, readStr_append_nul (encode_nulFree hnul), ok_bind, hloop, List.nil_append, ok_bind, put_bind,
    if_pos hput, strcpy_eq hnul, if_pos hfits]

/-- **The round trip**: on an array with room for it, `urlencode` leaves the encoded string, which consists of plain
bytes and escapes, `urldecode` finds the string again, and no other string is encoded the same way. -/
theorem url_round_trip {rest : List UInt8} (hnul : 0 ∉ s) (hlen : (encode s).length ≤ 1023)
    (hroom : (encode s).length ≤ s.length + rest.length) :
    ∃ url url', urlencode (s ++ 0 :: rest) = .ok url ∧ strOf url = encode s ∧ Escaped (strOf url) ∧
      urldecode url = .ok url' ∧ strOf url' = s ∧
        ∀ t rest₁ url₁, 0 ∉ t → urlencode (t ++ 0 :: rest₁) = .ok url₁ → strOf url₁ = strOf url → t = s := by
  have hlt : (encode s).length < BURSIZE := Nat.lt_succ_of_le hlen
  have hencode := @urlencode_eq s rest hnul
  rw [if_pos ⟨hlt, hroom⟩] at hencode
  have hstr : strOf (encode s ++ 0 :: (s ++ 0 :: rest).drop ((encode s).length + 1)) = encode s :=
    strOf_append_nul (encode_nulFree hnul)
  obtain ⟨rest', hdecode⟩ := @urldecode_encode s ((s ++ 0 :: rest).drop ((encode s).length + 1)) hnul hlt
  refine ⟨_, _, hencode, hstr, hstr.symm ▸ encode_escaped s, hdecode, strOf_append_nul hnul, ?_⟩
  intro t rest₁ url₁ htnul ht hsame
  rw [urlencode_eq htnul] at ht
  split_ifs at ht with htlen
  cases ht
  rw [strOf_append_nul (encode_nulFree htnul), hstr] at hsame
  exact encode_injective (Nat.le_of_lt htlen.1) hsame

/-- The string of the source's `main`. -/
theorem url_round_trip_main : ∃ url url',
    urlencode (lit "http://'www.baidu.com/a b" ++ 0 :: List.replicate 40 0) = .ok url ∧
      strOf url = lit "http%3A//%27www.baidu.com/a%20b" ∧ urldecode url = .ok url' ∧
        strOf url' = lit "http://'www.baidu.com/a b" := by
  obtain ⟨url, url', hencode, hstr, -, hdecode, hstr', -⟩ :=
    @url_round_trip (lit "http://'www.baidu.com/a b") (List.replicate 40 0) (by decide) (by decide) (by decide)
  exact ⟨url, url', hencode, hstr.trans (by decide), hdecode, hstr'⟩

end SystemFunc.Url
