import SystemFunc.Url.Terminator

/-!
# Decoding well-formed strings

`reference` replaces each escape by its byte and keeps every other byte. On a well-formed string the loop of `urldecode`
computes it (`Parsed.decode_eq`); but it is handed back as a string, which ends at the first decoded `NUL`. The only
escape of a `NUL` is `%00`.
-/

namespace SystemFunc.Url

/-- The value of a hex digit, of either case. -/
def hexVal (b : UInt8) : Option Nat :=
  if 48 ≤ b.toNat ∧ b.toNat ≤ 57 then some (b.toNat - 48)
  else if 65 ≤ b.toNat ∧ b.toNat ≤ 70 then some (b.toNat - 55)
  else if 97 ≤ b.toNat ∧ b.toNat ≤ 102 then some (b.toNat - 87)
  else none

/-- Each `%` is followed by two hex digits. -/
def WellFormed (s : List UInt8) : Prop :=
  ∀ before behind, s = before ++ 37 :: behind → ∃ x y rest, behind = x :: y :: rest ∧
    (hexVal x).isSome ∧ (hexVal y).isSome

/-- Each escape replaced by its byte. -/
def reference : List UInt8 → List UInt8
  | [] => []
  | b :: s =>
    if b ≠ 37 then b :: reference s
    else
      match s with
      | x :: y :: s => UInt8.ofNat ((hexVal x).getD 0 * 16 + (hexVal y).getD 0) :: reference s
      | _ => b :: s

variable {b x y : UInt8} {s rest : List UInt8}

/-! ## Digits -/

theorem hex2dec_hexVal {n : Nat} (h : hexVal b = some n) : hex2dec (schar b) = n ∧ n < 16 ∧ (n = 0 → b = 48) := by
  have hall : ∀ k : Nat, k < 256 → ∀ n ∈ hexVal (UInt8.ofNat k),
      hex2dec (schar (UInt8.ofNat k)) = n ∧ n < 16 ∧ (n = 0 → UInt8.ofNat k = 48) := by decide +kernel
  have hb := hall b.toNat b.toNat_lt n
  simp only [UInt8.ofNat_toNat] at hb
  exact hb h

/-- A digit is no `%`. -/
theorem ne_percent_of_hexVal (h : (hexVal b).isSome) : b ≠ 37 := by
  rintro rfl
  exact absurd h (by decide)

theorem toChar_natCast {n : Nat} (h : n < 256) : toChar n = UInt8.ofNat n := by
  have hmod : ((n : Int) % 256).toNat = n := by omega
  rw [toChar, hmod]

/-! ## Well-formed strings -/

theorem WellFormed.tail (h : WellFormed (b :: s)) : WellFormed s := by
  intro before behind hs
  exact h (b :: before) behind (by rw [hs, List.cons_append])

theorem WellFormed.escape (h : WellFormed (37 :: s)) :
    ∃ x y rest, s = x :: y :: rest ∧ (hexVal x).isSome ∧ (hexVal y).isSome :=
  h [] s rfl

/-- The byte of an escape. -/
theorem toChar_escape {m n : Nat} (hx : hexVal x = some m) (hy : hexVal y = some n) :
    toChar (hex2dec (schar x) * 16 + hex2dec (schar y)) = UInt8.ofNat (m * 16 + n) := by
  obtain ⟨hx', hm, -⟩ := hex2dec_hexVal hx
  obtain ⟨hy', hn, -⟩ := hex2dec_hexVal hy
  have hnum : (m : Int) * 16 + n = ((m * 16 + n : Nat) : Int) := by omega
  rw [hx', hy', hnum, toChar_natCast (by omega)]

theorem reference_plain (hb : b ≠ 37) : reference (b :: s) = b :: reference s := by
  rw [reference.eq_def]
  exact if_pos hb

theorem reference_escape {m n : Nat} (hx : hexVal x = some m) (hy : hexVal y = some n) :
    reference (37 :: x :: y :: s) = UInt8.ofNat (m * 16 + n) :: reference s := by
  rw [reference.eq_def]
  simp [hx, hy]

/-- A string of plain bytes and escapes. -/
inductive Parsed : List UInt8 → Prop
  | nil : Parsed []
  | plain {b : UInt8} {s : List UInt8} (hb : b ≠ 37) (hs : Parsed s) : Parsed (b :: s)
  | escape {x y : UInt8} {m n : Nat} {s : List UInt8} (hx : hexVal x = some m) (hy : hexVal y = some n)
      (hs : Parsed s) : Parsed (37 :: x :: y :: s)

theorem WellFormed.parsed (h : WellFormed s) : Parsed s := by
  induction hlen : s.length using Nat.strong_induction_on generalizing s with
  | _ k ih =>
    cases s with
    | nil => exact .nil
    | cons b s =>
      simp only [List.length_cons] at hlen
      by_cases hb : b = 37
      · subst hb
        obtain ⟨x, y, rest, rfl, hx, hy⟩ := h.escape
        obtain ⟨m, hm⟩ := Option.isSome_iff_exists.1 hx
        obtain ⟨n, hn⟩ := Option.isSome_iff_exists.1 hy
        simp only [List.length_cons] at hlen
        exact .escape hm hn (ih rest.length (by omega) h.tail.tail.tail rfl)
      · exact .plain hb (ih s.length (by omega) h.tail rfl)

theorem Parsed.wellFormed (h : Parsed s) : WellFormed s := by
  induction h with
  | nil => intro before behind he; simp at he
  | plain hb _ ih =>
    intro before behind he
    cases before with
    | nil => exact absurd (List.cons.inj he).1 hb
    | cons c before => exact ih before behind (List.cons.inj he).2
  | @escape x y m n s hx hy _ ih =>
    have hx' : (hexVal x).isSome := by rw [hx]; rfl
    have hy' : (hexVal y).isSome := by rw [hy]; rfl
    intro before behind he
    match before, he with
    | [], he => exact ⟨x, y, s, ((List.cons.inj he).2).symm, hx', hy'⟩
    | [_], he => exact absurd (List.cons.inj (List.cons.inj he).2).1 (ne_percent_of_hexVal hx')
    | [_, _], he => exact absurd (List.cons.inj (List.cons.inj (List.cons.inj he).2).2).1 (ne_percent_of_hexVal hy')
    | _ :: _ :: _ :: before, he => exact ih before behind (List.cons.inj (List.cons.inj (List.cons.inj he).2).2).2

theorem Parsed.closed (h : Parsed s) : OpenEscape s = false := by
  induction h with
  | nil => rfl
  | plain hb _ ih => rwa [OpenEscape.plain fun he => hb (schar_percent.1 he)]
  | escape _ _ _ ih => rwa [OpenEscape.escape (by decide)]

/-- **The loop computes the reference.** -/
theorem Parsed.decode_eq (h : Parsed s) : decode s = reference s := by
  induction h with
  | nil => rfl
  | plain hb _ ih =>
    have hb' := mt schar_percent.1 hb
    rw [reference_plain hb, ← ih, decode.eq_def]
    exact if_pos hb'
  | escape hx hy _ ih =>
    rw [reference_escape hx hy, ← ih, ← toChar_escape hx hy, decode.eq_def]
    exact if_neg (by decide)

/-! ## The decoded `NUL` -/

theorem ofNat_eq_zero {n : Nat} (h : n < 256) : 0 = UInt8.ofNat n ↔ n = 0 := by
  constructor
  · intro he
    have hnat := congrArg UInt8.toNat he
    rw [UInt8.toNat_ofNat_of_lt' h] at hnat
    exact hnat.symm
  · rintro rfl
    rfl

/-- A `NUL` is decoded from `%00`, and from nothing else. -/
theorem Parsed.nul_mem (h : Parsed s) (hnul : 0 ∉ s) : 0 ∈ reference s ↔ [37, 48, 48] <:+: s := by
  induction h with
  | nil => simp [reference]
  | @plain b s hb _ ih =>
    rw [List.mem_cons, not_or] at hnul
    have h1 : ¬(0 = b) := hnul.1
    have h2 : ¬(37 = b) := Ne.symm hb
    rw [reference_plain hb, List.mem_cons, ih hnul.2, List.infix_cons_iff, List.cons_prefix_cons]
    simp [h1, h2]
  | @escape x y m n s hx hy _ ih =>
    obtain ⟨-, hm, hm0⟩ := hex2dec_hexVal hx
    obtain ⟨-, hn, hn0⟩ := hex2dec_hexVal hy
    have hx' : ¬(37 = x) := (ne_percent_of_hexVal (by rw [hx]; rfl)).symm
    have hy' : ¬(37 = y) := (ne_percent_of_hexVal (by rw [hy]; rfl)).symm
    have hdigits : m * 16 + n = 0 ↔ 48 = x ∧ 48 = y := by
      constructor
      · intro h0
        exact ⟨(hm0 (by omega)).symm, (hn0 (by omega)).symm⟩
      · rintro ⟨rfl, rfl⟩
        cases hx
        cases hy
        rfl
    have hnul' : 0 ∉ s := fun hmem => hnul (by simp [hmem])
    rw [reference_escape hx hy, List.mem_cons, ih hnul', ofNat_eq_zero (by omega), hdigits]
    simp only [List.infix_cons_iff, List.cons_prefix_cons, hx', hy', List.nil_prefix]
    simp

/-- **Decoding is complete**: for a well-formed string that fits, `urldecode` leaves the reference decoding exactly when
the string does not contain `%00`. -/
theorem urldecode_complete_iff (hnul : 0 ∉ s) (hlen : s.length < BURSIZE) (h : WellFormed s) :
    (∀ rest, ∃ url, urldecode (s ++ 0 :: rest) = .ok url ∧ strOf url = reference s) ↔ ¬[37, 48, 48] <:+: s := by
  have hp := h.parsed
  rw [← hp.nul_mem hnul]
  constructor
  · intro hall hmem
    obtain ⟨url, -, hurl⟩ := hall []
    rw [← hurl] at hmem
    exact nul_notMem_strOf hmem
  · intro hmem rest
    obtain ⟨url, hurl, hstr⟩ := urldecode_closed hnul hlen hp.closed rest
    refine ⟨url, hurl, ?_⟩
    have hstr' := @strOf_append_nul (reference s) [] hmem
    rw [strOf_append_singleton] at hstr'
    rw [hstr, hp.decode_eq, hstr']

theorem urldecode_complete_iff_k :
    (∀ rest, ∃ url, urldecode ([97, 37, 52, 98] ++ 0 :: rest) = .ok url ∧ strOf url = reference [97, 37, 52, 98]) ↔
      ¬[37, 48, 48] <:+: ([97, 37, 52, 98] : List UInt8) :=
  urldecode_complete_iff (by decide) (by decide)
    (Parsed.wellFormed (.plain (by decide) (.escape (m := 4) (n := 11) rfl rfl .nil)))

/-- `a%00b` is decoded to `a`. -/
theorem decoded_nul_cuts :
    WellFormed [97, 37, 48, 48, 98] ∧ urldecode [97, 37, 48, 48, 98, 0] = .ok [97, 0, 48, 48, 98, 0] ∧
      strOf [97, 0, 48, 48, 98, 0] = [97] ∧ reference [97, 37, 48, 48, 98] = [97, 0, 98] ∧
      ¬∀ rest, ∃ url, urldecode ([97, 37, 48, 48, 98] ++ 0 :: rest) = .ok url ∧
        strOf url = reference [97, 37, 48, 48, 98] := by
  have hurl : urldecode [97, 37, 48, 48, 98, 0] = .ok [97, 0, 48, 48, 98, 0] := by decide
  refine ⟨Parsed.wellFormed (.plain (by decide) (.escape (m := 0) (n := 0) rfl rfl (.plain (by decide) .nil))), hurl,
    by decide, by decide, fun hall => ?_⟩
  obtain ⟨url, hurl', hstr⟩ := hall []
  cases hurl.symm.trans hurl'
  exact absurd hstr (by decide)

end SystemFunc.Url
