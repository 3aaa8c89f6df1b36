import SystemFunc.Url.Decode

/-!
# What the decoder reads behind the string

The loop of `urldecode` takes the two cells behind a `%` without looking whether the string ends there. A `%` that is
the last but one byte takes the `NUL` for its second digit; one that is the last byte takes the cell behind the `NUL`
as well (`OpenEscape`).

- `decodeLoop_closed` and `decodeLoop_open`: the loop without such an escape, and with one;
- `stringOnly_iff`: when `urldecode` depends on the string alone.
-/

namespace SystemFunc.Url

/-- Read from left to right, the last byte begins an escape. -/
def OpenEscape : List UInt8 → Bool
  | [] => false
  | b :: s =>
    if b ≠ 37 then OpenEscape s
    else
      match s with
      | _ :: _ :: s => OpenEscape s
      | [_] => false
      | [] => true

/-- In an array that ends with the `NUL` nothing is read behind it; and arrays that agree up to the `NUL` are left with
the same string. -/
def StringOnly (s : List UInt8) : Prop :=
  urldecode (s ++ [0]) ≠ .error .undefined ∧
    ∀ rest rest', ∃ url url', urldecode (s ++ 0 :: rest) = .ok url ∧ urldecode (s ++ 0 :: rest') = .ok url' ∧
      strOf url = strOf url'

variable {s res rest : List UInt8}

theorem OpenEscape.plain {b : UInt8} (hb : schar b ≠ ch '%') : OpenEscape (b :: s) = OpenEscape s := by
  rw [OpenEscape.eq_def]
  exact if_pos fun he => hb (schar_percent.2 he)

theorem OpenEscape.escape {b : UInt8} (hb : schar b = ch '%') :
    OpenEscape (b :: s) = match s with | _ :: _ :: s => OpenEscape s | [_] => false | [] => true := by
  rw [OpenEscape.eq_def]
  exact if_neg (not_not.2 (schar_percent.1 hb))

/-- Without an open escape the loop finds `decode`, whatever is behind the string. -/
theorem decodeLoop_closed (h : OpenEscape s = false) (hlen : (res ++ s).length ≤ BURSIZE) :
    decodeLoop (s ++ 0 :: rest) s.length res = .ok (res ++ decode s) := by
  rw [List.length_append] at hlen
  fun_induction decode s generalizing res with
  | case1 => rw [List.length_nil, decodeLoop_zero, List.append_nil]
  | case2 b s hb ih =>
    rw [OpenEscape.plain hb] at h
    simp only [List.length_cons] at hlen
    rw [List.cons_append, List.length_cons, decodeLoop_plain hb, put_bind, if_pos (by omega),
      ih h (by simp only [List.length_append, List.length_singleton]; omega), List.append_assoc, List.singleton_append]
  | case3 b hb c1 c0 s ih =>
    rw [OpenEscape.escape (not_not.1 hb)] at h
    simp only [List.length_cons] at hlen
    have hpass := @decodeLoop_escape b res (s ++ 0 :: rest) c1 c0 (s.length + 2) (not_not.1 hb)
    rw [Nat.add_sub_cancel] at hpass
    simp only [List.cons_append, List.length_cons]
    rw [hpass, put_bind, if_pos (by omega), ih h (by simp only [List.length_append, List.length_singleton]; omega),
      List.append_assoc, List.singleton_append]
  | case4 b hb c1 =>
    simp only [List.length_cons, List.length_nil] at hlen
    have hpass := @decodeLoop_escape b res rest c1 0 1 (not_not.1 hb)
    simp only [List.cons_append, List.nil_append, List.length_cons, List.length_nil]
    rw [hpass, put_bind, if_pos (by omega), decodeLoop_zero]
  | case5 b hb =>
    rw [OpenEscape.escape (not_not.1 hb)] at h
    cases h

/-- With an open escape the loop reads behind the `NUL`. -/
theorem decodeLoop_open (h : OpenEscape s = true) : decodeLoop (s ++ [0]) s.length res = .error .undefined := by
  fun_induction decode s generalizing res with
  | case1 => cases h
  | case2 b s hb ih =>
    rw [OpenEscape.plain hb] at h
    rw [List.cons_append, List.length_cons, decodeLoop_plain hb, put_bind]
    split_ifs
    · exact ih h
    · rfl
  | case3 b hb c1 c0 s ih =>
    rw [OpenEscape.escape (not_not.1 hb)] at h
    have hpass := @decodeLoop_escape b res (s ++ [0]) c1 c0 (s.length + 2) (not_not.1 hb)
    rw [Nat.add_sub_cancel] at hpass
    simp only [List.cons_append, List.length_cons]
    rw [hpass, put_bind]
    split_ifs
    · exact ih h
    · rfl
  | case4 b hb c1 =>
    rw [OpenEscape.escape (not_not.1 hb)] at h
    cases h
  | case5 b hb => exact decodeLoop_cut (not_not.1 hb) (by simp)

/-- Without an open escape, `urldecode` leaves the string that `decode` finds. -/
theorem urldecode_closed (hnul : 0 ∉ s) (hlen : s.length < BURSIZE) (h : OpenEscape s = false) (rest : List UInt8) :
    ∃ url, urldecode (s ++ 0 :: rest) = .ok url ∧ strOf url = strOf (decode s) := by
  have hloop := @decodeLoop_closed s [] rest h (by rw [List.nil_append]; omega)
  have hle : (strOf (decode s)).length ≤ s.length :=
    Nat.le_trans (List.takeWhile_prefix _).length_le (decode_length_le s)
  have hres : (decode s).length < BURSIZE := Nat.lt_of_le_of_lt (decode_length_le s) hlen
  have hfits : (strOf (decode s)).length < (s ++ 0 :: rest).length := by
    rw [List.length_append, List.length_cons]
    omega
  have hread : readStr (decode s ++ [0]) = .ok (strOf (decode s)) :=
    readStr_ok.2 ⟨List.mem_append_right _ List.mem_cons_self, strOf_append_singleton.symm⟩
  refine ⟨strOf (decode s) ++ 0 :: (s ++ 0 :: rest).drop ((strOf (decode s)).length + 1), ?_,
    strOf_append_nul nul_notMem_strOf⟩
  rw [urldecode, readStr_append_nul hnul, ok_bind, hloop, List.nil_append, ok_bind, put_bind, if_pos hres, strcpy,
    hread, ok_bind, if_pos hfits]
  rfl

theorem urldecode_open (hnul : 0 ∉ s) (h : OpenEscape s = true) : urldecode (s ++ [0]) = .error .undefined := by
  rw [urldecode, readStr_append_nul hnul, ok_bind, decodeLoop_open h, error_bind]

/-- **The string alone decides** what `urldecode` does, exactly when no escape begins at its last byte. -/
theorem stringOnly_iff (hnul : 0 ∉ s) (hlen : s.length < BURSIZE) : StringOnly s ↔ OpenEscape s = false := by
  constructor
  · intro h
    by_contra hopen
    exact h.1 (urldecode_open hnul (Bool.of_not_eq_false hopen))
  · intro h
    obtain ⟨url, hurl, -⟩ := urldecode_closed hnul hlen h []
    have hdefined : urldecode (s ++ [0]) ≠ .error .undefined := by
      rw [hurl]
      nofun
    refine ⟨hdefined, fun rest rest' => ?_⟩
    obtain ⟨url, hurl, hstr⟩ := urldecode_closed hnul hlen h rest
    obtain ⟨url', hurl', hstr'⟩ := urldecode_closed hnul hlen h rest'
    exact ⟨url, url', hurl, hurl', hstr.trans hstr'.symm⟩

theorem stringOnly_iff_cut : StringOnly [97, 37, 52] ↔ OpenEscape [97, 37, 52] = false :=
  stringOnly_iff (by decide) (by decide)

/-- The string `%`: the byte behind its `NUL` is decoded with it. -/
theorem percent_reads_behind :
    urldecode [37, 0] = .error .undefined ∧ urldecode [37, 0, 48] = .ok [240, 0, 48] ∧
      urldecode [37, 0, 49] = .ok [241, 0, 49] ∧ ¬StringOnly [37] := by
  have hundefined : urldecode [37, 0] = .error .undefined := by decide
  exact ⟨hundefined, by decide, by decide, fun h => h.1 hundefined⟩

end SystemFunc.Url
