import SystemFunc.Url.Codec

/-!
# What the decoder finds in any string

`decode s` is what `urldecode` makes of `s` in an array that is zero behind it: an escape that is cut by the end of the
string takes the zeros for its digits. It is no longer than `s`, and it is `s` only where there is no escape.
-/

namespace SystemFunc.Url

def decode : List UInt8 → List UInt8
  | [] => []
  | b :: s =>
    if schar b ≠ ch '%' then b :: decode s
    else
      match s with
      | c1 :: c0 :: s => toChar (hex2dec (schar c1) * 16 + hex2dec (schar c0)) :: decode s
      | [c1] => [toChar (hex2dec (schar c1) * 16 + hex2dec (schar 0))]
      | [] => [toChar (hex2dec (schar 0) * 16 + hex2dec (schar 0))]

variable {b : UInt8} {s res cells : List UInt8}

theorem schar_percent : schar b = ch '%' ↔ b = 37 := by
  have hch : ch '%' = 37 := by decide
  have hb := b.toNat_lt
  rw [hch]
  constructor
  · intro h
    have hnat : b.toNat = 37 := by
      unfold schar at h
      split_ifs at h <;> omega
    exact UInt8.toNat.inj hnat
  · rintro rfl
    decide

/-! ## One pass of the decoder -/

theorem decodeLoop_plain {n : Nat} (hb : schar b ≠ ch '%') :
    decodeLoop (b :: cells) (n + 1) res = put BURSIZE res b >>= decodeLoop cells n := by
  rw [decodeLoop.eq_def]
  simp only [if_pos hb]

theorem decodeLoop_escape {x y : UInt8} {n : Nat} (hb : schar b = ch '%') :
    decodeLoop (b :: x :: y :: cells) (n + 1) res =
      put BURSIZE res (toChar (hex2dec (schar x) * 16 + hex2dec (schar y))) >>= decodeLoop cells (n - 2) := by
  rw [decodeLoop.eq_def]
  simp only [if_neg (not_not.2 hb)]

/-- An escape at the end of the array. -/
theorem decodeLoop_cut {n : Nat} (hb : schar b = ch '%') (hcells : cells.length < 2) :
    decodeLoop (b :: cells) (n + 1) res = .error .undefined := by
  rw [decodeLoop.eq_def]
  simp only [if_neg (not_not.2 hb)]
  match cells, hcells with
  | [], _ => rfl
  | [_], _ => rfl

theorem decodeLoop_zero : decodeLoop cells 0 res = .ok res := by
  cases cells <;> rfl

/-! ## The loop -/

/-- The loop on a string in an array that is zero behind it, where it stays in the array. -/
theorem decodeLoop_zeros {k : Nat} {r : List UInt8}
    (h : decodeLoop (s ++ List.replicate k 0) s.length res = .ok r) : r = res ++ decode s := by
  fun_induction decode s generalizing res with
  | case1 =>
    rw [List.length_nil, decodeLoop_zero] at h
    cases h
    rw [List.append_nil]
  | case2 b s hb ih =>
    rw [List.cons_append, List.length_cons, decodeLoop_plain hb, put_bind] at h
    split_ifs at h
    rw [ih h, List.append_assoc, List.singleton_append]
  | case3 b hb c1 c0 s ih =>
    have hpass := @decodeLoop_escape b res (s ++ List.replicate k 0) c1 c0 (s.length + 2) (not_not.1 hb)
    rw [Nat.add_sub_cancel] at hpass
    simp only [List.cons_append, List.length_cons] at h
    rw [hpass, put_bind] at h
    split_ifs at h
    rw [ih h, List.append_assoc, List.singleton_append]
  | case4 b hb c1 =>
    cases k with
    | zero =>
      have hcut := @decodeLoop_cut b res [c1] 1 (not_not.1 hb) (by simp)
      simp only [List.replicate_zero, List.append_nil, List.length_cons, List.length_nil] at h
      rw [hcut] at h
      cases h
    | succ k =>
      have hpass := @decodeLoop_escape b res (List.replicate k 0) c1 0 1 (not_not.1 hb)
      simp only [List.cons_append, List.nil_append, List.replicate_succ, List.length_cons, List.length_nil] at h
      rw [hpass, put_bind, decodeLoop_zero] at h
      split_ifs at h
      cases h
      rfl
  | case5 b hb =>
    match k with
    | 0 =>
      have hcut := @decodeLoop_cut b res [] 0 (not_not.1 hb) (by simp)
      simp only [List.replicate_zero, List.append_nil, List.length_cons, List.length_nil] at h
      rw [hcut] at h
      cases h
    | 1 =>
      have hcut := @decodeLoop_cut b res [0] 0 (not_not.1 hb) (by simp)
      simp only [List.cons_append, List.nil_append, List.replicate_one, List.length_cons, List.length_nil] at h
      rw [hcut] at h
      cases h
    | k + 2 =>
      have hpass := @decodeLoop_escape b res (List.replicate k 0) 0 0 0 (not_not.1 hb)
      simp only [List.cons_append, List.nil_append, List.replicate_succ, List.length_cons, List.length_nil] at h
      rw [hpass, put_bind, decodeLoop_zero] at h
      split_ifs at h
      cases h
      rfl

/-- `urldecode` on a string in an array that is zero behind it. -/
theorem urldecode_zeros {k : Nat} {url : List UInt8} (hs : 0 ∉ s)
    (h : urldecode (s ++ List.replicate (k + 1) 0) = .ok url) : strOf url = strOf (decode s) := by
  rw [urldecode, List.replicate_succ, readStr_append_nul hs, ok_bind] at h
  obtain ⟨res, hloop, h⟩ := bind_eq_ok.1 h
  have hres : res = [] ++ decode s := decodeLoop_zeros (k := k + 1) hloop
  obtain ⟨res', hput, h⟩ := bind_eq_ok.1 h
  obtain ⟨-, rfl⟩ := put_ok.1 hput
  rw [hres, List.nil_append] at h
  obtain ⟨t, ht, h⟩ := bind_eq_ok.1 h
  obtain ⟨-, rfl⟩ := readStr_ok.1 ht
  split at h
  · cases h
    rw [strOf_append_nul nul_notMem_strOf, strOf_append_singleton]
  · cases h

/-- A string without an escape stays as it is. -/
theorem decodeLoop_noEscape (hs : 37 ∉ s) (hlen : (res ++ s).length ≤ BURSIZE) :
    decodeLoop (s ++ cells) s.length res = .ok (res ++ s) := by
  induction s generalizing res with
  | nil => rw [List.length_nil, decodeLoop_zero, List.append_nil]
  | cons b s ih =>
    have hb : schar b ≠ ch '%' := fun he => hs (List.mem_cons.2 (.inl (schar_percent.1 he).symm))
    have hroom : res.length < BURSIZE := by rw [List.length_append, List.length_cons] at hlen; omega
    have hrest := @ih (res ++ [b]) (fun h => hs (List.mem_cons_of_mem _ h)) (by simpa using hlen)
    rw [List.cons_append, List.length_cons, decodeLoop_plain hb, put_bind, if_pos hroom, hrest, List.append_assoc,
      List.singleton_append]

theorem urldecode_noEscape {rest : List UInt8} (hnul : 0 ∉ s) (hs : 37 ∉ s) (hlen : s.length < BURSIZE) :
    ∃ url, urldecode (s ++ 0 :: rest) = .ok url ∧ strOf url = s := by
  have hloop := @decodeLoop_noEscape s [] (0 :: rest) hs (by rw [List.nil_append]; omega)
  have hfits : s.length < (s ++ 0 :: rest).length := by rw [List.length_append, List.length_cons]; omega
  refine ⟨s ++ 0 :: (s ++ 0 :: rest).drop (s.length + 1), ?_, strOf_append_nul hnul⟩
  rw [urldecode, readStr_append_nul hnul, ok_bind, hloop, List.nil_append, ok_bind, put_bind, if_pos hlen,
    strcpy_eq hnul, if_pos hfits]

theorem decode_length_le (s : List UInt8) : (decode s).length ≤ s.length := by
  fun_induction decode s with
  | case1 => exact Nat.le_refl _
  | case2 b s hb ih => simpa using ih
  | case3 b hb c1 c0 s ih =>
    simp only [List.length_cons]
    omega
  | case4 b hb c1 => simp
  | case5 b hb => simp

/-- Decoding changes every string with an escape. -/
theorem noEscape_of_decode (h : decode s = s) : 37 ∉ s := by
  fun_induction decode s with
  | case1 => exact List.not_mem_nil
  | case2 b s hb ih =>
    have hne : b ≠ 37 := fun he => hb (schar_percent.2 he)
    intro hmem
    rcases List.mem_cons.1 hmem with he | hmem
    · exact hne he.symm
    · exact ih (List.cons.inj h).2 hmem
  | case3 b hb c1 c0 s ih =>
    have hlen := congrArg List.length h
    have hle := decode_length_le s
    simp only [List.length_cons] at hlen
    omega
  | case4 b hb c1 =>
    have hlen := congrArg List.length h
    simp at hlen
  | case5 b hb =>
    have hb37 := schar_percent.1 (not_not.1 hb)
    subst hb37
    exact absurd h (by decide)

end SystemFunc.Url
