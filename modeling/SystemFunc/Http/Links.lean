import SystemFunc.Http.Confine

/-!
# Links in a directory listing

`send_dir` writes the path and the name of an entry into the link as they are, while a request is cut at white space and
decoded. So a link leads back to its entry exactly when neither has white space or a `%` in it (`link_leads_back_iff`).
-/

namespace SystemFunc.Http

variable {path name method pro more : List UInt8} {e : UInt8}

/-- `tmp` with a request for a target: three words, the last one followed by `e`. -/
def requestFor (method target pro : List UInt8) (e : UInt8) (more : List UInt8) : List UInt8 :=
  method ++ 32 :: (target ++ 32 :: (pro ++ e :: more))

/-- The request is parsed, and the path that comes of it is that of the entry. -/
def LeadsBack (path name tmp : List UInt8) : Prop :=
  ∃ req, parseRequest .zero tmp = .ok req ∧ req.status = 1 ∧
    spath (strOf req.path) = entryFilePath path (spath path) name

/-- A word that fits into its field. -/
structure Fits (w : List UInt8) (size : Nat) : Prop where
  noSpace : NoSpace w
  some : w ≠ []
  nulFree : 0 ∉ w
  short : w.length < size

/-! ## Path and target -/

theorem spath_href (hpath : path ≠ []) : entryFilePath path (spath path) name = spath (entryHref path name) := by
  obtain ⟨b, path, rfl⟩ := List.exists_cons_of_ne_nil hpath
  unfold entryFilePath entryHref spath
  split_ifs <;> simp_all

/-- A target has a slash in it, so that there is a word in it. -/
theorem slash_mem_href : 47 ∈ entryHref path name := by
  unfold entryHref
  split
  · rename_i hlast
    exact List.mem_append_left _ (List.mem_of_getLast? hlast)
  · simp

theorem mem_href {b : UInt8} (hb : b ∈ path ++ name) : b ∈ entryHref path name := by
  unfold entryHref
  split
  · exact hb
  · rcases List.mem_append.1 hb with hb | hb
    · exact List.mem_append_left _ hb
    · exact List.mem_append_right _ (List.mem_cons_of_mem _ hb)

theorem of_mem_href {b : UInt8} (hb : b ∈ entryHref path name) : b ∈ path ++ name ∨ b = 47 := by
  unfold entryHref at hb
  split at hb
  · exact .inl hb
  · rcases List.mem_append.1 hb with hb | hb
    · exact .inl (List.mem_append_left _ hb)
    · rcases List.mem_cons.1 hb with rfl | hb
      · exact .inr rfl
      · exact .inl (List.mem_append_right _ hb)

theorem strOf_length_le (cells : List UInt8) : (strOf cells).length ≤ cells.length :=
  (List.takeWhile_prefix _).length_le

/-- What comes of a target that begins with a dot begins with a dot. -/
theorem decoded_dot (target : List UInt8) : (strOf (Url.decode (word (46 :: target)))).head? = some 46 := by
  have hspace : isspace 46 = false := by decide
  have hpercent : schar 46 ≠ ch '%' := by decide
  have hword : ∃ w, word (46 :: target) = 46 :: w := by simp [word, hspace]
  obtain ⟨w, hw⟩ := hword
  rw [hw, Url.decode.eq_def]
  simp [hpercent, strOf]

/-- A path that comes of a target by cutting and decoding, and leads to the same place, is the target. -/
theorem eq_target {target : List UInt8}
    (h : spath (strOf (Url.decode (word target))) = spath target) : strOf (Url.decode (word target)) = target := by
  have hlen : (strOf (Url.decode (word target))).length ≤ target.length :=
    ((strOf_length_le _).trans (Url.decode_length_le _)).trans (word_sublist target).length_le
  unfold spath at h
  split_ifs at h with hslash htarget htarget
  · exact (List.cons.inj h).2
  · have hdot := decoded_dot (strOf (Url.decode (word target)))
    rw [h, hslash] at hdot
    cases hdot
  · rw [h, List.length_cons] at hlen
    omega
  · exact h

/-- Nothing is lost only where there is no white space and no escape. -/
theorem plain_of_eq_target {target : List UInt8} (h : strOf (Url.decode (word target)) = target) :
    NoSpace target ∧ 37 ∉ target := by
  have hstr := strOf_length_le (Url.decode (word target))
  have hdecode := Url.decode_length_le (word target)
  have hword := (word_sublist target).length_le
  have hlen := congrArg List.length h
  have hall : word target = target := (word_sublist target).eq_of_length (by omega)
  rw [hall] at h hstr hdecode hlen
  have hfull : (strOf (Url.decode target)).length = (Url.decode target).length := by omega
  have hsame : strOf (Url.decode target) = Url.decode target := (List.takeWhile_prefix _).eq_of_length hfull
  exact ⟨hall ▸ noSpace_word target, Url.noEscape_of_decode (hsame.symm.trans h)⟩

/-! ## The new request -/

/-- The words of the request. -/
theorem requestFor_strOf {target : List UInt8} (hmethod : 0 ∉ method) (htarget : 0 ∉ target) (hpro : 0 ∉ pro)
    (he : isspace e = true) :
    strOf (requestFor method target pro e more) = requestFor method target pro e (strOf more) := by
  have hspace : ∀ b, isspace b = true → b ≠ 0 := by
    rintro b hb rfl
    revert hb
    decide
  have hcons : ∀ b l, b ≠ 0 → strOf (b :: l) = b :: strOf l := fun b l hb => by simp [strOf, hb]
  have happend : ∀ w l, 0 ∉ w → strOf (w ++ l) = w ++ strOf l := by
    intro w l hw
    apply List.takeWhile_append_of_pos
    intro b hb
    have hne : b ≠ 0 := fun h0 => hw (h0 ▸ hb)
    simp [hne]
  rw [requestFor, happend _ _ hmethod, hcons _ _ (by decide), happend _ _ htarget, hcons _ _ (by decide),
    happend _ _ hpro, hcons _ _ (hspace e he)]
  rfl

/-- The second word of the request. -/
theorem requestFor_pathWord {target : List UInt8} (hmethod : Fits method 64) (htarget : 0 ∉ target) (hpro : 0 ∉ pro)
    (he : isspace e = true) (hsome : ∃ c ∈ target, isspace c = false) :
    pathWord (strOf (requestFor method target pro e more)) = word target := by
  have hspace : isspace 32 = true := by decide
  rw [requestFor_strOf hmethod.nulFree htarget hpro he, requestFor, pathWord,
    (word_append hmethod.noSpace hmethod.some hspace).2, word_space hspace, word_append_space hsome hspace]

/-- A request whose words fit, and whose second word is decoded. -/
theorem parse_words {target url : List UInt8} (hmethod : Fits method 64) (htarget : Fits target 256)
    (hpro : Fits pro 64) (he : isspace e = true) (hmore : 0 ∈ more)
    (hurl : Url.urldecode (target ++ 0 :: HttpRequestT.zero.path.drop (target.length + 1)) = .ok url) :
    ∃ req, parseRequest .zero (requestFor method target pro e more) = .ok req ∧ req.status = 1 ∧ req.path = url := by
  have hspace : isspace 32 = true := by decide
  have hread : readStr (requestFor method target pro e more) =
      .ok (requestFor method target pro e (strOf more)) := by
    refine readStr_ok.2 ⟨?_, (requestFor_strOf hmethod.nulFree htarget.nulFree hpro.nulFree he).symm⟩
    simp [requestFor, hmore]
  obtain ⟨hword₁, hafter₁⟩ :=
    @word_append (target ++ 32 :: (pro ++ e :: strOf more)) method 32 hmethod.noSpace hmethod.some hspace
  obtain ⟨hword₂, hafter₂⟩ := @word_append (pro ++ e :: strOf more) target 32 htarget.noSpace htarget.some hspace
  obtain ⟨hword₃, hafter₃⟩ := @word_append (strOf more) pro e hpro.noSpace hpro.some he
  rw [← word_space hspace] at hword₂ hword₃
  rw [← afterWord_space hspace] at hafter₂ hafter₃
  obtain ⟨hlen₁, hlen₂, hlen₃⟩ := zero_length
  have hscan₁ := scanWord_eq hword₁ hafter₁ hmethod.some (hlen₁ ▸ hmethod.short)
  have hscan₂ := scanWord_eq hword₂ hafter₂ htarget.some (hlen₂ ▸ htarget.short)
  have hscan₃ := scanWord_eq hword₃ hafter₃ hpro.some (hlen₃ ▸ hpro.short)
  have hparse : parseRequest .zero (requestFor method target pro e more) = .ok
      { status := 1
        method := method ++ 0 :: HttpRequestT.zero.method.drop (method.length + 1)
        path := url
        pro := pro ++ 0 :: HttpRequestT.zero.pro.drop (pro.length + 1) } := by
    rw [parseRequest, hread, ok_bind, sscanf, requestFor, hscan₁, ok_bind]
    simp only [hscan₂, hscan₃, ok_bind, pure_bind, urldecode, hurl]
    rfl
  exact ⟨_, hparse, rfl, rfl⟩

/-- A request whose words fit, without an escape. -/
theorem parse_requestFor {target : List UInt8} (hmethod : Fits method 64) (htarget : Fits target 256)
    (hpro : Fits pro 64) (he : isspace e = true) (hmore : 0 ∈ more) (hpercent : 37 ∉ target) :
    ∃ req, parseRequest .zero (requestFor method target pro e more) = .ok req ∧ req.status = 1 ∧
      strOf req.path = target := by
  obtain ⟨url, hurl, hstr⟩ := @Url.urldecode_noEscape target (HttpRequestT.zero.path.drop (target.length + 1))
    htarget.nulFree hpercent (Nat.lt_trans htarget.short (by decide))
  obtain ⟨req, hreq, hstatus, hpath⟩ := parse_words hmethod htarget hpro he hmore hurl
  exact ⟨req, hreq, hstatus, hpath ▸ hstr⟩

/-- **A link leads back** to its entry exactly when there is no white space and no `%` in the path and in the name. -/
theorem link_leads_back_iff (hpath : path ≠ []) (hpath0 : 0 ∉ path) (hname0 : 0 ∉ name)
    (hshort : (entryHref path name).length ≤ 255) (hmethod : Fits method 64) (hpro : Fits pro 64)
    (he : isspace e = true) (hmore : 0 ∈ more) :
    LeadsBack path name (requestFor method (entryHref path name) pro e more) ↔
      ∀ b ∈ path ++ name, isspace b = false ∧ b ≠ 37 := by
  have htarget0 : 0 ∉ entryHref path name := by
    intro h0
    rcases of_mem_href h0 with h0 | h0
    · exact (List.mem_append.1 h0).elim hpath0 hname0
    · cases h0
  have hsome : ∃ c ∈ entryHref path name, isspace c = false := ⟨47, slash_mem_href, by decide⟩
  rw [LeadsBack, spath_href hpath]
  constructor
  · rintro ⟨req, hreq, hstatus, hsame⟩ b hb
    rw [parse_path hreq hstatus, requestFor_pathWord hmethod htarget0 hpro.nulFree he hsome] at hsame
    obtain ⟨hspace, hpercent⟩ := plain_of_eq_target (eq_target hsame)
    exact ⟨hspace b (mem_href hb), fun h37 => hpercent (h37 ▸ mem_href hb)⟩
  · intro hplain
    have htarget : Fits (entryHref path name) 256 := by
      refine ⟨fun b hb => ?_, List.ne_nil_of_mem slash_mem_href, htarget0, Nat.lt_succ_of_le hshort⟩
      rcases of_mem_href hb with hb | rfl
      · exact (hplain b hb).1
      · decide
    have hpercent : 37 ∉ entryHref path name := by
      intro h37
      rcases of_mem_href h37 with h37 | h37
      · exact (hplain 37 h37).2 rfl
      · cases h37
    obtain ⟨req, hreq, hstatus, hstr⟩ := @parse_requestFor method pro more e _ hmethod htarget hpro he hmore hpercent
    exact ⟨req, hreq, hstatus, by rw [hstr]⟩

/-- A directory and an entry without white space and escapes. -/
theorem link_leads_back_plain :
    LeadsBack (lit "/docs") (lit "a.txt") (requestFor (lit "GET") (lit "/docs/a.txt") (lit "HTTP/1.1") 13 [10, 0]) ↔
      ∀ b ∈ lit "/docs" ++ lit "a.txt", isspace b = false ∧ b ≠ 37 := by
  have hmethod : Fits (lit "GET") 64 := ⟨by decide, by decide, by decide, by decide⟩
  have hpro : Fits (lit "HTTP/1.1") 64 := ⟨by decide, by decide, by decide, by decide⟩
  exact link_leads_back_iff (by decide) (by decide) (by decide) (by decide) hmethod hpro (by decide) (by decide)

/-- The links to the entries `a b` and `%41` of the root, in requests as a browser sends them. -/
theorem links_astray :
    parsed (lit "GET " ++ entryHref (lit "/") (lit "a b") ++ lit " HTTP/1.1\r\n") = .ok (1, lit "./a") ∧
      entryFilePath (lit "/") (spath (lit "/")) (lit "a b") = lit "./a b" ∧
      parsed (lit "GET " ++ entryHref (lit "/") (lit "%41") ++ lit " HTTP/1.1\r\n") = .ok (1, lit "./A") ∧
      entryFilePath (lit "/") (spath (lit "/")) (lit "%41") = lit "./%41" := by
  refine ⟨?_, ?_, ?_, ?_⟩ <;> decide +kernel

end SystemFunc.Http
