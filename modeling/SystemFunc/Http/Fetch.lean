import SystemFunc.Http.Site
import SystemFunc.Url.RoundTrip

/-!
# Fetching by an encoded path

A client encodes a path with `urlencode` of `useful_func/url_encode_decode.c` and asks `libevent/myhttpd.c` for it. The
server decodes what was encoded, so that a file with any name is sent, as long as the encoded path fits its field; white
space, `%` and the bytes from 128 on make no difference.
-/

namespace SystemFunc.Http

open DirTree (Node)

variable {fs : FileSystem} {call : Call} {path : List UInt8}

/-- There is no white space in an encoded path. -/
theorem noSpace_escaped {s : List UInt8} (h : Url.Escaped s) : NoSpace s := by
  have hall : ∀ t : List UInt8, (t.all fun b => !isspace b) = true → NoSpace t := fun t ht b hb => by
    simpa using List.all_eq_true.1 ht b hb
  have hplain : ∀ b, Url.Plain b → isspace b = false := by
    rintro b (hb | hb | hb | hb)
    · exact hall (lit "0123456789") (by decide) b hb
    · exact hall (lit "abcdefghijklmnopqrstuvwxyz") (by decide) b hb
    · exact hall (lit "ABCDEFGHIJKLMNOPQRSTUVWXYZ") (by decide) b hb
    · exact hall (lit "/.") (by decide) b hb
  have hhex := hall (lit "0123456789ABCDEF") (by decide)
  induction h with
  | nil => exact fun b hb => (List.not_mem_nil hb).elim
  | plain hb _ ih => exact List.forall_mem_cons.2 ⟨hplain _ hb, ih⟩
  | escape hx hy _ ih =>
    exact List.forall_mem_cons.2 ⟨by decide, List.forall_mem_cons.2 ⟨hhex _ hx, List.forall_mem_cons.2 ⟨hhex _ hy, ih⟩⟩⟩

theorem encode_fits (hnul : 0 ∉ path) (hne : path ≠ []) (hlen : (Url.encode path).length < 256) :
    Fits (Url.encode path) 256 := by
  refine ⟨noSpace_escaped (Url.encode_escaped path), fun he => hne ?_, Url.encode_nulFree hnul, hlen⟩
  have hle := Url.length_le_encode path
  rw [he] at hle
  exact List.length_eq_zero_iff.1 (Nat.le_zero.1 hle)

/-- Of a request, only the status and the path matter. -/
theorem mainHandler_congr {req req' : HttpRequestT} (hstatus : req.status = req'.status)
    (hpath : strOf req.path = strOf req'.path) : mainHandler fs req = mainHandler fs req' := by
  rw [mainHandler, mainHandler, hstatus, hpath]

/-- The request for a path. -/
def requestOf (path : List UInt8) : HttpRequestT := { HttpRequestT.zero with status := 1, path := path ++ [0] }

/-- The server finds the path again. -/
theorem readCb_encoded (hnul : 0 ∉ path) (hne : path ≠ []) (hlen : (Url.encode path).length < 256)
    (hcall : Asks call (Url.encode path)) : readCb fs call = mainHandler fs (requestOf path) := by
  obtain ⟨method, pro, e, more, hmethod, hpro, he, hmore, hfill⟩ := hcall
  obtain ⟨rest, hurl⟩ := @Url.urldecode_encode path
    (HttpRequestT.zero.path.drop ((Url.encode path).length + 1)) hnul (Nat.lt_trans hlen (by decide))
  obtain ⟨req, hreq, hstatus, hpath⟩ := parse_words hmethod (encode_fits hnul hne hlen) hpro he hmore hurl
  rw [readCb, hfill, hreq, ok_bind]
  refine mainHandler_congr hstatus ?_
  rw [hpath, strOf_append_nul hnul]
  exact (strOf_append_nul hnul).symm

/-- **A path that was encoded is served**, whatever is in it: a path where there is nothing with the page for that, and a
file with its content. -/
theorem fetches_encoded {rest : List UInt8} (hnul : 0 ∉ path) (hne : path ≠ []) (hlen : (Url.encode path).length < 256)
    (hroom : (Url.encode path).length ≤ path.length + rest.length) :
    ∃ url, Url.urlencode (path ++ 0 :: rest) = .ok url ∧ ∀ fs call, Asks call (strOf url) →
      readCb fs call = mainHandler fs (requestOf path) ∧
      (fs.access (spath path) = false → readCb fs call = handler404) ∧
      ∀ content, Shows fs (spath path) (.file content) →
        readCb fs call = .ok (okHeader (getFileType (spath path)) ++ content) := by
  have hlt : (Url.encode path).length < Url.BURSIZE := Nat.lt_trans hlen (by decide)
  have hencode := @Url.urlencode_eq path rest hnul
  rw [if_pos ⟨hlt, hroom⟩] at hencode
  refine ⟨_, hencode, fun fs call hcall => ?_⟩
  rw [strOf_append_nul (Url.encode_nulFree hnul)] at hcall
  have hserved := @readCb_encoded fs call path hnul hne hlen hcall
  have hpath : strOf (requestOf path).path = path := strOf_append_nul hnul
  refine ⟨hserved, fun haccess => ?_, fun content hshows => ?_⟩
  · rw [hserved, mainHandler, if_neg (by exact Nat.one_ne_zero), hpath]
    exact if_pos haccess
  · have hfile := @mainHandler_file fs content (requestOf path) rfl (hpath.symm ▸ hshows)
    rw [hpath] at hfile
    exact hserved.trans hfile

/-- A file whose name has a space and a percent sign. -/
def oddFileSystem : FileSystem where
  access p := p = lit "./a 5%"
  stat p := if p = lit "./a 5%" then some ⟨0o100644, 2⟩ else none
  openReads p := if p = lit "./a 5%" then some ⟨[lit "hi"], false⟩ else none
  scandir _ := none

theorem fetches_encoded_odd : ∃ url, Url.urlencode (lit "/a 5%" ++ 0 :: List.replicate 10 0) = .ok url ∧
    strOf url = lit "/a%205%25" ∧
    readCb oddFileSystem (ask (lit "/a%205%25")) = .ok (okHeader (lit "text/plain; charset=utf-8") ++ lit "hi") := by
  obtain ⟨url, hurl, hserves⟩ :=
    @fetches_encoded (lit "/a 5%") (List.replicate 10 0) (by decide) (by decide) (by decide) (by decide)
  have hstr : strOf url = lit "/a%205%25" := by
    have hencode : Url.urlencode (lit "/a 5%" ++ 0 :: List.replicate 10 0) =
        .ok (lit "/a%205%25" ++ List.replicate 7 0) := by
      decide +kernel
    cases hurl.symm.trans hencode
    decide
  refine ⟨url, hurl, hstr, ?_⟩
  have hshows : Shows oddFileSystem (spath (lit "/a 5%")) (.file (lit "hi")) :=
    .file rfl rfl (by decide) (by decide) (by decide) rfl rfl rfl
  have hcall : Asks (ask (lit "/a%205%25")) (lit "/a%205%25") := ask_asks (by decide)
  rw [hstr] at hserves
  exact (hserves _ _ hcall).2.2 _ hshows

end SystemFunc.Http
