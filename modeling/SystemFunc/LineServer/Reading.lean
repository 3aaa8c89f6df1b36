import SystemFunc.Wrap.Line

/-!
# The reading side of the line servers

The line servers of `internet` call `ReadLine` with the limit `1023`, one call for each line. `Fits` says that every
call of theirs finds a line it returns whole. `Partial` is a call that has read a part of its line, and `Reads` what an
answer of `read` makes of it.
-/

namespace SystemFunc.LineServer

open Buffer Wrap Lines

/-- The limit that the servers give to `ReadLine`. -/
def LINE_SIZE : Nat := 1023

/-- No line is longer than the limit, and the last one is shorter when it ends with the stream. -/
def Fits (s : List UInt8) : Prop :=
  ∀ l ∈ lines newline s, l.length ≤ LINE_SIZE ∧ (l.getLast? ≠ some newline → l.length < LINE_SIZE)

variable {line s : List UInt8}

theorem Fits.of_line (hno : newline ∉ line) (h : Fits (line ++ newline :: s)) :
    line.length + 1 ≤ LINE_SIZE ∧ Fits s := by
  unfold Fits at h
  rw [lines_cons_of_line hno] at h
  have hfirst := (h _ List.mem_cons_self).1
  rw [List.length_append] at hfirst
  exact ⟨hfirst, fun l hl => h l (List.mem_cons_of_mem _ hl)⟩

theorem Fits.of_tail (hno : newline ∉ line) (h : Fits line) : line.length < LINE_SIZE := by
  by_cases hne : line = []
  · rw [hne]
    decide
  · unfold Fits at h
    rw [lines_tail hno hne] at h
    exact (h line List.mem_cons_self).2 fun hlast => hno (List.mem_of_getLast? hlast)

/-- A line that fits is not cut. -/
theorem Fits.length_lt (hno : newline ∉ line) (h : Fits (line ++ s)) : line.length < LINE_SIZE := by
  by_cases hs : newline ∈ s
  · obtain ⟨l, t, rfl, hl⟩ := List.eq_append_cons_of_mem hs
    have hno' : newline ∉ line ++ l := by simp [hno, hl]
    rw [← List.append_assoc] at h
    have hlen := (Fits.of_line hno' h).1
    rw [List.length_append] at hlen
    omega
  · have hno' : newline ∉ line ++ s := by simp [hno, hs]
    have hlen := Fits.of_tail hno' h
    rw [List.length_append] at hlen
    omega

/-- A call of `ReadLine` that has read `line`, and goes on. -/
structure Partial (line : List UInt8) (c : LineCall) : Prop where
  ctrl : c.ctrl = .reading line.length
  buf : slice c.buf 0 line.length = line
  notMem : newline ∉ line
  fits : Fits (line ++ c.input)

/-- Before the first byte. -/
theorem Partial.start {buf : Nat → UInt8} {input : List UInt8} {slept : Nat} (h : Fits input) :
    Partial [] { LineCall.start LINE_SIZE buf input with slept := slept } :=
  ⟨rfl, rfl, nofun, h⟩

/-- What an answer of `read` makes of it: more of the line, or its end, or the end of the stream. -/
inductive Reads (line : List UInt8) (c : LineCall) (a : Answer) (d : LineCall) : Prop
  | more {line' : List UInt8} (hpart : Partial line' d) (hsplit : line ++ c.input = line' ++ d.input)
      (hprogress : line'.length = line.length + if a.interrupted then 0 else 1)
  | ends {line' : List UInt8} (hctrl : d.ctrl = .returned line'.length) (hbuf : slice d.buf 0 line'.length = line')
      (hne : line' ≠ []) (hsplit : line ++ c.input = line' ++ d.input)
      (hlines : lines newline (line ++ c.input) = line' :: lines newline d.input) (hfits : Fits d.input)
      (hlen : line.length ≤ line'.length) (hle : line'.length ≤ LINE_SIZE)
  | eof (hctrl : d.ctrl = .returned 0) (hline : line = []) (hin : c.input = []) (hin' : d.input = [])
  | failed (ha : a = .failed .other) (hctrl : d.ctrl = .exited ReadLine.headStr)

/-- The cells of a line with one byte more. -/
theorem slice_snoc {buf : Nat → UInt8} (h : slice buf 0 line.length = line) (ch : UInt8) :
    slice (store buf line.length [ch]) 0 (line ++ [ch]).length = line ++ [ch] := by
  have hstore := @slice_store _ buf 0 line.length [ch]
  rwa [Nat.zero_add, h, ← List.length_append] at hstore

theorem Partial.reads {c d : LineCall} {a : Answer} (h : Partial line c) (hs : readLine LINE_SIZE c a = some d) :
    Reads line c a d := by
  obtain ⟨index, hctrl, hmove⟩ := readLine_move hs
  obtain rfl : line.length = index := LineCtrl.reading.inj (h.ctrl.symm.trans hctrl)
  have htop : ∀ {l s : List UInt8}, newline ∉ l → Fits (l ++ s) → LineCtrl.top LINE_SIZE l.length = .reading l.length :=
    fun hno hfits => if_neg (Nat.not_le_of_lt (hfits.length_lt hno))
  cases hmove with
  | eof hin =>
    by_cases hne : line = []
    · subst hne
      exact .eof rfl rfl hin hin
    · refine .ends rfl h.buf hne rfl ?_ (hin ▸ nofun) (Nat.le_refl _) (Nat.le_of_lt (h.fits.length_lt h.notMem))
      rw [hin, List.append_nil]
      exact lines_tail h.notMem hne
  | @newline input hin =>
    have hfits := h.fits
    rw [hin] at hfits
    obtain ⟨hle, hfits⟩ := hfits.of_line h.notMem
    refine @Reads.ends _ _ _ _ (line ++ [newline]) (by simp) (slice_snoc h.buf newline) (by simp) (by simp [hin]) ?_
      hfits (by simp) (by simpa using hle)
    rw [hin]
    exact lines_cons_of_line h.notMem
  | @byte ch input hin hne =>
    have hsplit : line ++ c.input = line ++ [ch] ++ input := by simp [hin]
    have hno : newline ∉ line ++ [ch] := by simpa [h.notMem] using hne.symm
    have hfits : Fits (line ++ [ch] ++ input) := hsplit ▸ h.fits
    have hlen : (line ++ [ch]).length = line.length + 1 := by simp
    exact .more ⟨hlen ▸ htop hno hfits, slice_snoc h.buf ch, hno, hfits⟩ hsplit hlen
  | retry ha =>
    refine .more ⟨htop h.notMem h.fits, h.buf, h.notMem, h.fits⟩ rfl ?_
    rw [ha]
    rfl
  | failed => exact .failed rfl rfl

end SystemFunc.LineServer
