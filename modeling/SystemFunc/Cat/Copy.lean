import SystemFunc.CString

/-!
# `io_func/my_cat.c`

The loop of `main` reads to the start of `buff` and writes the string that is there then, whatever `read` returned. The
string ends at the first `NUL` of the piece, or with what a longer piece has left behind it, or not in `buff` at all.

- `out_text`: what is written has no `NUL`, so that one of the input is lost;
- `out_length_le`: without one, each `write` takes the piece at least;
- `copies_iff`: when what is written is the input.
-/

namespace SystemFunc.Cat

def BUFF_SIZE : Nat := 1024

/-- What `write` answers: it fails, or it takes all but so many bytes. -/
inductive WriteAnswer where
  | failed
  | wrote (missing : Nat)

/-- What `read` stores, if it does not fail, and then what `write` answers. -/
structure Pass where
  piece : Option (List UInt8)
  write : WriteAnswer

/-- `out` is what has been written. -/
structure State where
  buff : List UInt8
  out : List UInt8

def State.start : State := ⟨List.replicate BUFF_SIZE 0, []⟩

/-- `read` to the start of `buff`; nothing is stored where it fails, and the loop goes on. -/
def State.read (s : State) : Option (List UInt8) → Except Stop State
  | none => .ok s
  | some piece =>
    if 1 ≤ piece.length ∧ piece.length ≤ BUFF_SIZE then .ok { s with buff := piece ++ s.buff.drop piece.length }
    else .error .disabled

/-- `write(fdOut, buff, strlen(buff))`. -/
def State.write (s : State) (a : WriteAnswer) : Except Stop State := do
  let text ← readStr s.buff
  match a with
  | .failed => .error (.exit 0 "write error")
  | .wrote missing => return { s with out := s.out ++ text.take (text.length - missing) }

def State.pass (s : State) (p : Pass) : Except Stop State := do
  let s ← s.read p.piece
  s.write p.write

/-- The loop, up to the `read` that returns `0`. -/
def loop : State → List Pass → Except Stop State
  | s, [] => .ok s
  | s, p :: ps => do
    let s ← s.pass p
    loop s ps

/-- `read` delivers a piece, and `write` takes everything. -/
def delivered (piece : List UInt8) : Pass := ⟨some piece, .wrote 0⟩

/-- What is written is the input, which `read` delivers in these pieces. -/
def Copies (pieces : List (List UInt8)) : Prop :=
  ∃ s, loop .start (pieces.map delivered) = .ok s ∧ s.out = pieces.flatten

/-- A piece, as `read` delivers it. -/
def Piece (piece : List UInt8) : Prop := 1 ≤ piece.length ∧ piece.length ≤ BUFF_SIZE

variable {s t : State} {piece w : List UInt8} {pieces : List (List UInt8)}

/-! ## What is written -/

/-- A pass that comes to its end writes the string in `buff`. -/
theorem pass_delivered (h : Piece piece) : s.pass (delivered piece) = .ok t ↔
    0 ∈ piece ++ s.buff.drop piece.length ∧
      t = ⟨piece ++ s.buff.drop piece.length, s.out ++ strOf (piece ++ s.buff.drop piece.length)⟩ := by
  have hread : s.read (some piece) = .ok { s with buff := piece ++ s.buff.drop piece.length } := if_pos h
  rw [State.pass, delivered, hread, ok_bind, State.write, bind_eq_ok]
  simp only [readStr_ok, Nat.sub_zero, List.take_length]
  constructor
  · rintro ⟨text, ⟨hnul, rfl⟩, ht⟩
    exact ⟨hnul, (Except.ok.inj ht).symm⟩
  · rintro ⟨hnul, rfl⟩
    exact ⟨_, ⟨hnul, rfl⟩, rfl⟩

/-- What is written has no `NUL`. -/
theorem out_text (hpieces : ∀ piece ∈ pieces, Piece piece) (h : loop s (pieces.map delivered) = .ok t) :
    ∃ text, t.out = s.out ++ text ∧ 0 ∉ text := by
  induction pieces generalizing s with
  | nil =>
    cases h
    exact ⟨[], (List.append_nil _).symm, List.not_mem_nil⟩
  | cons piece pieces ih =>
    obtain ⟨u, hu, ht⟩ := bind_eq_ok.1 h
    obtain ⟨hpiece, hpieces⟩ := List.forall_mem_cons.1 hpieces
    obtain ⟨-, rfl⟩ := (pass_delivered hpiece).1 hu
    obtain ⟨text, hout, htext⟩ := ih hpieces ht
    refine ⟨strOf (piece ++ s.buff.drop piece.length) ++ text, by rw [hout, List.append_assoc], ?_⟩
    rw [List.mem_append, not_or]
    exact ⟨nul_notMem_strOf, htext⟩

/-- Without a `NUL` in the input, at least as much is written as was read. -/
theorem out_length_le (hpieces : ∀ piece ∈ pieces, Piece piece) (hnul : 0 ∉ pieces.flatten)
    (h : loop s (pieces.map delivered) = .ok t) : s.out.length + pieces.flatten.length ≤ t.out.length := by
  induction pieces generalizing s with
  | nil =>
    cases h
    exact Nat.le_refl _
  | cons piece pieces ih =>
    obtain ⟨u, hu, ht⟩ := bind_eq_ok.1 h
    obtain ⟨hpiece, hpieces⟩ := List.forall_mem_cons.1 hpieces
    rw [List.flatten_cons, List.mem_append, not_or] at hnul
    obtain ⟨-, rfl⟩ := (pass_delivered hpiece).1 hu
    have hle := ih hpieces hnul.2 ht
    rw [strOf_append hnul.1, List.length_append, List.length_append] at hle
    rw [List.flatten_cons, List.length_append]
    omega

/-! ## When it is the input -/

/-- `buff` holds the last piece and zeros. -/
def Clean (w : List UInt8) (s : State) : Prop :=
  0 ∉ w ∧ w.length < BUFF_SIZE ∧ s.buff = w ++ List.replicate (BUFF_SIZE - w.length) 0

/-- No piece is shorter than one before it, from `w` on, and none fills `buff`. -/
def Growing (w : List UInt8) (pieces : List (List UInt8)) : Prop :=
  (w :: pieces).Pairwise (fun p q => p.length ≤ q.length) ∧ ∀ piece ∈ pieces, piece.length < BUFF_SIZE

theorem Clean.drop (h : Clean w s) (k : Nat) :
    s.buff.drop k = w.drop k ++ List.replicate (BUFF_SIZE - w.length - (k - w.length)) 0 := by
  rw [h.2.2, List.drop_append, List.drop_replicate]

/-- What a longer piece has left behind a shorter one is written again. -/
theorem Clean.strOf_drop (h : Clean w s) (k : Nat) : strOf (s.buff.drop k) = w.drop k := by
  have hnul : 0 ∉ w.drop k := fun hmem => h.1 (List.mem_of_mem_drop hmem)
  have hzeros : strOf (List.replicate (BUFF_SIZE - w.length - (k - w.length)) 0) = [] := by
    rw [strOf, List.takeWhile_replicate]
    rfl
  rw [h.drop, strOf_append hnul, hzeros, List.append_nil]

/-- The string ends in `buff`, unless the piece fills it. -/
theorem Clean.nul_mem (h : Clean w s) (hnul : 0 ∉ piece) :
    0 ∈ piece ++ s.buff.drop piece.length ↔ piece.length < BUFF_SIZE := by
  have hdrop : 0 ∉ w.drop piece.length := fun hmem => h.1 (List.mem_of_mem_drop hmem)
  have hlen := h.2.1
  rw [h.drop, List.mem_append, List.mem_append, or_iff_right hnul, or_iff_right hdrop, List.mem_replicate,
    and_iff_left rfl]
  omega

/-- A piece that is not shorter leaves `buff` clean. -/
theorem Clean.grow (h : Clean w s) (hnul : 0 ∉ piece) (hle : w.length ≤ piece.length)
    (hlt : piece.length < BUFF_SIZE) (out : List UInt8) :
    Clean piece ⟨piece ++ s.buff.drop piece.length, out⟩ := by
  refine ⟨hnul, hlt, ?_⟩
  have hcount : BUFF_SIZE - w.length - (piece.length - w.length) = BUFF_SIZE - piece.length := by omega
  dsimp only
  rw [h.drop, List.drop_eq_nil_of_le hle, hcount, List.nil_append]

theorem growing_cons : Growing w (piece :: pieces) ↔
    w.length ≤ piece.length ∧ piece.length < BUFF_SIZE ∧ Growing piece pieces := by
  simp only [Growing, List.pairwise_cons, List.forall_mem_cons]
  constructor
  · rintro ⟨⟨⟨hle, -⟩, hrest⟩, hlt, hfits⟩
    exact ⟨hle, hlt, hrest, hfits⟩
  · rintro ⟨hle, hlt, hrest, hfits⟩
    exact ⟨⟨⟨hle, fun q hq => Nat.le_trans hle (hrest.1 q hq)⟩, hrest⟩, hlt, hfits⟩

/-- **From a clean buffer**: the rest of an input without `NUL` is written exactly when its pieces grow. -/
theorem loop_copies_iff (hpieces : ∀ piece ∈ pieces, Piece piece) (hnul : 0 ∉ pieces.flatten) (hclean : Clean w s) :
    (∃ t, loop s (pieces.map delivered) = .ok t ∧ t.out = s.out ++ pieces.flatten) ↔ Growing w pieces := by
  induction pieces generalizing s w with
  | nil =>
    refine iff_of_true ⟨s, rfl, (List.append_nil _).symm⟩ ⟨List.pairwise_singleton _ _, ?_⟩
    exact fun q hq => absurd hq List.not_mem_nil
  | cons piece pieces ih =>
    obtain ⟨hpiece, hrest⟩ := List.forall_mem_cons.1 hpieces
    rw [List.flatten_cons, List.mem_append, not_or] at hnul
    have hwritten : strOf (piece ++ s.buff.drop piece.length) = piece ++ w.drop piece.length := by
      rw [strOf_append hnul.1, hclean.strOf_drop]
    rw [growing_cons]
    constructor
    · rintro ⟨t, hloop, hout⟩
      obtain ⟨u, hu, ht⟩ := bind_eq_ok.1 hloop
      obtain ⟨hmem, rfl⟩ := (pass_delivered hpiece).1 hu
      have hlt := (hclean.nul_mem hnul.1).1 hmem
      -- more would be written than was read, if the piece were shorter than `w`
      have hlen := out_length_le hrest hnul.2 ht
      rw [hout, hwritten] at hlen
      simp only [List.length_append, List.flatten_cons, List.length_drop] at hlen
      have hle : w.length ≤ piece.length := by omega
      refine ⟨hle, hlt, (ih hrest hnul.2 (hclean.grow hnul.1 hle hlt _)).1 ⟨t, ht, ?_⟩⟩
      dsimp only
      rw [hout, hwritten, List.drop_eq_nil_of_le hle, List.append_nil, List.flatten_cons, List.append_assoc]
    · rintro ⟨hle, hlt, hgrow⟩
      have hpass := (pass_delivered hpiece).2 ⟨(hclean.nul_mem hnul.1).2 hlt, rfl⟩
      obtain ⟨t, ht, hout⟩ := (ih hrest hnul.2 (hclean.grow hnul.1 hle hlt _)).2 hgrow
      refine ⟨t, bind_eq_ok.2 ⟨_, hpass, ht⟩, ?_⟩
      rw [hout, hwritten, List.drop_eq_nil_of_le hle, List.append_nil, List.flatten_cons, List.append_assoc]

/-- **`my_cat` copies its input** exactly when it has no `NUL`, and `read` delivers it in pieces that do not fill
`buff` and never become shorter. -/
theorem copies_iff (hpieces : ∀ piece ∈ pieces, Piece piece) : Copies pieces ↔
    0 ∉ pieces.flatten ∧ pieces.Pairwise (fun p q => p.length ≤ q.length) ∧
      ∀ piece ∈ pieces, piece.length < BUFF_SIZE := by
  have hclean : Clean [] .start := ⟨List.not_mem_nil, by decide, rfl⟩
  have hgrow : Growing [] pieces ↔ pieces.Pairwise (fun p q => p.length ≤ q.length) ∧
      ∀ piece ∈ pieces, piece.length < BUFF_SIZE := by
    have hzero : ∀ piece ∈ pieces, ([] : List UInt8).length ≤ piece.length := fun piece _ => Nat.zero_le _
    rw [Growing, List.pairwise_cons, and_iff_right hzero]
  rw [← hgrow]
  constructor
  · rintro ⟨t, hloop, hout⟩
    obtain ⟨text, htext, hnul⟩ := out_text hpieces hloop
    obtain rfl : pieces.flatten = text := hout.symm.trans htext
    exact ⟨hnul, (loop_copies_iff hpieces hnul hclean).1 ⟨t, hloop, hout⟩⟩
  · rintro ⟨hnul, hgrow⟩
    exact (loop_copies_iff hpieces hnul hclean).2 hgrow

theorem copies_iff_lines : Copies [[97, 10], [98, 99, 10]] := by
  refine (copies_iff ?_).2 ?_
  · unfold Piece
    decide
  · decide

/-- `ab` and then `c` are written as `ab` and `cb`. -/
theorem copies_stale : (∀ piece ∈ [[97, 98], [99]], Piece piece) ∧ ¬Copies [[97, 98], [99]] := by
  have hclean : Clean [] .start := ⟨List.not_mem_nil, by decide, rfl⟩
  have hpieces : ∀ piece ∈ [[97, 98], [99]], Piece piece := by
    unfold Piece
    decide
  refine ⟨hpieces, fun hcopies => ?_⟩
  have hgrow := (loop_copies_iff hpieces (by decide) hclean).1 hcopies
  have hle := (growing_cons.1 (growing_cons.1 hgrow).2.2).1
  exact absurd hle (by decide)

end SystemFunc.Cat
