import Mathlib.Data.List.TakeWhile
import SystemFunc.CLang

/-!
# Arrays of `char`

An array of `char` is the list of its cells, as bytes; `char` is signed, so that the value of a cell is between `-128`
and `127` (`schar`, and `toChar` for the conversion to it). `strOf` is the string at the start of an array. Reading a
string that does not end in the array, or storing behind its last cell, is undefined.
-/

namespace SystemFunc

/-- The value of a `char`. -/
def schar (b : UInt8) : Int := if b.toNat < 128 then b.toNat else (b.toNat : Int) - 256

/-- Conversion to `char`. -/
def toChar (n : Int) : UInt8 := UInt8.ofNat (n % 256).toNat

/-- A character constant. -/
def ch (c : Char) : Int := c.toNat

/-- The bytes of an ASCII literal. -/
def lit (s : String) : List UInt8 := s.toList.map fun c => UInt8.ofNat c.toNat

@[simp] theorem toChar_toNat (b : UInt8) : toChar b.toNat = b := by
  have hb := b.toNat_lt
  have hmod : ((b.toNat : Int) % 256).toNat = b.toNat := by omega
  simp [toChar, hmod]

@[simp] theorem toChar_schar (b : UInt8) : toChar (schar b) = b := by
  have hb := b.toNat_lt
  have hmod : (schar b % 256).toNat = b.toNat := by unfold schar; omega
  simp [toChar, hmod]

/-! ## Strings -/

/-- The string at the start of an array. -/
def strOf (cells : List UInt8) : List UInt8 := cells.takeWhile (· ≠ 0)

/-- Reading the string at the start of an array. -/
def readStr (cells : List UInt8) : Except Stop (List UInt8) :=
  if 0 ∈ cells then .ok (strOf cells) else .error .undefined

/-- `res[res_len++] = b`, where `res` has `size` cells. -/
def put (size : Nat) (res : List UInt8) (b : UInt8) : Except Stop (List UInt8) :=
  if res.length < size then .ok (res ++ [b]) else .error .undefined

/-- `strcpy`. -/
def strcpy (dst src : List UInt8) : Except Stop (List UInt8) := do
  let s ← readStr src
  if s.length < dst.length then return s ++ 0 :: dst.drop (s.length + 1) else throw .undefined

/-- `sprintf` into an array of `size` cells. -/
def sprintf (size : Nat) (text : List UInt8) : Except Stop (List UInt8) :=
  if text.length < size then .ok text else .error .undefined

/-- `memcpy`. -/
def memcpy (dst src : List UInt8) (n : Nat) : Except Stop (List UInt8) :=
  if n ≤ dst.length ∧ n ≤ src.length then .ok (src.take n ++ dst.drop n) else .error .undefined

/-- `cells[i] = b`. -/
def setCell (cells : List UInt8) (i : Nat) (b : UInt8) : Except Stop (List UInt8) :=
  if i < cells.length then .ok (cells.set i b) else .error .undefined

/-- What `%d` prints. -/
def decimal : Int → List UInt8
  | .ofNat n => (Nat.toDigits 10 n).map fun c => UInt8.ofNat c.toNat
  | .negSucc n => 45 :: (Nat.toDigits 10 (n + 1)).map fun c => UInt8.ofNat c.toNat

/-- `strrchr`, as an index. -/
def strrchr (s : List UInt8) (c : UInt8) : Option Nat :=
  if c ∈ s then some (s.length - 1 - s.reverse.idxOf c) else none

variable {s rest cells : List UInt8}

theorem nul_notMem_strOf : 0 ∉ strOf cells := fun h => by simpa using List.mem_takeWhile_imp h

/-- What has no `NUL` is the start of the string. -/
theorem strOf_append (h : 0 ∉ s) : strOf (s ++ rest) = s ++ strOf rest := by
  have hall : ∀ b ∈ s, decide (b ≠ 0) = true := fun b hb => by
    have hne : b ≠ 0 := fun he => h (he ▸ hb)
    simp [hne]
  exact List.takeWhile_append_of_pos hall

theorem strOf_append_nul (h : 0 ∉ s) : strOf (s ++ 0 :: rest) = s := by
  rw [strOf_append h]
  simp [strOf]

/-- A `NUL` behind the string does not change it. -/
theorem strOf_append_singleton : strOf (s ++ [0]) = strOf s := by
  induction s with
  | nil => rfl
  | cons b s ih =>
    rw [List.cons_append, strOf, strOf, List.takeWhile_cons, List.takeWhile_cons]
    split
    · exact congrArg (b :: ·) ih
    · rfl

theorem readStr_append_nul (h : 0 ∉ s) : readStr (s ++ 0 :: rest) = .ok s := by
  simp [readStr, strOf_append_nul h]

theorem readStr_ok {r : List UInt8} : readStr cells = .ok r ↔ 0 ∈ cells ∧ r = strOf cells := by
  unfold readStr
  split <;> simp_all [eq_comm]

theorem put_ok {size : Nat} {res r : List UInt8} {b : UInt8} :
    put size res b = .ok r ↔ res.length < size ∧ r = res ++ [b] := by
  unfold put
  split <;> simp_all [eq_comm]

theorem put_bind {size : Nat} {res : List UInt8} {b : UInt8} {β : Type} (k : List UInt8 → Except Stop β) :
    put size res b >>= k = if res.length < size then k (res ++ [b]) else .error .undefined := by
  unfold put
  split <;> rfl

/-- `n` bytes and a `NUL` behind them, in an array that holds them. -/
theorem memcpy_setCell {dst src : List UInt8} {n : Nat} (hd : n < dst.length) (hs : n ≤ src.length) :
    (memcpy dst src n >>= fun cells => setCell cells n 0) = .ok (src.take n ++ 0 :: dst.drop (n + 1)) := by
  have hlen : (src.take n).length = n := List.length_take_of_le hs
  have hfits : n < (src.take n ++ dst.drop n).length := by
    rw [List.length_append, hlen, List.length_drop]
    omega
  rw [memcpy, if_pos ⟨Nat.le_of_lt hd, hs⟩, ok_bind, setCell, if_pos hfits,
    List.set_append_right n 0 (Nat.le_of_eq hlen), hlen, Nat.sub_self, List.drop_eq_getElem_cons hd, List.set_cons_zero]

/-- A decimal number has no `NUL`. -/
theorem nul_notMem_decimal (n : Int) : 0 ∉ decimal n := by
  have hdigits : ∀ n : Nat, 0 ∉ (Nat.toDigits 10 n).map fun c => UInt8.ofNat c.toNat := by
    intro n h
    obtain ⟨c, hc, hzero⟩ := List.mem_map.1 h
    have hdigit := Nat.isDigit_of_mem_toDigits (by decide) (by decide) hc
    obtain ⟨hlow, hhigh⟩ : 48 ≤ c.toNat ∧ c.toNat ≤ 57 := by simpa [Char.isDigit, UInt32.le_iff_toNat_le] using hdigit
    have hval := congrArg UInt8.toNat hzero
    rw [UInt8.toNat_ofNat_of_lt' (Nat.lt_of_le_of_lt hhigh (by decide))] at hval
    simp at hval
    omega
  cases n with
  | ofNat n => exact hdigits n
  | negSucc n => simpa [decimal] using hdigits (n + 1)

theorem strcpy_eq {dst src : List UInt8} (hs : 0 ∉ s) :
    strcpy dst (s ++ 0 :: src) =
      if s.length < dst.length then .ok (s ++ 0 :: dst.drop (s.length + 1)) else .error .undefined := by
  rw [strcpy, readStr_append_nul hs, ok_bind]
  rfl

end SystemFunc
