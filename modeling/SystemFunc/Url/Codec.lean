import SystemFunc.CString

/-!
# `useful_func/url_encode_decode.c`

`urlencode` and `urldecode` work in place, on the array that holds the string; `res` is a local array of `BURSIZE`
cells. The decoder runs over the cells, as it may look behind the end of the string.
-/

namespace SystemFunc.Url

def BURSIZE : Nat := 1024

def hex2dec (c : Int) : Int :=
  if ch '0' ≤ c ∧ c ≤ ch '9' then c - ch '0'
  else if ch 'a' ≤ c ∧ c ≤ ch 'f' then c - ch 'a' + 10
  else if ch 'A' ≤ c ∧ c ≤ ch 'F' then c - ch 'A' + 10
  else -1

def dec2hex (c : Int) : UInt8 :=
  if 0 ≤ c ∧ c ≤ 9 then toChar (c + ch '0')
  else if 10 ≤ c ∧ c ≤ 15 then toChar (c + ch 'A' - 10)
  else toChar (-1)

/-- The characters that are kept. -/
def kept (c : Int) : Prop :=
  (ch '0' ≤ c ∧ c ≤ ch '9') ∨ (ch 'a' ≤ c ∧ c ≤ ch 'z') ∨ (ch 'A' ≤ c ∧ c ≤ ch 'Z') ∨ c = ch '/' ∨ c = ch '.'

instance (c : Int) : Decidable (kept c) := by unfold kept; infer_instance

/-- The loop of `urlencode`, over the string. -/
def encodeLoop : List UInt8 → List UInt8 → Except Stop (List UInt8)
  | [], res => .ok res
  | b :: url, res => do
    let c := schar b
    if kept c then
      let res ← put BURSIZE res b
      encodeLoop url res
    else
      let j := if c < 0 then c + 256 else c
      let i1 := j / 16
      let i0 := j - i1 * 16
      let res ← put BURSIZE res (toChar (ch '%'))
      let res ← put BURSIZE res (dec2hex i1)
      let res ← put BURSIZE res (dec2hex i0)
      encodeLoop url res

def urlencode (url : List UInt8) : Except Stop (List UInt8) := do
  let s ← readStr url
  let res ← encodeLoop s []
  let res ← put BURSIZE res 0
  strcpy url res

/-- The loop of `urldecode`, over the cells from `i` on; `n` is `len - i`. -/
def decodeLoop : List UInt8 → Nat → List UInt8 → Except Stop (List UInt8)
  | _, 0, res => .ok res
  | [], _ + 1, _ => .error .undefined
  | b :: cells, n + 1, res =>
    if schar b ≠ ch '%' then do
      let res ← put BURSIZE res b
      decodeLoop cells n res
    else
      match cells with
      | c1 :: c0 :: cells => do
        let num := hex2dec (schar c1) * 16 + hex2dec (schar c0)
        let res ← put BURSIZE res (toChar num)
        decodeLoop cells (n - 2) res
      | _ => .error .undefined

def urldecode (url : List UInt8) : Except Stop (List UInt8) := do
  let s ← readStr url
  let res ← decodeLoop url s.length []
  let res ← put BURSIZE res 0
  strcpy url res

end SystemFunc.Url
