import Mathlib.Data.Nat.Notation
import Mathlib.Algebra.Order.Ring.Nat

/-!
# Little-endian words

`encode k n` are the `k` bytes of `n`, the least significant one first, and `decode` is the number of some bytes.

- `decode_encode`: a number below `256 ^ k` is found again.
-/

namespace LittleEndian

def encode : Nat → Nat → List UInt8
  | 0, _ => []
  | k + 1, n => UInt8.ofNat n :: encode k (n / 256)

def decode : List UInt8 → Nat
  | [] => 0
  | b :: bs => b.toNat + 256 * decode bs

@[simp] theorem encode_length (k n : Nat) : (encode k n).length = k := by
  induction k generalizing n with
  | zero => rfl
  | succ k ih => simp [encode, ih]

theorem decode_encode {k n : Nat} (h : n < 256 ^ k) : decode (encode k n) = n := by
  induction k generalizing n with
  | zero => simp [encode, decode]; omega
  | succ k ih =>
    have hdiv : n / 256 < 256 ^ k := by rw [pow_succ] at h; omega
    simp only [encode, decode, ih hdiv, UInt8.toNat_ofNat']
    omega

end LittleEndian
