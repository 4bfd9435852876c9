import Mathlib.Tactic.Zify
import Mathlib.Tactic.Positivity
import Mathlib.Tactic.Ring

/-!
# Integers as bytes

Naturals and two's-complement integers as fixed numbers of bytes, least significant first.

* `encode`, `decode`: a natural below `256 ^ k` as `k` bytes, and back (`decode_encode`).
* `encodeInt`, `decodeInt`: an integer of `8 * k` bits, with a sign, and back
  (`decodeInt_encodeInt`).
-/

namespace LittleEndian

/-! ## Naturals -/

/-- The `k` low bytes of `n`. -/
def encode : Nat → Nat → List UInt8
  | 0, _ => []
  | k + 1, n => UInt8.ofNat n :: encode k (n / 256)

/-- The natural that the bytes stand for. -/
def decode : List UInt8 → Nat
  | [] => 0
  | b :: bs => b.toNat + 256 * decode bs

/-- The encoding has as many bytes as asked for. -/
@[simp] theorem length_encode (k n : Nat) : (encode k n).length = k := by
  induction k generalizing n with
  | zero => rfl
  | succ k ih => rw [encode, List.length_cons, ih]

/-- Bytes keep a natural up to the higher bytes that are cut off. -/
theorem decode_encode (k n : Nat) : decode (encode k n) = n % 256 ^ k := by
  induction k generalizing n with
  | zero => simp [encode, decode, Nat.mod_one]
  | succ k ih =>
      have hbyte : (UInt8.ofNat n).toNat = n % 256 := by simp
      rw [encode, decode, ih, hbyte, Nat.pow_succ', Nat.mod_mul]

/-- So many bytes stand for no more than that. -/
theorem decode_lt (bs : List UInt8) : decode bs < 256 ^ bs.length := by
  induction bs with
  | nil => exact Nat.one_pos
  | cons b bs ih =>
      have hbyte := b.toNat_lt
      rw [decode, List.length_cons, Nat.pow_succ']
      omega

/-- Bytes keep a natural that fits. -/
theorem decode_encode_of_lt {k n : Nat} (h : n < 256 ^ k) : decode (encode k n) = n := by
  rw [decode_encode, Nat.mod_eq_of_lt h]

/-! ## Integers -/

/-- The `k` low bytes of the two's complement of `z`. -/
def encodeInt (k : Nat) (z : Int) : List UInt8 :=
  encode k (z % 256 ^ k).toNat

/-- The integer whose two's complement the bytes are. -/
def decodeInt (bs : List UInt8) : Int :=
  (decode bs : Int).bmod (256 ^ bs.length)

/-- The encoding of a signed number has as many bytes as asked for. -/
@[simp] theorem length_encodeInt (k : Nat) (z : Int) : (encodeInt k z).length = k :=
  length_encode _ _

/-- Bytes keep an integer that fits, sign included. -/
theorem decodeInt_encodeInt {k : Nat} {z : Int} (hlo : -(256 ^ k : Int) ≤ 2 * z)
    (hhi : 2 * z < 256 ^ k) : decodeInt (encodeInt k z) = z := by
  have hpos : (0 : Int) < 256 ^ k := by positivity
  have hnn := Int.emod_nonneg z hpos.ne'
  have hlt := Int.emod_lt_of_pos z hpos
  have hfit : (z % 256 ^ k).toNat < 256 ^ k := by
    zify
    rw [Int.toNat_of_nonneg hnn]
    exact hlt
  unfold decodeInt encodeInt
  rw [decode_encode_of_lt hfit, length_encode, Int.toNat_of_nonneg hnn]
  have hcast : (256 ^ k : Int) = ((256 ^ k : Nat) : Int) := by push_cast; rfl
  rw [hcast, Int.emod_bmod]
  apply Int.bmod_eq_of_le_mul_two
  · rw [← hcast]; omega
  · rw [← hcast]; omega

end LittleEndian
