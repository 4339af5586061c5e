import Mathlib.Algebra.Group.Nat.Defs
import Mathlib.Data.List.Induction

/-
  Big-endian byte strings of a fixed width.

  `encode w n` writes the `w` least significant bytes of a
  natural number, most significant byte first; `decode`
  reads any byte string back.

  Main declarations:
    * `BigEndian.encode`
    * `BigEndian.decode`
    * `BigEndian.encode_add`
    * `BigEndian.decode_encode`
    * `BigEndian.encode_decode`
-/

------------------------------------------------------------
-- Encoding and Decoding
------------------------------------------------------------

namespace BigEndian

/- The `w` least significant bytes, highest byte first. -/
def encode : Nat → Nat → List UInt8
| 0, _ => []
| w + 1, n =>
    encode w (n / 256) ++ [UInt8.ofNat n]

/- The number a byte string denotes. -/
def decode (bytes : List UInt8) : Nat :=
  bytes.foldl (fun acc b => acc * 256 + b.toNat) 0

@[simp] theorem length_encode
    (w n : Nat) :
    (encode w n).length = w := by
  induction w generalizing n with
  | zero => rfl
  | succ w ih => simp [encode, ih]

/- The upper bytes stand before the lower ones. -/
theorem encode_add (v w n : Nat) :
    encode (v + w) n = encode v (n / 256 ^ w) ++ encode w n := by
  induction w generalizing n with
  | zero => simp [encode]
  | succ w ih =>
      rw [← Nat.add_assoc, encode, encode, ih,
        Nat.div_div_eq_div_mul, Nat.pow_succ,
        Nat.mul_comm 256, List.append_assoc]

@[simp] theorem decode_nil :
    decode [] = 0 := rfl

theorem decode_snoc
    (bytes : List UInt8)
    (b : UInt8) :
    decode (bytes ++ [b]) =
      decode bytes * 256 + b.toNat := by
  simp [decode]

------------------------------------------------------------
-- Round Trips
------------------------------------------------------------

theorem decode_encode_mod
    (w n : Nat) :
    decode (encode w n) = n % 256 ^ w := by
  induction w generalizing n with
  | zero => simp [encode, Nat.mod_one]
  | succ w ih =>
      rw [encode, decode_snoc, ih]
      have hByte :
          (UInt8.ofNat n).toNat = n % 256 := by
        simp
      rw [hByte, Nat.pow_succ, Nat.mul_comm (256 ^ w),
        Nat.mod_mul]
      omega

/- A number that fits the width is read back. -/
theorem decode_encode
    {w n : Nat}
    (hFits : n < 256 ^ w) :
    decode (encode w n) = n := by
  rw [decode_encode_mod, Nat.mod_eq_of_lt hFits]

/- Every byte string is the encoding of its value. -/
theorem encode_decode
    (bytes : List UInt8) :
    encode bytes.length (decode bytes) = bytes := by
  induction bytes using List.reverseRecOn with
  | nil => rfl
  | append_singleton bytes b ih =>
      have hLow :
          UInt8.ofNat (decode bytes * 256 + b.toNat) =
            b := by
        apply UInt8.toNat_inj.mp
        have hb := b.toNat_lt
        simp only [UInt8.toNat_ofNat']
        omega
      have hHigh :
          (decode bytes * 256 + b.toNat) / 256 =
            decode bytes := by
        have hb := b.toNat_lt
        omega
      rw [List.length_append, List.length_singleton,
        decode_snoc, encode, hHigh, hLow, ih]

/- Decoding never exceeds the width. -/
theorem decode_lt
    (bytes : List UInt8) :
    decode bytes < 256 ^ bytes.length := by
  rw [← encode_decode bytes, decode_encode_mod,
    length_encode]
  exact Nat.mod_lt _ (Nat.pow_pos (by decide))

end BigEndian
