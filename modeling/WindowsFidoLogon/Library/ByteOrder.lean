import Mathlib.Algebra.Ring.Nat
import Mathlib.Data.List.Basic

/-!
# Numbers in bytes

A number in a fixed count of bytes, least or most significant byte first.  Writing
and reading are inverse to each other, for numbers that fit and for all bytes.
-/

namespace ByteOrder

/-- The `count` lowest bytes of a number, least significant first. -/
def littleEndian : Nat → Nat → List UInt8
  | 0, _ => []
  | count + 1, n => UInt8.ofNat n :: littleEndian count (n / 256)

/-- The number that bytes hold, least significant first. -/
def ofLittleEndian : List UInt8 → Nat
  | [] => 0
  | b :: rest => b.toNat + 256 * ofLittleEndian rest

def bigEndian (count n : Nat) : List UInt8 :=
  (littleEndian count n).reverse

def ofBigEndian (bytes : List UInt8) : Nat :=
  ofLittleEndian bytes.reverse

@[simp] theorem length_littleEndian (count n : Nat) : (littleEndian count n).length = count := by
  induction count generalizing n with
  | zero => rfl
  | succ count ih => rw [littleEndian, List.length_cons, ih]

@[simp] theorem length_bigEndian (count n : Nat) : (bigEndian count n).length = count := by
  simp [bigEndian]

/-- Reading gives what was written, up to what does not fit. -/
theorem ofLittleEndian_littleEndian (count n : Nat) :
    ofLittleEndian (littleEndian count n) = n % 256 ^ count := by
  induction count generalizing n with
  | zero => simp [littleEndian, ofLittleEndian, Nat.mod_one]
  | succ count ih =>
      have hByte : (UInt8.ofNat n).toNat = n % 256 := UInt8.toNat_ofNat'
      rw [littleEndian, ofLittleEndian, ih, hByte, Nat.pow_succ, Nat.mul_comm _ 256, Nat.mod_mul]

theorem ofLittleEndian_of_lt {count n : Nat} (h : n < 256 ^ count) :
    ofLittleEndian (littleEndian count n) = n := by
  rw [ofLittleEndian_littleEndian, Nat.mod_eq_of_lt h]

/-- Bytes are the only writing of their number. -/
theorem littleEndian_ofLittleEndian (bytes : List UInt8) :
    littleEndian bytes.length (ofLittleEndian bytes) = bytes := by
  induction bytes with
  | nil => rfl
  | cons b rest ih =>
      have hb := b.toNat_lt
      have hHead : UInt8.ofNat (b.toNat + 256 * ofLittleEndian rest) = b := by
        apply UInt8.toNat_inj.mp
        rw [UInt8.toNat_ofNat']
        omega
      have hTail : (b.toNat + 256 * ofLittleEndian rest) / 256 = ofLittleEndian rest := by omega
      rw [List.length_cons, ofLittleEndian, littleEndian, hHead, hTail, ih]

theorem ofBigEndian_of_lt {count n : Nat} (h : n < 256 ^ count) :
    ofBigEndian (bigEndian count n) = n := by
  rw [ofBigEndian, bigEndian, List.reverse_reverse, ofLittleEndian_of_lt h]

theorem bigEndian_ofBigEndian (bytes : List UInt8) :
    bigEndian bytes.length (ofBigEndian bytes) = bytes := by
  have hReverse := littleEndian_ofLittleEndian bytes.reverse
  rw [List.length_reverse] at hReverse
  rw [bigEndian, ofBigEndian, hReverse, List.reverse_reverse]

end ByteOrder
