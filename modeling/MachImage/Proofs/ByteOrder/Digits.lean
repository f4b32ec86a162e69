import Mathlib.Algebra.Group.Nat.Defs
import Mathlib.Data.Nat.Notation
import MachImage.ByteOrder

/-! # Numbers and their bytes

`ByteOrder.bytes` and `ByteOrder.value` undo each other: `bytes_value` holds of all bytes, and
`value_bytes` of every number that fits its bytes.

A number is written in base 256, one byte for each digit, and the byte order says which digit
stands where.  `ByteOrder.Encodes` says this of a number and its bytes, digit by digit and
without an encoder or a decoder.  Every row of bytes encodes just one number
(`ByteOrder.encodes_iff`). -/

namespace MachImage.ByteOrder

/-! ### Back and forth -/

@[simp] theorem length_littleBytes (count n : ℕ) : (littleBytes count n).length = count := by
  induction count generalizing n with
  | zero => rfl
  | succ count ih => simp [littleBytes, ih]

@[simp] theorem length_bytes (order : ByteOrder) (count n : ℕ) :
    (order.bytes count n).length = count := by
  cases order <;> simp [bytes, length_littleBytes]

theorem littleValue_lt (bytes : List UInt8) : littleValue bytes < 256 ^ bytes.length := by
  induction bytes with
  | nil => simp [littleValue]
  | cons b rest ih =>
    have hb : b.toNat < 256 := b.toNat_lt
    simp only [littleValue, List.length_cons, Nat.pow_succ]
    omega

theorem value_lt (order : ByteOrder) (bytes : List UInt8) :
    order.value bytes < 256 ^ bytes.length := by
  cases order with
  | little => exact littleValue_lt bytes
  | big =>
    rw [← List.length_reverse]
    exact littleValue_lt bytes.reverse

/-- Bytes are spelled again by the number that they spell, with the lowest one first. -/
theorem littleBytes_littleValue (bytes : List UInt8) :
    littleBytes bytes.length (littleValue bytes) = bytes := by
  induction bytes with
  | nil => rfl
  | cons b rest ih =>
    have hb : b.toNat < 256 := b.toNat_lt
    have hdiv : (b.toNat + 256 * littleValue rest) / 256 = littleValue rest := by omega
    simp only [List.length_cons, littleValue, littleBytes, hdiv, ih, List.cons.injEq, and_true]
    apply UInt8.toNat.inj
    simp

/-- The lowest bytes of a number spell its remainder. -/
theorem littleValue_littleBytes (count n : ℕ) :
    littleValue (littleBytes count n) = n % 256 ^ count := by
  induction count generalizing n with
  | zero => simp [littleBytes, littleValue, Nat.mod_one]
  | succ count ih =>
    simp only [littleBytes, littleValue, ih, Nat.pow_succ']
    rw [Nat.mod_mul]
    simp

theorem bytes_value (order : ByteOrder) (bs : List UInt8) :
    order.bytes bs.length (order.value bs) = bs := by
  cases order with
  | little => exact littleBytes_littleValue bs
  | big =>
    have h := littleBytes_littleValue bs.reverse
    rw [List.length_reverse] at h
    simp [bytes, value, h]

theorem value_bytes (order : ByteOrder) {count n : ℕ} (h : n < 256 ^ count) :
    order.value (order.bytes count n) = n := by
  cases order <;> simp [bytes, value, littleValue_littleBytes, Nat.mod_eq_of_lt h]

/-! ### Digits -/

/-- Which digit of a number the byte at `position` is, of `count` bytes in all.  The digit 0 is
the lowest one. -/
def digit (order : ByteOrder) (count position : ℕ) : ℕ :=
  match order with
  | little => position
  | big => count - 1 - position

/-- The bytes are the digits of the number in base 256, and it has no more. -/
structure Encodes (order : ByteOrder) (n : ℕ) (bytes : List UInt8) : Prop where
  lt : n < 256 ^ bytes.length
  digits : ∀ (position : ℕ) (h : position < bytes.length),
    bytes[position].toNat = n / 256 ^ order.digit bytes.length position % 256

variable {order : ByteOrder} {bytes : List UInt8} {n : ℕ}

theorem getElem_littleBytes (count n : ℕ) {position : ℕ}
    (h : position < (littleBytes count n).length) :
    (littleBytes count n)[position] = UInt8.ofNat (n / 256 ^ position) := by
  induction count generalizing n position with
  | zero => cases h
  | succ count ih =>
      cases position with
      | zero => simp [littleBytes]
      | succ position =>
          simp only [littleBytes, List.getElem_cons_succ, ih, Nat.div_div_eq_div_mul,
            Nat.pow_succ']

theorem getElem_bytes (order : ByteOrder) (count n : ℕ) {position : ℕ}
    (h : position < (order.bytes count n).length) :
    (order.bytes count n)[position] = UInt8.ofNat (n / 256 ^ order.digit count position) := by
  cases order with
  | little => exact getElem_littleBytes count n h
  | big =>
      simp only [bytes, digit, List.getElem_reverse, getElem_littleBytes, length_littleBytes]

theorem Encodes.bytes_eq (h : order.Encodes n bytes) : order.bytes bytes.length n = bytes := by
  refine List.ext_getElem (length_bytes order _ _) fun position hleft hright => ?_
  rw [getElem_bytes, ← UInt8.toNat_inj, h.digits position hright]
  exact UInt8.toNat_ofNat'

/-- Bytes encode the number that is decoded from them, and no other one. -/
theorem encodes_iff : order.Encodes n bytes ↔ order.value bytes = n := by
  constructor
  · intro h
    rw [← value_bytes order h.lt, h.bytes_eq]
  · rintro rfl
    refine ⟨order.value_lt bytes, fun position h => ?_⟩
    have hposition : position < (order.bytes bytes.length (order.value bytes)).length := by
      rwa [length_bytes]
    have hbyte : (order.bytes bytes.length (order.value bytes))[position] = bytes[position] := by
      simp only [order.bytes_value bytes]
    rw [← hbyte, getElem_bytes]
    exact UInt8.toNat_ofNat'

end MachImage.ByteOrder
