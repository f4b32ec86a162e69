import Mathlib.Data.Nat.Notation
import MachImage.Proofs.ByteOrder.Digits
import MachImage.Proofs.Decoder.Run
import MachImage.Proofs.Decoder.Spelling

/-! # Exact numbers

A `NumberField` is a number that is read in one piece.  They are all read in the same way
(`NumberField.decode_apply`): if all of its bytes are there, the field gives the one value that
they encode, and else it names the bytes that it wanted (`NumberField.decode_exact`). -/

namespace MachImage

theorem Input.number?_of_le {input : Input} {order : ByteOrder} {offset length : ℕ}
    (h : offset + length ≤ input.size) :
    input.number? order offset length = some (order.value (input.range offset length)) := by
  rw [number?, window?, if_pos h]
  rfl

/-! ### Fields -/

/-- A number that is read in one piece. -/
inductive NumberField where
  | u8
  | u16
  | u32
  | u64
  /-- An address-sized number. -/
  | word (width : Width)

namespace NumberField

def size : NumberField → ℕ
  | u8 => 1
  | u16 => 2
  | u32 => 4
  | u64 => 8
  | word width => width.bytes

/-- The type of the number.  An address-sized one has the type of the widest. -/
def Value : NumberField → Type
  | u8 => UInt8
  | u16 => UInt16
  | u32 => UInt32
  | u64 | word _ => UInt64

def toNat : (field : NumberField) → field.Value → ℕ
  | u8 => UInt8.toNat
  | u16 => UInt16.toNat
  | u32 => UInt32.toNat
  | u64 | word _ => UInt64.toNat

def ofNat : (field : NumberField) → ℕ → field.Value
  | u8 => UInt8.ofNat
  | u16 => UInt16.ofNat
  | u32 => UInt32.ofNat
  | u64 | word _ => UInt64.ofNat

def decode : (field : NumberField) → Decoder field.Value
  | u8 => Decoder.u8
  | u16 => Decoder.u16
  | u32 => Decoder.u32
  | u64 => Decoder.u64
  | word width => Decoder.word width

variable (field : NumberField)

theorem ofNat_toNat (value : field.Value) : field.ofNat (field.toNat value) = value := by
  cases field with
  | u8 => exact UInt8.ofNat_toNat
  | u16 => exact UInt16.ofNat_toNat
  | u32 => exact UInt32.ofNat_toNat
  | u64 | word width => exact UInt64.ofNat_toNat

theorem toNat_ofNat {n : ℕ} (h : n < 256 ^ field.size) : field.toNat (field.ofNat n) = n := by
  cases field with
  | u8 => exact UInt8.toNat_ofNat_of_lt' h
  | u16 => exact UInt16.toNat_ofNat_of_lt' h
  | u32 => exact UInt32.toNat_ofNat_of_lt' h
  | u64 => exact UInt64.toNat_ofNat_of_lt' h
  | word width =>
      have hlt : n < UInt64.size := by
        cases width with
        | bits32 => exact Nat.lt_trans h (by decide)
        | bits64 => exact h
      exact UInt64.toNat_ofNat_of_lt' hlt

theorem decode_eq :
    field.decode = Decoder.number field.size >>= fun n => pure (field.ofNat n) := by
  cases field <;> rfl

theorem decode_apply (input : Input) (c : Cursor) :
    field.decode input c = match input.number? c.order c.position field.size with
      | some n => .ok (field.ofNat n) { c with position := c.position + field.size }
      | none =>
        .error (.truncated c.position field.size) { c with position := input.size } := by
  rw [decode_eq, Decoder.bind_apply, Decoder.number_apply]
  cases input.number? c.order c.position field.size <;> rfl

theorem encodes_toNat_iff {order : ByteOrder} {bytes : List UInt8}
    (h : bytes.length = field.size) (value : field.Value) :
    order.Encodes (field.toNat value) bytes ↔ value = field.ofNat (order.value bytes) := by
  rw [ByteOrder.encodes_iff]
  have hlt : order.value bytes < 256 ^ field.size := h ▸ order.value_lt bytes
  constructor
  · intro hvalue
    rw [hvalue, ofNat_toNat]
  · rintro rfl
    exact (field.toNat_ofNat hlt).symm

/-- **Numbers are read exactly.**  A number of any size and in either byte order is read if all
of its bytes are in the file, and only then.  It is the one value that these bytes encode, and
the cursor moves behind them and keeps its byte order.  If the bytes are not all there, because
the file ends between them or in front of them, the error names their place and how many they
are. -/
theorem decode_exact (input : Input) (c : Cursor) :
    ((∃ value c', field.decode input c = .ok value c') ↔
      c.position + field.size ≤ input.size) ∧
    (∀ value c', field.decode input c = .ok value c' →
      c' = { c with position := c.position + field.size } ∧
      ∀ other : field.Value,
        c.order.Encodes (field.toNat other) (input.range c.position field.size) ↔
          other = value) ∧
    ∀ error c', field.decode input c = .error error c' →
      error = .truncated c.position field.size ∧ c'.order = c.order := by
  rw [decode_apply]
  by_cases h : c.position + field.size ≤ input.size
  · rw [Input.number?_of_le h]
    refine ⟨⟨fun _ => h, fun _ => ⟨_, _, rfl⟩⟩, ?_, nofun⟩
    rintro _ _ ⟨⟩
    exact ⟨rfl, field.encodes_toNat_iff (Input.length_range h)⟩
  · rw [Input.number?_eq_none.mpr (Nat.lt_of_not_le h)]
    refine ⟨⟨nofun, fun hle => absurd hle h⟩, nofun, ?_⟩
    rintro _ _ ⟨⟩
    exact ⟨rfl, rfl⟩

end NumberField

end MachImage
