/-!
# Byte order and width

The bytes of a number stand in one of two orders, and an address-sized field has one of two
widths.  `ByteOrder.value` is the number that bytes spell in an order, and
`ByteOrder.bytes` spells a number in a given number of bytes.
-/

namespace MachImage

/-- The order of the bytes of a number. -/
inductive ByteOrder where
  /-- The lowest byte first. -/
  | little
  /-- The highest byte first. -/
  | big
  deriving DecidableEq, Repr, Inhabited

namespace ByteOrder

/-- The number that bytes spell with the lowest one first. -/
def littleValue : List UInt8 → Nat
  | [] => 0
  | b :: rest => b.toNat + 256 * littleValue rest

/-- The number that bytes spell. -/
def value (order : ByteOrder) (bytes : List UInt8) : Nat :=
  match order with
  | little => littleValue bytes
  | big => littleValue bytes.reverse

/-- The lowest `count` bytes of a number, the lowest one first. -/
def littleBytes : (count : Nat) → Nat → List UInt8
  | 0, _ => []
  | count + 1, n => UInt8.ofNat n :: littleBytes count (n / 256)

/-- The lowest `count` bytes of a number. -/
def bytes (order : ByteOrder) (count n : Nat) : List UInt8 :=
  match order with
  | little => littleBytes count n
  | big => (littleBytes count n).reverse

def name : ByteOrder → String
  | little => "little-endian"
  | big => "big-endian"

end ByteOrder

/-! ### Widths -/

/-- The width of an address-sized field. -/
inductive Width where
  | bits32
  | bits64
  deriving DecidableEq, Repr, Inhabited

namespace Width

def bits : Width → Nat
  | bits32 => 32
  | bits64 => 64

def bytes : Width → Nat
  | bits32 => 4
  | bits64 => 8

def name (w : Width) : String := toString w.bits ++ "-bit"

end Width

end MachImage
