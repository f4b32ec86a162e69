import MachImage.ByteOrder
import MachImage.Text.Basic

/-!
# Decoders

A `Decoder` reads values from an input, from a cursor on.  The `Cursor` is a position and
the byte order of the numbers to come; it may stand past the end of the input, and every
read there fails.  The input itself never changes, so a decoder is a function of the input
and the cursor.  A read that fails names the bytes that it wanted and leaves the cursor
where it came to a stop.  Only what leaves nothing to decode is an error; what can be passed
over is a diagnostic.

`window?` is the one way to get at bytes.  The readers of single fields (`u8`, `u16`,
`u32`, `u64`, `word`, `name16`), of runs of bytes (`bytes`, `bytesAt`), and of lists of
values (`repeated`) are built on it.
-/

namespace MachImage

open Text

/-! ### Errors -/

/-- Why decoding failed. -/
inductive DecodeError where
  /-- The `wanted` bytes from `offset` on are not all there. -/
  | truncated (offset wanted : Nat)
  /-- The first four bytes of an image or slice are no magic number. -/
  | unsupportedMagic (magic : UInt32)
  /-- The input could not be read. -/
  | unreadable (reason : String)
  deriving DecidableEq, Repr

namespace DecodeError

def message : DecodeError → String
  | truncated offset wanted =>
    s!"Truncated input: wanted {wanted} bytes at offset 0x{hex offset}"
  | unsupportedMagic magic => "Unsupported magic: 0x" ++ hexPadded 8 magic.toNat
  | unreadable reason => "IO error: " ++ reason

/-- Whether the input ended too early. -/
def isTruncation : DecodeError → Bool
  | truncated .. => true
  | _ => false

end DecodeError

/-! ### Inputs and cursors -/

/-- The bytes of a file. -/
abbrev Input := Array UInt8

/-- The `length` bytes from `offset` on, if they are all there. -/
def Input.window? (input : Input) (offset length : Nat) : Option (Array UInt8) :=
  if offset + length ≤ input.size then some (input.extract offset (offset + length)) else none

/-- Where reading goes on, and the order of the bytes of a number there. -/
structure Cursor where
  position : Nat := 0
  order : ByteOrder := .little
  deriving DecidableEq, Repr, Inhabited

/-- Reads a value from an input, from a cursor on. -/
abbrev Decoder := ReaderT Input (EStateM DecodeError Cursor)

namespace Decoder

/-! ### The cursor -/

def position : Decoder Nat := return (← get).position

def order : Decoder ByteOrder := return (← get).order

/-- Moves the cursor to a position of the input or past its end. -/
def seek (position : Nat) : Decoder Unit := modify ({ · with position })

/-- Sets the order of the bytes of the numbers to come. -/
def setOrder (order : ByteOrder) : Decoder Unit := modify ({ · with order })

/-! ### Bytes -/

/-- The next `length` bytes, of a field of fixed size.  A field that is cut off takes the
cursor to the end of the input. -/
def field (length : Nat) : Decoder (List UInt8) := do
  let input ← read
  let offset ← position
  match input.window? offset length with
  | some bytes =>
    seek (offset + length)
    return bytes.toList
  | none =>
    seek input.size
    throw (.truncated offset length)

/-- The next `length` bytes, as many as some count asks for.  A run that is cut off takes
the cursor to the end of the input, unless it stands there or further on already. -/
def bytes (length : Nat) : Decoder (Array UInt8) := do
  let input ← read
  let offset ← position
  if length = 0 then return #[]
  match input.window? offset length with
  | some bytes =>
    seek (offset + length)
    return bytes
  | none =>
    seek (max offset input.size)
    throw (.truncated offset length)

/-- The `length` bytes from `offset` on, without a move of the cursor. -/
def bytesAt (offset length : Nat) : Decoder (Array UInt8) := do
  match (← read).window? offset length with
  | some bytes => return bytes
  | none => throw (.truncated offset length)

/-! ### Numbers and names -/

/-- The number in the next `length` bytes. -/
def number (length : Nat) : Decoder Nat := do
  let order ← order
  return order.value (← field length)

def u8 : Decoder UInt8 := return UInt8.ofNat (← number 1)

def u16 : Decoder UInt16 := return UInt16.ofNat (← number 2)

def u32 : Decoder UInt32 := return UInt32.ofNat (← number 4)

def u64 : Decoder UInt64 := return UInt64.ofNat (← number 8)

def word (width : Width) : Decoder UInt64 := return UInt64.ofNat (← number width.bytes)

/-- The name in a field of sixteen bytes, up to its first NUL. -/
def name16 : Decoder String := return upToNul (← field 16)

/-! ### Lists -/

/-- What `item` reads `count` times in a row, behind what has been read so far. -/
def repeatedFrom (item : Decoder α) (values : Array α) : (count : Nat) → Decoder (Array α)
  | 0 => return values
  | count + 1 => do
    let value ← item
    repeatedFrom item (values.push value) count

/-- What `item` reads `count` times in a row; the first failure ends it. -/
def repeated (count : Nat) (item : Decoder α) : Decoder (Array α) := repeatedFrom item #[] count

end Decoder

end MachImage
