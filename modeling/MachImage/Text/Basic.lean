/-!
# Text

Numbers and names stand in columns: `hex` writes a number in base sixteen, `padLeft` and
`padRight` bring a text to the width of its column.  A text that is wider than its column is
kept whole.  Widths count characters.

A setting is chosen by a word.  `trim` takes the blanks off both ends of a text, with
`isBlank` for Unicode's property White_Space, and `lower` makes its letters small.

`Utf8.decode` reads any bytes as text.  A first byte fixes how many bytes its character has and
the range of the second one; every later byte lies in `0x80`–`0xBF`.  Bytes that break this
off are replaced, one `U+FFFD` for each longest run that could have begun a character, and
reading goes on at the byte that broke it.  `Utf8.decodeStrict?` accepts only bytes that hold no
such break, and `upToNul` reads the text before the first NUL byte.
-/

namespace MachImage.Text

/-! ### Fields -/

/-- `text` with copies of `fill` in front, up to `width` characters. -/
def padLeft (fill : Char) (width : Nat) (text : String) : String :=
  String.ofList (List.replicate (width - text.length) fill) ++ text

/-- `text` with blanks behind it, up to `width` characters. -/
def padRight (width : Nat) (text : String) : String :=
  text ++ String.ofList (List.replicate (width - text.length) ' ')

/-- The lower-case hexadecimal digits of `n`, without a sign or leading zeros. -/
def hex (n : Nat) : String := String.ofList (Nat.toDigits 16 n)

/-- The hexadecimal digits of `n`, with leading zeros up to `width` digits. -/
def hexPadded (width n : Nat) : String := padLeft '0' width (hex n)

/-- A byte as two lower-case hexadecimal digits. -/
def hexByte (b : UInt8) : String := hexPadded 2 b.toNat

/-- Bytes as hexadecimal digits, two for each byte. -/
def hexBytes (bytes : Array UInt8) : String := String.join (bytes.toList.map hexByte)

/-! ### Words -/

/-- Unicode's property White_Space. -/
def isBlank (c : Char) : Bool :=
  let n := c.toNat
  (0x09 ≤ n && n ≤ 0x0D) || n = 0x20 || n = 0x85 || n = 0xA0 || n = 0x1680 ||
    (0x2000 ≤ n && n ≤ 0x200A) || n = 0x2028 || n = 0x2029 || n = 0x202F || n = 0x205F ||
    n = 0x3000

/-- The text without the blanks at its two ends. -/
def trim (text : List Char) : List Char :=
  ((text.dropWhile isBlank).reverse.dropWhile isBlank).reverse

/-- The text with its letters of ASCII made small.  Keywords are words of ASCII without a
`k`, so no other letter could become one of theirs. -/
def lower (text : List Char) : List Char := text.map Char.toLower

/-! ### UTF-8 -/

namespace Utf8

/-- The character shown for bytes that are no UTF-8. -/
def replacement : Char := '\uFFFD'

/-- A character of which some bytes have been read: its bits so far, how many bytes are
owed, and the range that the next byte has to lie in. -/
structure Sequence where
  bits : Nat
  owed : Nat
  low : UInt8 := 0x80
  high : UInt8 := 0xBF
  deriving DecidableEq, Repr

/-- The sequence that a first byte opens; ASCII and bytes that begin no character open none. -/
def Sequence.opened? (b : UInt8) : Option Sequence :=
  if 0xC2 ≤ b ∧ b ≤ 0xDF then some { bits := b.toNat % 0x20, owed := 1 }
  else if b = 0xE0 then some { bits := 0, owed := 2, low := 0xA0 }
  else if b = 0xED then some { bits := 0xD, owed := 2, high := 0x9F }
  else if 0xE1 ≤ b ∧ b ≤ 0xEF then some { bits := b.toNat % 0x10, owed := 2 }
  else if b = 0xF0 then some { bits := 0, owed := 3, low := 0x90 }
  else if 0xF1 ≤ b ∧ b ≤ 0xF3 then some { bits := b.toNat % 0x08, owed := 3 }
  else if b = 0xF4 then some { bits := 4, owed := 3, high := 0x8F }
  else none

/-- The bits of the sequence once the byte `b` has joined them. -/
def Sequence.bitsWith (q : Sequence) (b : UInt8) : Nat := q.bits * 0x40 + b.toNat % 0x40

/-- How far a text has been read: the sequence that is open, and the characters before it,
the last one first. -/
structure Scan where
  open? : Option Sequence := none
  text : List Char := []
  deriving DecidableEq, Repr

namespace Scan

/-- Reads a byte that is the first of a character. -/
def first (s : Scan) (b : UInt8) : Scan :=
  if b < 0x80 then { text := Char.ofNat b.toNat :: s.text }
  else match Sequence.opened? b with
    | some q => { open? := some q, text := s.text }
    | none => { text := replacement :: s.text }

def push (s : Scan) (b : UInt8) : Scan :=
  match s.open? with
  | none => s.first b
  | some q =>
    if q.low ≤ b ∧ b ≤ q.high then
      if q.owed ≤ 1 then { text := Char.ofNat (q.bitsWith b) :: s.text }
      else { s with open? := some { bits := q.bitsWith b, owed := q.owed - 1 } }
    else Scan.first { text := replacement :: s.text } b

/-- The text that was read; a sequence still open at the end is replaced. -/
def finish (s : Scan) : List Char :=
  match s.open? with
  | none => s.text.reverse
  | some _ => (replacement :: s.text).reverse

end Scan

/-- The text of any bytes, with replacements. -/
def decode (bytes : List UInt8) : List Char := (bytes.foldl Scan.push {}).finish

def encode (text : List Char) : List UInt8 := text.flatMap String.utf8EncodeChar

/-- The text of bytes that are UTF-8: those that writing the text gives back. -/
def decodeStrict? (bytes : List UInt8) : Option (List Char) :=
  let text := decode bytes
  if encode text = bytes then some text else none

end Utf8

/-- The text of the bytes before the first NUL, or of all bytes where there is none. -/
def upToNul (bytes : List UInt8) : String :=
  String.ofList (Utf8.decode (bytes.takeWhile (· ≠ 0)))

end MachImage.Text
