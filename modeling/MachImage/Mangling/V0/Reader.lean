/-!
# Reading the parts of a name

A `Place` is a point in a mangled name, and a `Reader` reads from there on or fails.  Here
are the readers of the smallest parts: numbers in base 62, identifiers, hexadecimal
literals, namespaces and back references.  All numbers stay below 2⁶⁴.
-/

namespace MachImage.Mangling.V0

/-- A point in a name: the characters that follow, and how many came before. -/
structure Place where
  rest : List Char
  index : Nat
  deriving DecidableEq, Repr

/-- Reads from a place on, and fails where the name has no such part. -/
abbrev Reader := StateT Place Option

namespace Reader

def next : Reader Char := fun place =>
  match place.rest with
  | [] => none
  | c :: rest => some (c, { rest, index := place.index + 1 })

/-- Passes over `c`, and tells whether it was there. -/
def eat (c : Char) : Reader Bool := fun place =>
  if place.rest.head? = some c then
    some (true, { rest := place.rest.tail, index := place.index + 1 })
  else some (false, place)

def expect (c : Char) : Reader Unit := do
  if ← eat c then return else failure

/-- The longest run of characters with the property `p`. -/
def takeWhile (p : Char → Bool) : Reader (List Char) := fun place =>
  let read := place.rest.takeWhile p
  some (read, { rest := place.rest.drop read.length, index := place.index + read.length })

def take (n : Nat) : Reader (List Char) := fun place =>
  if n ≤ place.rest.length then
    some (place.rest.take n, { rest := place.rest.drop n, index := place.index + n })
  else none

/-- The value of a digit in base 62: decimal digits, small letters, capitals. -/
def digit62 (c : Char) : Nat :=
  if c.isDigit then c.toNat - '0'.toNat
  else if c.isLower then c.toNat - 'a'.toNat + 10
  else c.toNat - 'A'.toNat + 36

/-- A number in base 62, closed by an underscore; a lone underscore is 0, and digits write
the number before theirs. -/
def integer62 : Reader Nat := do
  let digits ← takeWhile Char.isAlphanum
  expect '_'
  let n := if digits = [] then 0 else digits.foldl (62 * · + digit62 ·) 0 + 1
  if n < UInt64.size then return n else failure

/-- A number one above the one written after `tag`, or 0 where the tag is missing. -/
def optInteger62 (tag : Char) : Reader Nat := do
  if ← eat tag then
    let n := (← integer62) + 1
    if n < UInt64.size then return n else failure
  else return 0

/-- The number that tells apart what has one name otherwise. -/
def disambiguator : Reader Nat := optInteger62 's'

/-- The namespace of a nested name: a capital for a special one, and nothing otherwise. -/
def namespace? : Reader (Option Char) := do
  let c ← next
  if c.isUpper then return some c
  else if c.isLower then return none
  else failure

/-- Hexadecimal digits, closed by an underscore. -/
def hexDigits : Reader (List Char) := do
  let digits ← takeWhile fun c => c.isDigit || ('a' ≤ c && c ≤ 'f')
  expect '_'
  return digits

/-- The place that a back reference names, counted from the start of `name`.  It lies
before the reference's own tag, which has just been read. -/
def backReference (name : List Char) : Reader Place := do
  let tag := (← get).index - 1
  let target ← integer62
  if target < tag then return { rest := name.drop target, index := target } else failure

end Reader

/-- An identifier: its ASCII characters, and the digits of its Punycode if it has any. -/
structure Identifier where
  ascii : List Char
  punycode : List Char := []
  deriving DecidableEq, Repr

/-- Whether an identifier has no characters at all. -/
def Identifier.isEmpty (name : Identifier) : Bool := name.ascii.isEmpty && name.punycode.isEmpty

namespace Reader

/-- The length in front of an identifier; a zero stands alone. -/
def identifierLength : Reader Nat := do
  let first ← next
  if first = '0' then return 0
  else if first.isDigit then
    let digits := first :: (← takeWhile Char.isDigit)
    return digits.foldl (fun n d => 10 * n + (d.toNat - '0'.toNat)) 0
  else failure

/-- An identifier: `u` if it has Punycode, a length, perhaps an underscore, and as many
characters.  The last underscore among them parts ASCII from Punycode. -/
def identifier : Reader Identifier := do
  let hasPunycode ← eat 'u'
  let length ← identifierLength
  let _ ← eat '_'
  let text ← take length
  if hasPunycode then
    let punycode := (text.reverse.takeWhile (· ≠ '_')).reverse
    if punycode = [] then failure
    else return { ascii := text.take (text.length - punycode.length - 1), punycode }
  else return { ascii := text }

end Reader

end MachImage.Mangling.V0
