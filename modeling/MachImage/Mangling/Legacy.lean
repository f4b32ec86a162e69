/-!
# Names with counted elements

A mangled name of a few letters can stand for a text of any size, so a readable name is
written into an `Output` that takes a million bytes of UTF-8 and no more.  Text arrives in
pieces, and a piece that does not fit is left out whole.

The older of the two manglings writes a path as its elements, each after its length in
decimal, between `_ZN` and `E`: `_ZN3foo3barE` is `foo::bar`.  The first underscore may be
missing, or there may be one more.  `Legacy.read?` splits a name into its elements and
whatever follows the `E`, and `Legacy.pieces` spells the path.

A last element `h…` of hexadecimal digits is a hash and is not shown.  Inside an element
`$LT$` and its like stand for signs, `..` for `::`, and an underscore in front of a sign
only keeps the element from starting with one.
-/

namespace MachImage.Mangling

/-! ### Output of bounded size -/

/-- The bytes that a readable name may take. -/
def maxSize : Nat := 1000000

/-- The pieces written so far, the last one first, and the bytes that are still free. -/
structure Output where
  pieces : List String := []
  free : Nat := maxSize
  deriving DecidableEq, Repr

namespace Output

/-- Adds a piece, if it fits. -/
def write? (o : Output) (piece : String) : Option Output :=
  if piece.utf8ByteSize ≤ o.free then
    some { pieces := piece :: o.pieces, free := o.free - piece.utf8ByteSize }
  else none

/-- The text written so far. -/
def text (o : Output) : String := String.join o.pieces.reverse

/-- The text that ends an output that ran full. -/
def fullMarker : String := "\x7bsize limit reached\x7d"

/-- Writes the pieces that fit, up to the first that does not. -/
def writeAll (o : Output) : List String → String
  | [] => o.text
  | piece :: rest =>
    match o.write? piece with
    | some o => o.writeAll rest
    | none => o.text ++ fullMarker

end Output

/-! ### Counted elements -/

namespace Legacy

/-- A name without the letters that announce this mangling. -/
def body? : List Char → Option (List Char)
  | '_' :: 'Z' :: 'N' :: body => some body
  | 'Z' :: 'N' :: body => some body
  | '_' :: '_' :: 'Z' :: 'N' :: body => some body
  | _ => none

def decimal (digits : List Char) : Nat :=
  digits.foldl (fun n d => 10 * n + (d.toNat - '0'.toNat)) 0

/-- The elements up to the closing `E`, and what follows it.  An element is a length and as
many characters, and something has to follow it. -/
def elements? : List Char → Option (List (List Char) × List Char)
  | [] => none
  | c :: rest =>
    if c = 'E' then some ([], rest)
    else if c.isDigit then
      let length := decimal (c :: rest.takeWhile Char.isDigit)
      let text := rest.dropWhile Char.isDigit
      let behind := text.drop length
      if behind.isEmpty then none
      else do
        let (elements, suffix) ← elements? behind
        return (text.take length :: elements, suffix)
    else none
termination_by name => name.length
decreasing_by
  have := (List.dropWhile_suffix (l := rest) Char.isDigit).length_le
  grind

/-- The elements of a name and what follows them, if it is mangled this way. -/
def read? (name : List Char) : Option (List (List Char) × List Char) := do
  let body ← body? name
  if body.all fun c => c.toNat < 0x80 then elements? body else none

/-- Whether an element is a hash: an `h` and hexadecimal digits. -/
def isHash : List Char → Bool
  | 'h' :: digits => digits.all fun c =>
      c.isDigit || ('a' ≤ c && c ≤ 'f') || ('A' ≤ c && c ≤ 'F')
  | _ => false

/-- The value of a digit of a code point; capital letters are none. -/
def lowerHexDigit? (c : Char) : Option Nat :=
  if c.isDigit then some (c.toNat - '0'.toNat)
  else if 'a' ≤ c ∧ c ≤ 'f' then some (c.toNat - 'a'.toNat + 10)
  else none

/-- The character that hexadecimal digits name, controls left out. -/
def codePoint? (digits : List Char) : Option Char := do
  let values ← digits.mapM lowerHexDigit?
  let n := values.foldl (16 * · + ·) 0
  if values ≠ [] ∧ n.isValidChar ∧ ¬ (n < 0x20 ∨ (0x7F ≤ n ∧ n < 0xA0)) then
    some (Char.ofNat n)
  else none

/-- The sign that the letters between two dollars stand for. -/
def sign? (letters : List Char) : Option String :=
  match String.ofList letters with
  | "SP" => some "@"
  | "BP" => some "*"
  | "RF" => some "&"
  | "LT" => some "<"
  | "GT" => some ">"
  | "LP" => some "("
  | "RP" => some ")"
  | "C" => some ","
  | _ =>
    match letters with
    | 'u' :: digits => (codePoint? digits).map Char.toString
    | _ => none

/-- Whether a character means more than itself inside an element. -/
def isSpecial (c : Char) : Bool := c = '$' || c = '.'

/-- The text of an element, in pieces.  From the first dollar on that opens no known sign
the element is kept as it stands. -/
def spelling (element : List Char) : List String :=
  match element with
  | [] => []
  | '.' :: '.' :: rest => "::" :: spelling rest
  | '.' :: rest => "." :: spelling rest
  | '$' :: rest =>
    let letters := rest.takeWhile (· ≠ '$')
    match sign? letters with
    | some sign =>
      if letters.length < rest.length then sign :: spelling (rest.drop (letters.length + 1))
      else [String.ofList element]
    | none => [String.ofList element]
  | c :: rest =>
    String.ofList (c :: rest.takeWhile (!isSpecial ·)) ::
      spelling (rest.dropWhile (!isSpecial ·))
termination_by element.length
decreasing_by
  all_goals
    have := (List.dropWhile_suffix (l := rest) (!isSpecial ·)).length_le
    grind

/-- An element without the underscore that only stands in front of a sign. -/
def unguarded : List Char → List Char
  | '_' :: '$' :: rest => '$' :: rest
  | element => element

/-- The path with these elements, in pieces. -/
def pieces (elements : List (List Char)) : List String :=
  let shown := match elements.getLast? with
    | some last => if isHash last then elements.dropLast else elements
    | none => elements
  (shown.map fun element => spelling (unguarded element)).intersperse ["::"] |>.flatten

end Legacy

end MachImage.Mangling
