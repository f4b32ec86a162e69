import MachImage.Mangling.V0.Printer
import MachImage.Text.Basic

/-!
# The grammar of names with back references

The newer mangling writes a path, with its types and constants, in Polish notation: one
letter says what comes, and its parts follow.  Paths, types, constants, patterns and the
paths of traits contain one another, up to `maxDepth` deep.

Each sort has its rule here.  A rule gets the printers of the sorts one level further in,
and those two levels in for the target of a back reference; where a level is missing the
limit is reached.  `levels` builds the printers from the innermost level outward, and
`path`, the printer of a whole name, is the outermost one.
-/

namespace MachImage.Mangling.V0

open MachImage.Text

/-- How deep the parts of a name may be nested. -/
def maxDepth : Nat := 500

/-- The printers of paths, types and constants at one level of nesting.  A path or a
constant can stand where a value is wanted. -/
structure Terms where
  path : (inValue : Bool) → Printing Unit
  type : Printing Unit
  const : (inValue : Bool) → Printing Unit

/-- The printers of all sorts at one level of nesting.  The path of a trait tells whether it
has left its list of arguments open. -/
structure Level extends Terms where
  pattern : Printing Unit
  traitPath : Printing Bool

/-- What a rule finds inside itself: the level of its parts, and the level of the targets
of its back references. -/
structure Inside where
  parts : Level
  targets : Option Level

/-- Enters a part, and fails where the limit of nesting forbids it. -/
def enter (inside : Option Inside) : Printing (Option Inside) := do
  if !(← isReading) then write "?"; return none
  match inside with
  | some inside => return some inside
  | none => fail .tooDeep; return none

/-! ### Arguments -/

/-- A generic argument: a lifetime, a constant or a type. -/
def argument (terms : Terms) : Printing Unit := do
  if ← eat 'L' then
    let some index ← parse Reader.integer62 | return
    lifetime index
  else if ← eat 'K' then terms.const false
  else terms.type

/-- Generic arguments between commas. -/
def arguments (terms : Terms) : Printing Unit := do
  let _ ← separated (argument terms) ", "

/-! ### Paths -/

/-- The name of the kind of a special namespace. -/
def namespaceName (kind : Char) : String :=
  if kind = 'C' then "closure" else if kind = 'S' then "shim" else kind.toString

/-- An entry of a namespace, behind the path that it belongs to. -/
def nested (kind : Option Char) : Printing Unit := do
  -- a question mark for the entry still gets its colons
  if !(← isReading) then write "::"
  let some number ← parse Reader.disambiguator | return
  let some name ← parse Reader.identifier | return
  match kind with
  | some kind =>
    writeAll ["::\x7b", namespaceName kind]
    if !name.isEmpty then
      write ":"
      identifier name
    writeAll ["#", toString number, "\x7d"]
  | none =>
    if !name.isEmpty then
      write "::"
      identifier name

/-- A path: a crate, an entry of a namespace, an implementation, or a path with generic
arguments. -/
def pathRule (inside : Option Inside) (inValue : Bool) : Printing Unit := do
  let some { parts, targets } ← enter inside | return
  let some tag ← parse Reader.next | return
  match tag with
  | 'C' =>
    let some _ ← parse Reader.disambiguator | return
    let some name ← parse Reader.identifier | return
    identifier name
  | 'N' =>
    let some kind ← parse Reader.namespace? | return
    parts.path inValue
    nested kind
  | 'M' | 'X' | 'Y' =>
    if tag ≠ 'Y' then
      let some _ ← parse Reader.disambiguator | return
      muting (parts.path false)
    write "<"
    parts.type
    if tag ≠ 'M' then
      write " as "
      parts.path false
    write ">"
  | 'I' =>
    parts.path inValue
    if inValue then write "::"
    write "<"
    arguments parts.toTerms
    write ">"
  | 'B' => backReference (targets.map (·.path inValue)) ()
  | _ => fail .syntaxError

/-- The path of a trait.  The list of its generic arguments stays open, since the trait's
associated types come into it too. -/
def traitPathRule (terms : Terms) (target : Option (Printing Bool)) : Printing Bool := do
  if ← eat 'B' then backReference target false
  else if ← eat 'I' then
    terms.path false
    write "<"
    arguments terms
    return true
  else
    terms.path false
    return false

/-- The associated types of a trait, `limit` of them at most, into a list that is open
already or not. -/
def associated (terms : Terms) (isOpen : Bool) : (limit : Nat) → Printing Unit
  | 0 => do
    if isOpen then write ">"
  | limit + 1 => do
    if ← eat 'p' then
      write (if isOpen then ", " else "<")
      let some name ← parse Reader.identifier | return
      identifier name
      write " = "
      if ← eat 'K' then terms.const false else terms.type
      associated terms true limit
    else if isOpen then write ">"

/-- A trait with its generic arguments and associated types. -/
def boundTrait (level : Level) : Printing Unit := do
  let isOpen ← level.traitPath
  associated level.toTerms isOpen (← remaining)

/-! ### Types -/

/-- The types of one letter. -/
def basicType? : Char → Option String
  | 'b' => some "bool"
  | 'c' => some "char"
  | 'e' => some "str"
  | 'u' => some "()"
  | 'a' => some "i8"
  | 's' => some "i16"
  | 'l' => some "i32"
  | 'x' => some "i64"
  | 'n' => some "i128"
  | 'i' => some "isize"
  | 'h' => some "u8"
  | 't' => some "u16"
  | 'm' => some "u32"
  | 'y' => some "u64"
  | 'o' => some "u128"
  | 'j' => some "usize"
  | 'f' => some "f32"
  | 'd' => some "f64"
  | 'z' => some "!"
  | 'p' => some "_"
  | 'v' => some "..."
  | _ => none

/-- The name of a calling convention; its dashes were written as underscores. -/
def convention (name : List Char) : Printing Unit := do
  write "extern \""
  writeAll <| ((name.splitOn '_').map String.ofList).intersperse "-"
  write "\" "

/-- The calling convention of a function, if it has one. -/
def convention? : Printing (Option (Option (List Char))) := do
  if ← eat 'K' then
    if ← eat 'C' then return some (some ['C'])
    let some name ← parse Reader.identifier | return none
    if name.ascii = [] ∨ name.punycode ≠ [] then
      fail .syntaxError
      return none
    return some (some name.ascii)
  else return some none

/-- The type of a function between types. -/
def functionType (type : Printing Unit) : Printing Unit := do
  let isUnsafe ← eat 'U'
  let some name ← convention? | return
  if isUnsafe then write "unsafe "
  if let some name := name then convention name
  write "fn("
  let _ ← separated type ", "
  write ")"
  if ← eat 'u' then return
  write " -> "
  type

/-- Items between parentheses; a single one keeps its comma. -/
def tuple (item : Printing Unit) : Printing Unit := do
  write "("
  let count ← separated item ", "
  if count = 1 then write ","
  write ")"

/-- A type.  The mark of a spread argument may stand in front, and adds no nesting. -/
def typeRule (inside : Option Inside) : Printing Unit := do
  if ← eat 'w' then write "#[splat] "
  let some tag ← parse Reader.next | return
  if let some name := basicType? tag then
    write name
    return
  let some { parts, targets } ← enter inside | return
  match tag with
  | 'R' | 'Q' =>
    write "&"
    if ← eat 'L' then
      let some index ← parse Reader.integer62 | return
      if index ≠ 0 then
        lifetime index
        write " "
    if tag = 'Q' then write "mut "
    parts.type
  | 'P' =>
    writeAll ["*", "const "]
    parts.type
  | 'O' =>
    writeAll ["*", "mut "]
    parts.type
  | 'A' =>
    write "["
    parts.type
    write "; "
    parts.const true
    write "]"
  | 'S' =>
    write "["
    parts.type
    write "]"
  | 'T' => tuple parts.type
  | 'F' => inBinder (functionType parts.type)
  | 'D' =>
    write "dyn "
    inBinder do
      let _ ← separated (boundTrait parts) " + "
    if !(← eat 'L') then
      fail .syntaxError
      return
    let some index ← parse Reader.integer62 | return
    if index ≠ 0 then
      write " + "
      lifetime index
  | 'B' => backReference (targets.map (·.type)) ()
  | 'W' =>
    parts.type
    write " is "
    parts.pattern
  | _ =>
    putBack tag
    parts.path false

/-! ### Patterns and constants -/

/-- Further alternatives of a pattern up to a closing `E`, `limit` of them at most.  Where
reading has stopped before the `E`, the missing end is a fault of its own. -/
def alternatives (pattern : Printing Unit) : (limit : Nat) → Printing Unit
  | 0 => return
  | limit + 1 => do
    if ← eat 'E' then return
    if !(← isReading) then
      fail .syntaxError
      return
    write " | "
    pattern
    alternatives pattern limit

/-- A pattern: a range, anything but null, or a choice. -/
def patternRule (const : Printing Unit) (inner : Option (Printing Unit)) : Printing Unit := do
  let some tag ← parse Reader.next | return
  match tag with
  | 'R' =>
    const
    write "..="
    const
  | 'N' => write "!null"
  | 'O' =>
    let some pattern := inner | fail .tooDeep
    pattern
    -- the last turn but one may find the name at its end, and the last one says so
    alternatives pattern ((← remaining) + 2)
  | _ => fail .syntaxError

/-- The value of hexadecimal digits, of those up to sixteen that follow leading zeros. -/
def hexValue? (digits : List Char) : Option Nat :=
  let significant := digits.dropWhile (· = '0')
  if significant.length ≤ 16 then
    some (significant.foldl (fun n d =>
      16 * n + if d.isDigit then d.toNat - '0'.toNat else d.toNat - 'a'.toNat + 10) 0)
  else none

/-- The bytes that hexadecimal digits write, two for each byte. -/
def hexBytes? : List Char → Option (List UInt8)
  | [] => some []
  | high :: low :: rest => do
    let value ← hexValue? [high, low]
    return UInt8.ofNat value :: (← hexBytes? rest)
  | [_] => none

/-- A number.  One that is wider than 64 bits keeps its hexadecimal digits. -/
def unsigned : Printing Unit := do
  let some digits ← parse Reader.hexDigits | return
  match hexValue? digits with
  | some value => write (toString value)
  | none => writeAll ["0x", String.ofList digits]

/-- A literal for characters between `quote`s. -/
def literal (quote : Char) (text : List Char) : Printing Unit := writeAll (quoted quote text)

/-- A literal for the text that hexadecimal digits write in UTF-8. -/
def stringLiteral : Printing Unit := do
  let some digits ← parse Reader.hexDigits | return
  match (hexBytes? digits).bind Text.Utf8.decodeStrict? with
  | some text => literal '\x22' text
  | none => fail .syntaxError

/-- A field of a constant structure, with its value. -/
def constField (value : Printing Unit) : Printing Unit := do
  let some _ ← parse Reader.disambiguator | return
  let some name ← parse Reader.identifier | return
  identifier name
  write ": "
  value

/-- The fields of a constant structure or variant with their values.  The answer is whether
it could be told what kind of fields there are. -/
def constFields (value : Printing Unit) : Printing Bool := do
  let some tag ← parse Reader.next | return false
  match tag with
  | 'U' => return true
  | 'T' =>
    write "("
    let _ ← separated value ", "
    write ")"
    return true
  | 'S' =>
    write " \x7b "
    let _ ← separated (constField value) ", "
    write " \x7d"
    return true
  | _ =>
    fail .syntaxError
    return false

/-- An expression: braces go around it unless a value is wanted.  A part that could not be
read leaves the closing brace out. -/
def expression (inValue : Bool) (body : Printing Bool) : Printing Unit := do
  if !inValue then write "\x7b"
  if (← body) && !inValue then write "\x7d"

def constRule (inside : Option Inside) (inValue : Bool) : Printing Unit := do
  let some tag ← parse Reader.next | return
  let some { parts, targets } ← enter inside | return
  match tag with
  | 'p' => write "_"
  | 'h' | 't' | 'm' | 'y' | 'o' | 'j' => unsigned
  | 'a' | 's' | 'l' | 'x' | 'n' | 'i' =>
    if ← eat 'n' then write "-"
    unsigned
  | 'b' =>
    let some digits ← parse Reader.hexDigits | return
    match hexValue? digits with
    | some 0 => write "false"
    | some 1 => write "true"
    | _ => fail .syntaxError
  | 'c' =>
    let some digits ← parse Reader.hexDigits | return
    match hexValue? digits with
    | some value =>
      if value.isValidChar then literal '\x27' [Char.ofNat value] else fail .syntaxError
    | none => fail .syntaxError
  | 'e' => expression inValue do
      write "*"
      stringLiteral
      return true
  | 'R' =>
    if ← eat 'e' then stringLiteral
    else expression inValue do
      write "&"
      parts.const true
      return true
  | 'Q' => expression inValue do
      writeAll ["&", "mut "]
      parts.const true
      return true
  | 'A' => expression inValue do
      write "["
      let _ ← separated (parts.const true) ", "
      write "]"
      return true
  | 'T' => expression inValue do
      tuple (parts.const true)
      return true
  | 'V' => expression inValue do
      parts.path true
      constFields (parts.const true)
  | 'B' => backReference (targets.map (·.const inValue)) ()
  | _ => fail .syntaxError

/-! ### Levels -/

/-- The printers of a level, from those inside it. -/
def Level.around (inside : Option Inside) : Level :=
  let terms : Terms :=
    { path := pathRule inside, type := typeRule inside, const := constRule inside }
  { terms with
    pattern := patternRule (terms.const false) (inside.map (·.parts.pattern))
    traitPath := traitPathRule terms (inside.map (·.parts.traitPath)) }

/-- The printers of a level that can be entered `depth` times, and those one level in. -/
def levels : (depth : Nat) → Level × Option Level
  | 0 => (Level.around none, none)
  | depth + 1 =>
    let (parts, targets) := levels depth
    (Level.around (some { parts, targets }), some parts)

/-- Prints a path, with generic arguments as in a value or not. -/
def path (inValue : Bool) : Printing Unit := (levels maxDepth).1.path inValue

end MachImage.Mangling.V0
