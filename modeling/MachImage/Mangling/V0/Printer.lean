import MachImage.Mangling.Legacy
import MachImage.Mangling.Punycode
import MachImage.Mangling.V0.Reader
import MachImage.Text.Quoted

/-!
# Printing while reading

A readable name is printed as its mangled form is read.  `Printing` carries the place in
the name, the output, whether output is muted, and how many lifetimes are bound.  A fault
in the name does not end the printing: `fail` writes what is wrong, from then on every
`parse` writes a question mark in place of its part, and the signs around it are still
written.  Only a full output ends it.
-/

namespace MachImage.Mangling.V0

open MachImage.Text

/-- Why reading a name stopped. -/
inductive Fault where
  /-- The name has no such part here. -/
  | syntaxError
  /-- Parts are nested too deep. -/
  | tooDeep
  deriving DecidableEq, Repr

/-- The text that stands where reading stopped. -/
def Fault.marker : Fault → String
  | .syntaxError => "\x7binvalid syntax\x7d"
  | .tooDeep => "\x7brecursion limit reached\x7d"

/-- The state of printing. -/
structure State where
  /-- Where reading goes on, or why it stopped. -/
  reading : Except Fault Place
  output : Output := {}
  /-- Whether nothing is written for now. -/
  muted : Bool := false
  /-- The lifetimes that are bound here. -/
  bound : Nat := 0

/-- Printing from a name, until the output is full. -/
abbrev Printing := ReaderT (List Char) (EStateM Unit State)

def write (piece : String) : Printing Unit := do
  let s ← get
  if s.muted then return
  match s.output.write? piece with
  | some output => set { s with output }
  | none => throw ()

/-- Writes pieces one after the other. -/
def writeAll (pieces : List String) : Printing Unit := pieces.forM write

/-- Stops reading, and writes why. -/
def fail (fault : Fault) : Printing Unit := do
  write fault.marker
  modify ({ · with reading := .error fault })

/-- Reads a part, given the whole name, and fails or writes a question mark if it cannot. -/
def parseWith (reader : List Char → Reader α) : Printing (Option α) := do
  match (← get).reading with
  | .error _ => write "?"; return none
  | .ok place =>
    match (reader (← read)) place with
    | some (part, place) => modify ({ · with reading := .ok place }); return some part
    | none => fail .syntaxError; return none

/-- Reads a part, and fails or writes a question mark if it cannot. -/
def parse (reader : Reader α) : Printing (Option α) := parseWith fun _ => reader

/-- Whether reading has not stopped. -/
def isReading : Printing Bool := return (← get).reading.isOk

/-- How many characters the name has left to read, none once reading has stopped. -/
def remaining : Printing Nat := do
  match (← get).reading with
  | .error _ => return 0
  | .ok place => return place.rest.length

/-- Passes over `c`, and tells whether it was there. -/
def eat (c : Char) : Printing Bool := do
  match (← get).reading with
  | .error _ => return false
  | .ok place =>
    match Reader.eat c place with
    | some (found, place) => modify ({ · with reading := .ok place }); return found
    | none => return false

/-- Goes back before the character `tag`, which has just been read. -/
def putBack (tag : Char) : Printing Unit :=
  modify fun s =>
    { s with reading := s.reading.map fun place =>
        { rest := tag :: place.rest, index := place.index - 1 } }

/-- Reads a part without writing it. -/
def muting (part : Printing Unit) : Printing Unit := do
  let muted := (← get).muted
  modify ({ · with muted := true })
  part
  modify ({ · with muted })

/-- Writes items between separators up to a closing `E`, `limit` of them at most, and
counts them; `count` have been written. -/
def separatedFrom (item : Printing Unit) (separator : String) (count : Nat) :
    (limit : Nat) → Printing Nat
  | 0 => return count
  | limit + 1 => do
    if !(← isReading) then return count
    if ← eat 'E' then return count
    if count > 0 then write separator
    item
    separatedFrom item separator (count + 1) limit

/-- Writes items between separators up to a closing `E` or the first fault, and counts
them.  Every item takes a character, so no more can come than the name has left. -/
def separated (item : Printing Unit) (separator : String) : Printing Nat := do
  separatedFrom item separator 0 ((← remaining) + 1)

/-- Writes an identifier; Punycode that cannot be decoded is shown as such. -/
def identifier (name : Identifier) : Printing Unit :=
  match Punycode.decode? name.ascii name.punycode with
  | some text => writeAll (text.map Char.toString)
  | none =>
    if name.punycode = [] then write (String.ofList name.ascii)
    else writeAll <|
      ["punycode\x7b"] ++
      (if name.ascii = [] then [] else [String.ofList name.ascii, "-"]) ++
      [String.ofList name.punycode, "\x7d"]

/-- Writes the lifetime with the index `lifetime`: 0 is unnamed, and the others count
outward from the innermost one bound. -/
def lifetime (lifetime : Nat) : Printing Unit := do
  let s ← get
  if s.muted then return
  write "'"
  if lifetime = 0 then write "_"
  else if lifetime ≤ s.bound then
    let depth := s.bound - lifetime
    if depth < 26 then write (Char.ofNat ('a'.toNat + depth)).toString
    else
      write "_"
      write (toString depth)
  else fail .syntaxError

/-- Binds lifetimes and writes their names between commas. -/
def bindLifetimes (first : Bool) : Nat → Printing Unit
  | 0 => return
  | count + 1 => do
    if !first then write ", "
    modify fun s => { s with bound := s.bound + 1 }
    lifetime 1
    bindLifetimes false count

/-- Prints a part under the lifetimes that are bound in front of it. -/
def inBinder (part : Printing Unit) : Printing Unit := do
  let some count ← parse (Reader.optInteger62 'G') | return
  if (← get).muted then part
  else
    if count > 0 then
      write "for<"
      bindLifetimes true count
      write "> "
    part
    modify fun s => { s with bound := s.bound - count }

/-- Prints what a back reference names, with `target`, and goes on behind the reference.
Where output is muted the target is not visited, and the answer is `skipped`. -/
def backReference (target : Option (Printing α)) (skipped : α) : Printing α := do
  let some place ← parseWith Reader.backReference | return skipped
  let some target := target | fail .tooDeep; return skipped
  let s ← get
  if s.muted then return skipped
  set { s with reading := .ok place }
  let answer ← target
  modify ({ · with reading := s.reading })
  return answer

end MachImage.Mangling.V0
