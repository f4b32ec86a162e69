import MachImage.Symbol
import MachImage.Text.Basic

/-!
# Resolution of symbols

A symbol is read with an index in place of its name.  `SymbolTable.named` takes the names
of the primary symbols from the string table; `SymbolTable.linked` gives each dynamic
symbol the name of the primary symbol that it points at, and the address of the stub at its
own position as its value.  A symbol whose index points nowhere stays as it is, and
`SymbolTable.unresolved` lists those.

A damaged image is decoded as far as it makes sense.  What had to be passed over is kept as a
`Diagnostic` beside what was found.
-/

namespace MachImage

open Text

/-! ### Diagnostics -/

/-- Something in an image that had to be passed over. -/
inductive Diagnostic where
  /-- A load command has a tag without a meaning. -/
  | unrecognizedCommand (tag : UInt32) (offset : Nat) (size : UInt32)
  /-- A load command claims to be smaller than its tag and size. -/
  | undersizedCommand (tag : UInt32) (offset : Nat) (size : UInt32)
  /-- A symbol's index points outside the table that it refers to. -/
  | unresolvedSymbol (table : SymbolTableKind) (position : Nat) (index : UInt32)
  deriving DecidableEq, Repr

def Diagnostic.message : Diagnostic → String
  | unrecognizedCommand tag offset size =>
    s!"skipped unrecognized load command 0x{hex tag.toNat} ({size} bytes) at 0x{hex offset}"
  | undersizedCommand tag offset size =>
    s!"load command 0x{hex tag.toNat} at 0x{hex offset} declares {size} bytes"
  | unresolvedSymbol table position index =>
    s!"{table.name} entry {position} has out-of-range index {index}"

/-! ### Names -/

/-- The position of the first NUL among the `count` bytes from `start` on, or the end of
those. -/
def nulPosition (strings : Array UInt8) (start : Nat) : (count : Nat) → Nat
  | 0 => start
  | count + 1 =>
    if strings[start]? = some 0 then start else nulPosition strings (start + 1) count

/-- The text from a position of a string table up to the first NUL or the table's end.
There is none at the end or behind it. -/
def nameAt? (strings : Array UInt8) (start : Nat) : Option String :=
  if start < strings.size then
    let stop := nulPosition strings start (strings.size - start)
    some (upToNul (strings.extract start stop).toList)
  else none

namespace Symbol

/-- The symbol with its name from the string table. -/
def named (strings : Array UInt8) (s : Symbol) : Symbol :=
  { s with name? := nameAt? strings s.index.toNat }

/-- The dynamic symbol at `position`, with the name of the primary symbol that it points at
and the address of its stub.  Addresses wrap around at the end of memory. -/
def linked (primary : SymbolTable) (stubs : Address) (stubSize : UInt64) (position : Nat)
    (s : Symbol) : Symbol :=
  match primary.get? s.index.toNat with
  | some target =>
    { s with
      name? := some target.name
      value := (stubs.advance (UInt64.ofNat position * stubSize)).value }
  | none => s

end Symbol

namespace SymbolTable

/-- The primary symbols with their names from the string table. -/
def named (t : SymbolTable) (strings : Array UInt8) : SymbolTable :=
  ⟨t.symbols.map (Symbol.named strings)⟩

/-- The dynamic symbols with the names of the primary ones and the addresses of stubs. -/
def linked (t primary : SymbolTable) (stubs : Address) (stubSize : UInt64) : SymbolTable :=
  ⟨t.symbols.mapIdx (Symbol.linked primary stubs stubSize)⟩

/-- A diagnostic for each symbol that is not resolved, in the order of the table. -/
def unresolved (t : SymbolTable) (kind : SymbolTableKind) : Array Diagnostic :=
  t.symbols.zipIdx.filterMap fun (s, position) =>
    if s.isResolved then none else some (.unresolvedSymbol kind position s.index)

end SymbolTable

end MachImage
