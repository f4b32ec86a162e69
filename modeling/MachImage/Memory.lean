import MachImage.Text.Basic

/-!
# Addresses, segments and sections

An `Address` is a place in the address space of a loaded image, 64 bits wide.  It is a type
of its own because file positions and sizes stand next to it everywhere.  Moving past the
end of the address space starts over at zero.

A segment maps a range of the file to a range of memory under given permissions.  It is
recorded as declared; its bytes are not read.

A section is a range of the file that has a meaning of its own: code, strings, a symbol
table.  Some are declared by section headers, others by load commands that point into the
linker's data.  A section is described first and loaded later.
-/

namespace MachImage

open Text

/-! ### Addresses -/

/-- A place in memory. -/
structure Address where
  value : UInt64
  deriving DecidableEq, Repr, Inhabited

namespace Address

/-- The address `distance` bytes further on. -/
def advance (a : Address) (distance : UInt64) : Address := ⟨a.value + distance⟩

def isBefore (a b : Address) : Bool := a.value < b.value

/-- Whether an address is one of the `size` addresses from `start` on. -/
def isWithin (a start : Address) (size : Nat) : Bool :=
  start.value ≤ a.value && (a.value - start.value).toNat < size

def digits (a : Address) : String := hex a.value.toNat

/-- The hexadecimal digits of an address behind `0x`, with zeros between them up to `width`
characters in all. -/
def prefixed (a : Address) (width : Nat) : String :=
  "0x" ++ hexPadded (width - 2) a.value.toNat

/-- An address with all its sixteen digits. -/
def text (a : Address) : String := a.prefixed 18

end Address

/-! ### Segments -/

/-- The permissions of a segment, one bit each. -/
structure Protection where
  bits : UInt32
  deriving DecidableEq, Repr

namespace Protection

def isReadable (p : Protection) : Bool := p.bits &&& 1 ≠ 0

def isWritable (p : Protection) : Bool := p.bits &&& 2 ≠ 0

def isExecutable (p : Protection) : Bool := p.bits &&& 4 ≠ 0

/-- The permissions as three letters, with a dash for each one that is missing. -/
def text (p : Protection) : String :=
  String.ofList [
    if p.isReadable then 'r' else '-',
    if p.isWritable then 'w' else '-',
    if p.isExecutable then 'x' else '-']

end Protection

/-- A segment as a load command declares it.  Its file offset counts from the start of the
whole file. -/
structure Segment where
  name : String
  address : Address
  vmSize : UInt64
  fileOffset : Nat
  fileSize : UInt64
  maxProtection : Protection
  initialProtection : Protection
  /-- The section headers that the command declares. -/
  sectionCount : UInt32
  flags : UInt32
  deriving DecidableEq, Repr

/-! ### Sections -/

/-- What a section holds. -/
inductive SectionKind where
  /-- Program code. -/
  | text
  /-- The stubs through which code of other images is called. -/
  | symbolStubs
  /-- String literals, each with a NUL behind it. -/
  | cString
  /-- The names of symbols. -/
  | stringTable
  /-- The entries of the symbol table. -/
  | symbolTable
  /-- Positions in the symbol table. -/
  | dynamicSymbolTable
  /-- The distances between functions. -/
  | functionStarts
  /-- The signature of the code. -/
  | codeSignature
  deriving DecidableEq, Hashable, Repr

namespace SectionKind

def all : List SectionKind :=
  [text, symbolStubs, cString, stringTable, symbolTable, dynamicSymbolTable, functionStarts,
    codeSignature]

def name : SectionKind → String
  | text => "text"
  | symbolStubs => "symbol-stubs"
  | cString => "cstring"
  | stringTable => "string-table"
  | symbolTable => "symbol-table"
  | dynamicSymbolTable => "dynamic-symbol-table"
  | functionStarts => "function-starts"
  | codeSignature => "code-signature"

end SectionKind

/-- A range of the file with a meaning of its own.  The offset counts from the start of the
whole file; the data are empty until the section is loaded. -/
structure Section where
  kind : SectionKind
  label : String
  address : Address
  size : Nat
  offset : Nat
  data : Array UInt8 := #[]
  deriving DecidableEq, Repr

namespace Section

/-- Whether the section's bytes are there. -/
def isLoaded (s : Section) : Bool := s.size = 0 || !s.data.isEmpty

def contains (s : Section) (a : Address) : Bool := a.isWithin s.address s.size

end Section

end MachImage
