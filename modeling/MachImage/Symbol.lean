import MachImage.Memory

/-!
# Symbols

A `Symbol` is an entry of a symbol table: a raw index, a value, three fields about its kind,
and a name once the index has been resolved.  In the primary table the index is a position
in the string table, in the dynamic one it is a position in the primary table.

The name tells in which language a symbol was written.  Names of Rust are told by a
`Demangler`, which also gives the paths that they were mangled from; the marks of the other
languages are looked for in the name itself.
-/

namespace MachImage

/-- The two symbol tables of an image. -/
inductive SymbolTableKind where
  /-- The table of all symbols. -/
  | primary
  /-- The table of symbols that are called through stubs. -/
  | dynamic
  deriving DecidableEq, Repr

def SymbolTableKind.name : SymbolTableKind → String
  | primary => "symbol table"
  | dynamic => "dynamic symbol table"

/-- The language that a name was mangled for. -/
inductive Language where
  | rust
  | cpp
  /-- C, or any other language that leaves names as they are. -/
  | c
  /-- There is no name to tell from. -/
  | unknown
  deriving DecidableEq, Repr

/-- A program that knows how names of Rust are mangled. -/
class Demangler where
  /-- The path that a name was mangled from as people read it, if the name is mangled. -/
  demangle? : String → Option String

namespace Language

def name : Language → String
  | rust => "rust"
  | cpp => "c++"
  | c => "c"
  | unknown => "unknown"

/-- A symbol's name without the underscore that stands in front of all names. -/
def withoutUnderscore : List Char → List Char
  | '_' :: rest => rest
  | name => name

def ofName [Demangler] (name : String) : Language :=
  let bare := withoutUnderscore name.toList
  if name.isEmpty then unknown
  else if "_R".toList.isPrefixOf bare || (Demangler.demangle? name).isSome then rust
  else if "_Z".toList.isPrefixOf bare then cpp
  else c

end Language

/-- An entry of a symbol table. -/
structure Symbol where
  index : UInt32
  value : UInt64
  kind : UInt8 := 0
  sectionNumber : UInt8 := 0
  description : UInt16 := 0
  /-- The name, once the index has been resolved. -/
  name? : Option String := none
  deriving DecidableEq, Repr

namespace Symbol

/-- The name, empty for a symbol that is not resolved. -/
def name (s : Symbol) : String := s.name?.getD ""

/-- Whether the index has been resolved. -/
def isResolved (s : Symbol) : Bool := s.name?.isSome

/-- Whether the symbol is there for debuggers. -/
def isDebug (s : Symbol) : Bool := s.kind &&& 0xE0 ≠ 0

/-- Whether the symbol can be seen from other images. -/
def isExternal (s : Symbol) : Bool := s.kind &&& 0x01 ≠ 0

/-- The path that the name was mangled from, if it is mangled. -/
def demangled? [Demangler] (s : Symbol) : Option String :=
  if s.name.isEmpty then none else Demangler.demangle? s.name

def language [Demangler] (s : Symbol) : Language := Language.ofName s.name

/-- The name as people read it. -/
def text [Demangler] (s : Symbol) : String := s.demangled?.getD s.name

end Symbol

/-- Symbols in the order of the file; names may repeat. -/
structure SymbolTable where
  symbols : Array Symbol := #[]
  deriving DecidableEq, Repr

namespace SymbolTable

def size (t : SymbolTable) : Nat := t.symbols.size

def isEmpty (t : SymbolTable) : Bool := t.symbols.isEmpty

/-- The table with one more symbol at its end. -/
def push (t : SymbolTable) (s : Symbol) : SymbolTable := ⟨t.symbols.push s⟩

def get? (t : SymbolTable) (position : Nat) : Option Symbol := t.symbols[position]?

/-- The position of the first symbol with a name. -/
def indexOf? (t : SymbolTable) (name : String) : Option Nat :=
  t.symbols.findIdx? (·.name = name)

def find? (t : SymbolTable) (name : String) : Option Symbol :=
  t.symbols.find? (·.name = name)

end SymbolTable

end MachImage
