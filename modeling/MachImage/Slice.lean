import Std.Data.HashMap
import MachImage.Layout
import MachImage.StubSize
import MachImage.Symbol.Resolution

/-!
# Slices

A `Slice` is the image for one processor, decoded: what its header says, its sections with
their bytes, its segments, its two symbol tables, what the loader is told, and what had to
be passed over.  `Slice.load` reads all that a layout declares, and `Slice.decode` reads a
slice from its start.

Sections are found by kind, or by an address that lies in them.  A `Register` keeps sections
in the order in which they are added, and notes where the first one of each kind stands, so
that this one is found without a look at the others.
-/

namespace MachImage

/-- A decoded image for one processor. -/
structure Slice where
  /-- Width, byte order, and the start of the slice in the file. -/
  frame : Frame
  cpuType : CpuType
  cpuSubtype : CpuSubtype
  fileType : FileType
  flags : UInt32
  sections : Array Section
  segments : Array Segment
  symbols : SymbolTable
  dynamicSymbols : SymbolTable
  loadInfo : LoadInfo
  diagnostics : Array Diagnostic
  deriving DecidableEq, Repr

namespace Slice

/-! ### Finding sections and symbols -/

/-- The position of the first section of a kind. -/
def indexOf? (slice : Slice) (kind : SectionKind) : Option Nat :=
  slice.sections.findIdx? (·.kind = kind)

def section? (slice : Slice) (kind : SectionKind) : Option Section :=
  slice.sections.find? (·.kind = kind)

def indicesOf (slice : Slice) (kind : SectionKind) : Array Nat :=
  slice.sections.zipIdx.filterMap fun (s, position) =>
    if s.kind = kind then some position else none

def sectionsOf (slice : Slice) (kind : SectionKind) : Array Section :=
  slice.sections.filter (·.kind = kind)

/-- The position of the first section that an address lies in. -/
def indexContaining? (slice : Slice) (a : Address) : Option Nat :=
  slice.sections.findIdx? (·.contains a)

/-- The first section that an address lies in. -/
def sectionContaining? (slice : Slice) (a : Address) : Option Section :=
  slice.sections.find? (·.contains a)

def symbolTable (slice : Slice) : SymbolTableKind → SymbolTable
  | .primary => slice.symbols
  | .dynamic => slice.dynamicSymbols

/-! ### Reading tables -/

def decodeSymbol (width : Width) : Decoder Symbol := do
  let index ← Decoder.u32
  let kind ← Decoder.u8
  let sectionNumber ← Decoder.u8
  let description ← Decoder.u16
  let value ← Decoder.word width
  return { index, value, kind, sectionNumber, description }

def symbolSize (width : Width) : Nat := 8 + width.bytes

def decodeSymbols (frame : Frame) (symtab : Symtab) : Decoder SymbolTable := do
  Decoder.seek (frame.fileOffset symtab.symbolOffset.toNat)
  return ⟨← Decoder.repeated symtab.symbolCount.toNat (decodeSymbol frame.width)⟩

/-- Reads the indirect symbols, which are indices alone. -/
def decodeIndirect (frame : Frame) (indirect : IndirectSymbols) : Decoder SymbolTable := do
  Decoder.seek (frame.fileOffset indirect.offset.toNat)
  return ⟨← Decoder.repeated indirect.count.toNat
    (return { index := ← Decoder.u32, value := 0 })⟩

def symbolSection (frame : Frame) (symtab : Symtab) : Section :=
  { kind := .symbolTable, label := "Symbol Table"
    address := ⟨symtab.symbolOffset.toUInt64⟩
    size := symtab.symbolCount.toNat * symbolSize frame.width
    offset := frame.fileOffset symtab.symbolOffset.toNat }

def indirectSection (frame : Frame) (indirect : IndirectSymbols) : Section :=
  { kind := .dynamicSymbolTable, label := "Dynamic Symbol Table"
    address := ⟨indirect.offset.toUInt64⟩
    size := indirect.count.toNat * 4
    offset := frame.fileOffset indirect.offset.toNat }

def readSymbols (layout : Layout) : Decoder SymbolTable :=
  match layout.symtab? with
  | some symtab => decodeSymbols layout.frame symtab
  | none => pure {}

def readIndirect (layout : Layout) : Decoder SymbolTable :=
  match layout.indirect? with
  | some indirect => decodeIndirect layout.frame indirect
  | none => pure {}

/-- All sections that a layout describes, the two symbol tables last. -/
def described (layout : Layout) : Array Section :=
  layout.sections ++
    (layout.symtab?.map (symbolSection layout.frame)).toArray ++
    (layout.indirect?.map (indirectSection layout.frame)).toArray

def loadSection (s : Section) : Decoder Section :=
  return { s with data := ← Decoder.bytesAt s.offset s.size }

/-! ### Slices from layouts -/

/-- The slice of a layout, given its loaded sections and its symbols as they were read.
Names come from the first string table.  Dynamic symbols are linked only where there are
stubs and primary symbols to link them to. -/
def assemble (stubSize : StubSize) (layout : Layout) (sections : Array Section)
    (symbols dynamicSymbols : SymbolTable) : Slice :=
  let strings := ((sections.find? (·.kind = .stringTable)).map Section.data).getD #[]
  let symbols := symbols.named strings
  let diagnostics := layout.diagnostics ++ symbols.unresolved .primary
  let slice : Slice :=
    { frame := layout.frame
      cpuType := layout.header.cpuType, cpuSubtype := layout.header.cpuSubtype
      fileType := layout.header.fileType, flags := layout.header.flags
      sections, segments := layout.segments
      symbols, dynamicSymbols
      loadInfo := layout.loadInfo, diagnostics }
  match slice.section? .symbolStubs with
  | some stubs =>
    if symbols.isEmpty then slice
    else
      let size := stubSize.resolve slice.cpuType layout.stubEntrySize?
      let linked := dynamicSymbols.linked symbols stubs.address size
      { slice with
        dynamicSymbols := linked
        diagnostics := diagnostics ++ linked.unresolved .dynamic }
  | none => slice

/-- Reads all that a layout declares: both symbol tables, then the bytes of all sections. -/
def load (stubSize : StubSize) (layout : Layout) : Decoder Slice := do
  let symbols ← readSymbols layout
  let dynamicSymbols ← readIndirect layout
  let sections ← (described layout).mapM loadSection
  return assemble stubSize layout sections symbols dynamicSymbols

/-- Reads the slice at `base`. -/
def decode (stubSize : StubSize) (base : Nat) : Decoder Slice := do
  load stubSize (← Layout.decode base)

end Slice

/-! ### Registers of sections -/

/-- Sections in the order of their registration, and where the first one of each kind stands. -/
structure Register where
  sections : Array Section := #[]
  firsts : Std.HashMap SectionKind Nat := {}

namespace Register

/-- Registers a section behind all others.  Its place is noted if it is the first of its kind. -/
def add (register : Register) (s : Section) : Register :=
  { sections := register.sections.push s
    firsts := register.firsts.insertIfNew s.kind register.sections.size }

/-- The register of sections that are registered one by one. -/
def ofSections (added : List Section) : Register := added.foldl add {}

/-- The section that is noted as the first of a kind. -/
def section? (register : Register) (kind : SectionKind) : Option Section :=
  register.firsts[kind]?.bind fun position => register.sections[position]?

def sectionsOf (register : Register) (kind : SectionKind) : Array Section :=
  register.sections.filter (·.kind = kind)

/-- The first section that an address lies in. -/
def sectionContaining? (register : Register) (a : Address) : Option Section :=
  register.sections.find? (·.contains a)

end Register

end MachImage
