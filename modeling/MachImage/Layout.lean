import MachImage.Symbol.Resolution
import MachImage.LoadCommand
import MachImage.Memory

/-!
# Layouts

A `Layout` is what the load commands of a slice declare, before any of it is read: where
its sections are, its segments, where its symbols are, and what the loader is told.
`Layout.apply` adds one command, `Layout.record` also notes what is odd about it, and
`Layout.decode` reads the header and all commands of a slice.

Of the sections only those named by `SectionRule.all` are kept.  Strings, function starts
and the code signature are sections too, though no segment declares them.
-/

namespace MachImage

/-- A section that is kept: its segment and name, what it holds, and its label. -/
structure SectionRule where
  segmentName : String
  sectionName : String
  kind : SectionKind
  label : String
  deriving DecidableEq, Repr

namespace SectionRule

/-- The sections that are kept. -/
def all : List SectionRule := [
  ⟨"__TEXT", "__text", .text, "Program"⟩,
  ⟨"__TEXT", "__symbol_stub", .symbolStubs, "Symbol Stubs"⟩,
  ⟨"__TEXT", "__stubs", .symbolStubs, "Symbol Stubs"⟩,
  ⟨"__TEXT", "__cstring", .cString, "C-Strings"⟩,
  ⟨"__TEXT", "__objc_methname", .cString, "ObjC Method Names"⟩]

/-- The rule by which a section is kept, if it is. -/
def for? (header : SectionHeader) : Option SectionRule :=
  all.find? fun rule =>
    rule.segmentName = header.segmentName && rule.sectionName = header.sectionName

end SectionRule

/-- What the loader is told with one more command.  Of a thing that can be told only once
the last word counts. -/
def LoadInfo.add (info : LoadInfo) : LoadCommand → LoadInfo
  | .dylib dylib => { info with dylibs := info.dylibs.push dylib }
  | .path .dylinker path => { info with dylinker? := some path }
  | .path .environment setting => { info with environment := info.environment.push setting }
  | .path .rpath path => { info with rpaths := info.rpaths.push path }
  | .uuid uuid => { info with uuid? := some uuid }
  | .minimum minimum => { info with minimum? := some minimum }
  | .source version => { info with source? := some version }
  | .main entry => { info with entry? := some entry }
  | _ => info

/-- What is odd about a load command. -/
def LoadCommand.diagnostics (header : CommandHeader) (command : LoadCommand) :
    List Diagnostic :=
  (if header.isUndersized then
    [.undersizedCommand header.tag header.offset header.size] else []) ++
  (if command = .unrecognized then
    [.unrecognizedCommand header.tag header.offset header.size] else [])

/-- What the load commands of a slice declare. -/
structure Layout where
  frame : Frame
  header : Header
  /-- The sections, in the order of the commands that declare them. -/
  sections : Array Section := #[]
  segments : Array Segment := #[]
  symtab? : Option Symtab := none
  indirect? : Option IndirectSymbols := none
  /-- The size of a stub, as the first section of stubs declares it. -/
  stubEntrySize? : Option UInt32 := none
  loadInfo : LoadInfo := {}
  diagnostics : Array Diagnostic := #[]
  deriving DecidableEq, Repr

namespace Layout

/-- Adds a section if it is to be kept. -/
def addSection (layout : Layout) (header : SectionHeader) : Layout :=
  match SectionRule.for? header with
  | none => layout
  | some rule =>
    { layout with
      stubEntrySize? :=
        if rule.kind = .symbolStubs then layout.stubEntrySize?.or (some header.reserved2)
        else layout.stubEntrySize?
      sections := layout.sections.push
        { kind := rule.kind, label := rule.label, address := ⟨header.address⟩
          size := header.size.toNat, offset := layout.frame.fileOffset header.offset.toNat } }

/-- Adds a segment, and those of its sections that are to be kept. -/
def addSegment (layout : Layout) (command : SegmentCommand) : Layout :=
  let layout := command.sections.foldl addSection layout
  { layout with segments := layout.segments.push command.segment }

/-- Adds a piece of the linker's data as a section.  No segment maps it by itself, and its
offset in the slice serves as its address. -/
def addLinkEdit (layout : Layout) (kind : SectionKind) (label : String) (offset size : UInt32) :
    Layout :=
  { layout with
    sections := layout.sections.push
      { kind, label, address := ⟨offset.toUInt64⟩, size := size.toNat
        offset := layout.frame.fileOffset offset.toNat } }

def apply (layout : Layout) : LoadCommand → Layout
  | .segment command => layout.addSegment command
  | .symtab symtab =>
    { layout.addLinkEdit .stringTable "String Table" symtab.stringOffset symtab.stringSize with
      symtab? := some symtab }
  | .dysymtab indirect => { layout with indirect? := some indirect }
  | .linkEdit .functionStarts offset size =>
    layout.addLinkEdit .functionStarts "Function Starts" offset size
  | .linkEdit .codeSignature offset size =>
    layout.addLinkEdit .codeSignature "Code Signature" offset size
  | command => { layout with loadInfo := layout.loadInfo.add command }

/-- Adds what a command declares and what is odd about it. -/
def record (layout : Layout) (read : CommandHeader × LoadCommand) : Layout :=
  let (header, command) := read
  { layout with
    diagnostics := layout.diagnostics ++ command.diagnostics header }.apply command

/-- Reads the header and all load commands of the slice at `base`. -/
def decode (base : Nat) : Decoder Layout := do
  let (frame, header) ← Header.decode base
  let commands ← Decoder.repeated header.commandCount.toNat (LoadCommand.decode frame)
  return commands.foldl record { frame, header }

end Layout

end MachImage
