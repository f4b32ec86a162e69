import Mathlib.Data.List.Induction
import Mathlib.Data.Nat.Notation
import MachImage.Layout

/-! # What a list of load commands declares

`Layout.apply` adds the commands one by one.  `Layout.declared` says what comes of all of
them without an order of steps: the segments and the kept sections stand in the order of
the commands, of the tables, the versions and the like the last one counts, and of the sizes
of stubs the first.  Both agree (`Layout.foldl_apply`); one more command at the end is the
step of the induction (`Layout.declared_concat`). -/

namespace MachImage

/-! ### Sections of a segment -/

namespace SectionRule

theorem eq_of_names : ∀ rule ∈ all, ∀ rule' ∈ all, rule.segmentName = rule'.segmentName →
    rule.sectionName = rule'.sectionName → rule = rule' := by
  decide

theorem for?_eq_some_iff {header : SectionHeader} {rule : SectionRule} :
    for? header = some rule ↔ rule ∈ all ∧ header.sectionName = rule.sectionName ∧
      header.segmentName = rule.segmentName := by
  constructor
  · intro h
    have hnames := List.find?_some h
    rw [Bool.and_eq_true, decide_eq_true_eq, decide_eq_true_eq] at hnames
    exact ⟨List.mem_of_find?_eq_some h, hnames.2.symm, hnames.1.symm⟩
  · rintro ⟨hmem, hsection, hsegment⟩
    have hsome : (for? header).isSome := by
      rw [for?, List.find?_isSome]
      exact ⟨rule, hmem, by simp [hsection, hsegment]⟩
    obtain ⟨rule', hrule'⟩ := Option.isSome_iff_exists.mp hsome
    have hnames := List.find?_some hrule'
    rw [Bool.and_eq_true, decide_eq_true_eq, decide_eq_true_eq, hsegment, hsection] at hnames
    rw [hrule', eq_of_names rule' (List.mem_of_find?_eq_some hrule') rule hmem hnames.1 hnames.2]

end SectionRule

/-- The section with a header, if a rule keeps it. -/
def SectionHeader.section? (frame : Frame) (header : SectionHeader) : Option Section :=
  (SectionRule.for? header).map fun rule =>
    { kind := rule.kind, label := rule.label, address := ⟨header.address⟩
      size := header.size.toNat, offset := frame.fileOffset header.offset.toNat }

/-- Code, stubs and literals of the program are kept, for their names. -/
theorem SectionHeader.section?_eq_some_iff {frame : Frame} {header : SectionHeader}
    {s : Section} :
    header.section? frame = some s ↔
      (header.segmentName, header.sectionName, s.kind, s.label) ∈
          [("__TEXT", "__text", .text, "Program"),
            ("__TEXT", "__symbol_stub", .symbolStubs, "Symbol Stubs"),
            ("__TEXT", "__stubs", .symbolStubs, "Symbol Stubs"),
            ("__TEXT", "__cstring", .cString, "C-Strings"),
            ("__TEXT", "__objc_methname", SectionKind.cString, "ObjC Method Names")] ∧
        s = { kind := s.kind, label := s.label, address := ⟨header.address⟩
              size := header.size.toNat, offset := frame.fileOffset header.offset.toNat } := by
  constructor
  · intro h
    obtain ⟨rule, hrule, rfl⟩ := Option.map_eq_some_iff.mp h
    obtain ⟨hmem, hsection, hsegment⟩ := SectionRule.for?_eq_some_iff.mp hrule
    refine ⟨?_, rfl⟩
    obtain ⟨segmentName, sectionName, kind, label⟩ := rule
    simpa [SectionRule.all, hsegment, hsection] using hmem
  · rintro ⟨hmem, hs⟩
    have hrule : SectionRule.for? header =
        some ⟨header.segmentName, header.sectionName, s.kind, s.label⟩ := by
      rw [SectionRule.for?_eq_some_iff]
      refine ⟨?_, rfl, rfl⟩
      simpa [SectionRule.all] using hmem
    rw [section?, hrule, Option.map_some, ← hs]

/-- The size of a stub, if a rule keeps the section as one of stubs. -/
def SectionHeader.stubEntrySize? (header : SectionHeader) : Option UInt32 :=
  (SectionRule.for? header).bind fun rule =>
    if rule.kind = .symbolStubs then some header.reserved2 else none

namespace Layout

theorem foldl_addSection (layout : Layout) (headers : List SectionHeader) :
    headers.foldl addSection layout =
      { layout with
        sections :=
          layout.sections ++ (headers.filterMap (SectionHeader.section? layout.frame)).toArray
        stubEntrySize? :=
          layout.stubEntrySize?.or (headers.filterMap SectionHeader.stubEntrySize?).head? } := by
  induction headers generalizing layout with
  | nil => simp
  | cons header rest ih =>
      rw [List.foldl_cons, ih]
      cases hrule : SectionRule.for? header with
      | none => simp [addSection, SectionHeader.section?, SectionHeader.stubEntrySize?, hrule]
      | some rule =>
          by_cases hstubs : rule.kind = .symbolStubs
          · simp [addSection, SectionHeader.section?, SectionHeader.stubEntrySize?, hrule, hstubs]
          · simp [addSection, SectionHeader.section?, SectionHeader.stubEntrySize?, hrule, hstubs]

end Layout

/-! ### What one command is about -/

namespace LoadCommand

/-- A piece of the linker's data as a section. -/
def linkEditSection (frame : Frame) (kind : SectionKind) (label : String) (offset size : UInt32) :
    Section :=
  { kind, label, address := ⟨offset.toUInt64⟩, size := size.toNat
    offset := frame.fileOffset offset.toNat }

@[simp] def keptSections (frame : Frame) : LoadCommand → List Section
  | segment command => command.sections.toList.filterMap (SectionHeader.section? frame)
  | symtab table =>
    [linkEditSection frame .stringTable "String Table" table.stringOffset table.stringSize]
  | linkEdit .functionStarts offset size =>
    [linkEditSection frame .functionStarts "Function Starts" offset size]
  | linkEdit .codeSignature offset size =>
    [linkEditSection frame .codeSignature "Code Signature" offset size]
  | _ => []

@[simp] def stubEntrySizes : LoadCommand → List UInt32
  | segment command => command.sections.toList.filterMap SectionHeader.stubEntrySize?
  | _ => []

@[simp] def segment? : LoadCommand → Option Segment
  | segment command => some command.segment
  | _ => none

@[simp] def symtab? : LoadCommand → Option Symtab
  | symtab table => some table
  | _ => none

@[simp] def indirect? : LoadCommand → Option IndirectSymbols
  | dysymtab table => some table
  | _ => none

@[simp] def dylib? : LoadCommand → Option Dylib
  | dylib library => some library
  | _ => none

@[simp] def path? (kind : PathKind) : LoadCommand → Option String
  | path kind' text => if kind' = kind then some text else none
  | _ => none

@[simp] def uuid? : LoadCommand → Option Uuid
  | uuid mark => some mark
  | _ => none

@[simp] def minimum? : LoadCommand → Option MinimumVersion
  | minimum version => some version
  | _ => none

@[simp] def source? : LoadCommand → Option SourceVersion
  | source version => some version
  | _ => none

@[simp] def entry? : LoadCommand → Option EntryPoint
  | main entry => some entry
  | _ => none

end LoadCommand

/-! ### What all commands declare -/

/-- What the loader is told by some commands. -/
def LoadInfo.declared (commands : List LoadCommand) : LoadInfo where
  dylibs := (commands.filterMap LoadCommand.dylib?).toArray
  dylinker? := (commands.filterMap (LoadCommand.path? .dylinker)).getLast?
  environment := (commands.filterMap (LoadCommand.path? .environment)).toArray
  rpaths := (commands.filterMap (LoadCommand.path? .rpath)).toArray
  uuid? := (commands.filterMap LoadCommand.uuid?).getLast?
  minimum? := (commands.filterMap LoadCommand.minimum?).getLast?
  source? := (commands.filterMap LoadCommand.source?).getLast?
  entry? := (commands.filterMap LoadCommand.entry?).getLast?

/-- What some commands behind a header declare. -/
def Layout.declared (frame : Frame) (header : Header) (commands : List LoadCommand) : Layout where
  frame := frame
  header := header
  sections := (commands.flatMap (LoadCommand.keptSections frame)).toArray
  segments := (commands.filterMap LoadCommand.segment?).toArray
  symtab? := (commands.filterMap LoadCommand.symtab?).getLast?
  indirect? := (commands.filterMap LoadCommand.indirect?).getLast?
  stubEntrySize? := (commands.flatMap LoadCommand.stubEntrySizes).head?
  loadInfo := LoadInfo.declared commands

theorem LoadInfo.declared_concat (commands : List LoadCommand) (command : LoadCommand) :
    LoadInfo.declared (commands ++ [command]) = (LoadInfo.declared commands).add command := by
  cases command with
  | path kind text => cases kind <;> simp [declared, add]
  | _ => simp [declared, add]

theorem Layout.declared_concat (frame : Frame) (header : Header) (commands : List LoadCommand)
    (command : LoadCommand) :
    declared frame header (commands ++ [command]) =
      (declared frame header commands).apply command := by
  have hinfo := LoadInfo.declared_concat commands command
  cases command with
  | segment command =>
      simp only [apply, addSegment, ← Array.foldl_toList, foldl_addSection]
      simp [declared, hinfo, LoadInfo.add, List.head?_append]
  | linkEdit kind offset size =>
      cases kind <;>
        simp [declared, hinfo, apply, addLinkEdit, LoadInfo.add, LoadCommand.linkEditSection]
  | symtab table =>
      simp [declared, hinfo, apply, addLinkEdit, LoadInfo.add, LoadCommand.linkEditSection]
  | dysymtab table => simp [declared, hinfo, apply, LoadInfo.add]
  | _ => simp [declared, hinfo, apply]

end MachImage
