import Mathlib.Data.List.Basic
import MachImage.Proofs.Layout.Declared

/-! # What is recorded of load commands

A slice records its commands with what is odd about each of them, which changes nothing
else: the layout is what the commands declare, and the diagnostics stand in the order of
the commands (`Layout.foldl_record`).

Sections are looked up by their kind later.  Those of stubs come from the headers that are
kept as such (`filter_keptSections_stubs`), every symbol table brings one string table
along (`filter_keptSections_strings`), and no command by itself declares the tables of
symbols as sections (`filter_keptSections_tables`). -/

namespace MachImage

/-! ### Recording -/

namespace Layout

theorem apply_diagnostics (layout : Layout) (diagnostics : Array Diagnostic)
    (command : LoadCommand) :
    { layout with diagnostics }.apply command = { layout.apply command with diagnostics } := by
  cases command with
  | segment command => simp only [apply, addSegment, ← Array.foldl_toList, foldl_addSection]
  | linkEdit kind offset size => cases kind <;> rfl
  | _ => rfl

/-- Commands that are recorded declare what they declare on their own, and leave their
diagnostics in their order. -/
theorem foldl_record (frame : Frame) (header : Header)
    (commands : List (CommandHeader × LoadCommand)) :
    commands.foldl record { frame, header } =
      { declared frame header (commands.map Prod.snd) with
        diagnostics := (commands.flatMap fun read => read.2.diagnostics read.1).toArray } := by
  induction commands using List.reverseRecOn with
  | nil => rfl
  | append_singleton commands read ih =>
      rw [List.foldl_append, ih, List.foldl_cons, List.foldl_nil, List.map_append, List.map_cons,
        List.map_nil, declared_concat]
      simp [record, apply_diagnostics]

end Layout

/-! ### Sections of a kind -/

namespace SectionHeader

/-- Whether a rule keeps the section as one of the kind. -/
def isKeptAs (kind : SectionKind) (header : SectionHeader) : Bool :=
  (SectionRule.for? header).any (·.kind = kind)

theorem exists_section?_of_isKeptAs {kind : SectionKind} {header : SectionHeader}
    (h : header.isKeptAs kind) (frame : Frame) :
    ∃ s, header.section? frame = some s ∧ s.data = #[] := by
  unfold isKeptAs at h
  unfold section?
  cases hrule : SectionRule.for? header with
  | none =>
      rw [hrule] at h
      cases h
  | some rule => exact ⟨_, rfl, rfl⟩

/-- Rules keep code, stubs and strings of the program alone. -/
theorem isKeptAs_eq_false {kind : SectionKind} (header : SectionHeader)
    (h : kind ≠ .text ∧ kind ≠ .symbolStubs ∧ kind ≠ .cString) : header.isKeptAs kind = false := by
  have hrules : ∀ rule ∈ SectionRule.all,
      rule.kind = .text ∨ rule.kind = .symbolStubs ∨ rule.kind = .cString := by decide
  unfold isKeptAs
  cases hrule : SectionRule.for? header with
  | none => rfl
  | some rule =>
      have hkind := hrules rule (List.mem_of_find?_eq_some hrule)
      have hne : rule.kind ≠ kind := by
        rintro rfl
        tauto
      simp [hne]

theorem filter_section? (frame : Frame) (kind : SectionKind) (headers : List SectionHeader) :
    (headers.filterMap (section? frame)).filter (·.kind = kind) =
      (headers.filter (isKeptAs kind)).filterMap (section? frame) := by
  rw [List.filter_filterMap, List.filterMap_filter]
  congr 1
  funext header
  unfold isKeptAs section?
  cases SectionRule.for? header with
  | none => simp
  | some rule => by_cases hkind : rule.kind = kind <;> simp [Option.filter, hkind]

theorem filterMap_stubEntrySize? (headers : List SectionHeader) :
    headers.filterMap stubEntrySize? = (headers.filter (isKeptAs .symbolStubs)).map reserved2 := by
  rw [← List.filterMap_eq_map, List.filterMap_filter]
  congr 1
  funext header
  unfold isKeptAs stubEntrySize?
  cases SectionRule.for? header with
  | none => rfl
  | some rule => by_cases hkind : rule.kind = .symbolStubs <;> simp [hkind]

end SectionHeader

/-- The strings of a symbol table as a section. -/
def Symtab.stringSection (frame : Frame) (table : Symtab) : Section :=
  LoadCommand.linkEditSection frame .stringTable "String Table" table.stringOffset
    table.stringSize

namespace LoadCommand

/-- The headers of a command that are kept as sections of the kind. -/
def headersKeptAs (kind : SectionKind) : LoadCommand → List SectionHeader
  | segment command => command.sections.toList.filter (SectionHeader.isKeptAs kind)
  | _ => []

theorem isKeptAs_of_mem {kind : SectionKind} {command : LoadCommand}
    {header : SectionHeader} (h : header ∈ command.headersKeptAs kind) : header.isKeptAs kind := by
  cases command with
  | segment command => exact (List.mem_filter.mp h).2
  | _ => cases h

variable (frame : Frame)

theorem filter_keptSections_segment (kind : SectionKind) (command : SegmentCommand) :
    ((segment command).keptSections frame).filter (·.kind = kind) =
      ((segment command).headersKeptAs kind).filterMap (SectionHeader.section? frame) :=
  SectionHeader.filter_section? frame kind command.sections.toList

theorem headersKeptAs_eq_nil {kind : SectionKind} (command : LoadCommand)
    (h : kind ≠ .text ∧ kind ≠ .symbolStubs ∧ kind ≠ .cString) :
    command.headersKeptAs kind = [] := by
  cases command with
  | segment command =>
      exact List.filter_eq_nil_iff.mpr fun header _ => by simp [header.isKeptAs_eq_false h]
  | _ => rfl

theorem filter_keptSections_stubs (commands : List LoadCommand) :
    (commands.flatMap (keptSections frame)).filter (·.kind = .symbolStubs) =
      (commands.flatMap (headersKeptAs .symbolStubs)).filterMap
        (SectionHeader.section? frame) := by
  rw [List.filter_flatMap, List.filterMap_flatMap]
  congr 1
  funext command
  cases command with
  | segment command => exact filter_keptSections_segment frame .symbolStubs command
  | linkEdit kind offset size => cases kind <;> rfl
  | _ => rfl

theorem filter_keptSections_strings (commands : List LoadCommand) :
    (commands.flatMap (keptSections frame)).filter (·.kind = .stringTable) =
      (commands.filterMap symtab?).map (Symtab.stringSection frame) := by
  rw [List.filter_flatMap, List.filterMap_eq_flatMap_toList, List.map_flatMap]
  congr 1
  funext command
  cases command with
  | segment command =>
      rw [filter_keptSections_segment, headersKeptAs_eq_nil _ (by decide)]
      rfl
  | linkEdit kind offset size => cases kind <;> rfl
  | _ => rfl

/-- No command declares a table of symbols as a section by itself. -/
theorem filter_keptSections_tables (commands : List LoadCommand) {kind : SectionKind}
    (h : kind = .symbolTable ∨ kind = .dynamicSymbolTable) :
    (commands.flatMap (keptSections frame)).filter (·.kind = kind) = [] := by
  rw [List.filter_flatMap, List.flatMap_eq_nil_iff]
  intro command _
  cases command with
  | segment command =>
      rw [filter_keptSections_segment,
        headersKeptAs_eq_nil _ (by rcases h with rfl | rfl <;> decide)]
      rfl
  | linkEdit kind' offset size => rcases h with rfl | rfl <;> cases kind' <;> rfl
  | _ => rcases h with rfl | rfl <;> rfl

theorem flatMap_stubEntrySizes (commands : List LoadCommand) :
    commands.flatMap stubEntrySizes =
      (commands.flatMap (headersKeptAs .symbolStubs)).map SectionHeader.reserved2 := by
  rw [List.map_flatMap]
  congr 1
  funext command
  cases command with
  | segment command => exact SectionHeader.filterMap_stubEntrySize? command.sections.toList
  | _ => rfl

end LoadCommand

end MachImage
