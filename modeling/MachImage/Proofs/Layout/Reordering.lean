import Mathlib.Data.List.Perm.Basic
import MachImage.Proofs.Layout.Recorded

/-! # Load commands in another order

Two commands of different variants declare different things, so nothing but the order of
the sections tells which of them came first.  Lists of commands that agree in each variant
(`LoadCommand.Reordered`) declare the same segments, tables and so on from any layout on,
and of every kind the same sections in the same order (`Layout.sameByKind_of_reordered`).

Whatever commands declare is gathered from each of them, and each part of it from commands
of one variant (`Reordered.flatMap_eq`); the variant that the sections of a kind come from
is `SectionKind.declaredBy`.  What was there before is left where it is, in front
(`Layout.foldl_apply_eq`). -/

namespace MachImage

/-! ### Variants of commands -/

namespace LoadCommand

/-- What sort of command one is.  The pieces of the linker's data differ in what they are
for, and so do the paths. -/
inductive Variant where
  | segment
  | symtab
  | dysymtab
  | dylib
  | path (kind : PathKind)
  | uuid
  | minimum
  | source
  | main
  | linkEdit (kind : LinkEditKind)
  | consumed
  | unrecognized
  deriving DecidableEq, Repr

def variant : LoadCommand → Variant
  | segment _ => .segment
  | symtab _ => .symtab
  | dysymtab _ => .dysymtab
  | dylib _ => .dylib
  | path kind _ => .path kind
  | uuid _ => .uuid
  | minimum _ => .minimum
  | source _ => .source
  | main _ => .main
  | linkEdit kind _ _ => .linkEdit kind
  | consumed => .consumed
  | unrecognized => .unrecognized

/-- The lists hold the same commands of each variant, in the same order. -/
def Reordered (xs ys : List LoadCommand) : Prop :=
  ∀ v : Variant, xs.filter (·.variant = v) = ys.filter (·.variant = v)

namespace Reordered

variable {xs ys : List LoadCommand}

theorem perm (h : Reordered xs ys) : xs.Perm ys := by
  rw [List.perm_iff_count]
  intro command
  have hcount : ∀ zs : List LoadCommand,
      (zs.filter (·.variant = command.variant)).count command = zs.count command :=
    fun zs => List.count_filter (by simp)
  rw [← hcount xs, ← hcount ys, h]

/-- Variants that no command has need not be looked at. -/
theorem iff_forall_mem : Reordered xs ys ↔
    ∀ command ∈ xs ++ ys,
      xs.filter (·.variant = command.variant) = ys.filter (·.variant = command.variant) := by
  refine ⟨fun h command _ => h command.variant, fun h v => ?_⟩
  by_cases hv : ∃ command ∈ xs ++ ys, command.variant = v
  · obtain ⟨command, hmem, rfl⟩ := hv
    exact h command hmem
  · have hnil : ∀ zs : List LoadCommand, (∀ command ∈ zs, command ∈ xs ++ ys) →
        zs.filter (·.variant = v) = [] := by
      intro zs hzs
      rw [List.filter_eq_nil_iff]
      intro command hmem
      simpa using fun hvariant => hv ⟨command, hzs command hmem, hvariant⟩
    rw [hnil xs fun _ hmem => List.mem_append_left ys hmem,
      hnil ys fun _ hmem => List.mem_append_right xs hmem]

instance (xs ys : List LoadCommand) : Decidable (Reordered xs ys) :=
  decidable_of_iff _ iff_forall_mem.symm

/-- What is gathered from the commands of one variant is the same in either order. -/
theorem flatMap_eq {β : Type} {f : LoadCommand → List β} (h : Reordered xs ys) (v : Variant)
    (hf : ∀ command, command.variant ≠ v → f command = []) : xs.flatMap f = ys.flatMap f := by
  have hfilter : ∀ zs : List LoadCommand,
      zs.flatMap f = (zs.filter (·.variant = v)).flatMap f := by
    intro zs
    induction zs with
    | nil => rfl
    | cons command rest ih =>
        by_cases hv : command.variant = v
        · rw [List.filter_cons_of_pos (by simpa using hv), List.flatMap_cons, List.flatMap_cons, ih]
        · rw [List.filter_cons_of_neg (by simpa using hv), List.flatMap_cons, hf command hv,
            List.nil_append, ih]
  rw [hfilter xs, hfilter ys, h v]

theorem filterMap_eq {β : Type} {f : LoadCommand → Option β} (h : Reordered xs ys) (v : Variant)
    (hf : ∀ command, command.variant ≠ v → f command = none) :
    xs.filterMap f = ys.filterMap f := by
  rw [List.filterMap_eq_flatMap_toList, List.filterMap_eq_flatMap_toList]
  refine h.flatMap_eq v fun command hv => ?_
  rw [hf command hv, Option.toList_none]

end Reordered

end LoadCommand

/-! ### Where sections come from -/

/-- The variant of the commands that declare the sections of a kind. -/
def SectionKind.declaredBy : SectionKind → LoadCommand.Variant
  | text | symbolStubs | cString => .segment
  | stringTable | symbolTable => .symtab
  | dynamicSymbolTable => .dysymtab
  | functionStarts => .linkEdit .functionStarts
  | codeSignature => .linkEdit .codeSignature

namespace LoadCommand

theorem filter_keptSections_eq_nil (frame : Frame) {kind : SectionKind} {command : LoadCommand}
    (h : command.variant ≠ kind.declaredBy) :
    (command.keptSections frame).filter (·.kind = kind) = [] := by
  cases command with
  | segment command =>
      have hkind : kind ≠ .text ∧ kind ≠ .symbolStubs ∧ kind ≠ .cString := by
        refine ⟨?_, ?_, ?_⟩ <;> (rintro rfl; exact h rfl)
      rw [filter_keptSections_segment, headersKeptAs_eq_nil _ hkind]
      rfl
  | symtab table => cases kind <;> first | rfl | exact absurd rfl h
  | linkEdit piece offset size =>
      cases piece <;> cases kind <;> first | rfl | exact absurd rfl h
  | _ => rfl

variable {xs ys : List LoadCommand}

theorem Reordered.filter_keptSections (h : Reordered xs ys) (frame : Frame)
    (kind : SectionKind) :
    (xs.flatMap (keptSections frame)).filter (·.kind = kind) =
      (ys.flatMap (keptSections frame)).filter (·.kind = kind) := by
  rw [List.filter_flatMap, List.filter_flatMap]
  exact h.flatMap_eq kind.declaredBy fun command => filter_keptSections_eq_nil frame

end LoadCommand

/-! ### Going on from a layout -/

/-- What the loader is told first, with what it is told later. -/
def LoadInfo.followedBy (info later : LoadInfo) : LoadInfo where
  dylibs := info.dylibs ++ later.dylibs
  dylinker? := later.dylinker?.or info.dylinker?
  environment := info.environment ++ later.environment
  rpaths := info.rpaths ++ later.rpaths
  uuid? := later.uuid?.or info.uuid?
  minimum? := later.minimum?.or info.minimum?
  source? := later.source?.or info.source?
  entry? := later.entry?.or info.entry?

/-- A layout with what is declared later. -/
def Layout.followedBy (layout later : Layout) : Layout :=
  { layout with
    sections := layout.sections ++ later.sections
    segments := layout.segments ++ later.segments
    symtab? := later.symtab?.or layout.symtab?
    indirect? := later.indirect?.or layout.indirect?
    stubEntrySize? := layout.stubEntrySize?.or later.stubEntrySize?
    loadInfo := layout.loadInfo.followedBy later.loadInfo }

theorem LoadInfo.followedBy_add (info later : LoadInfo) (command : LoadCommand) :
    info.followedBy (later.add command) = (info.followedBy later).add command := by
  cases command with
  | path kind text => cases kind <;> simp [followedBy, add]
  | _ => simp [followedBy, add]

theorem Layout.followedBy_apply (layout later : Layout) (hframe : later.frame = layout.frame)
    (command : LoadCommand) :
    layout.followedBy (later.apply command) = (layout.followedBy later).apply command := by
  have hinfo := layout.loadInfo.followedBy_add later.loadInfo command
  cases command with
  | segment command =>
      simp only [apply, addSegment, ← Array.foldl_toList, foldl_addSection]
      simp [followedBy, hframe, Option.or_assoc]
  | linkEdit kind offset size =>
      cases kind <;> simp [followedBy, hframe, hinfo, apply, addLinkEdit]
  | symtab table => simp [followedBy, hframe, apply, addLinkEdit]
  | dysymtab table => simp [followedBy, apply]
  | _ => simp [followedBy, hinfo, apply]

theorem Layout.foldl_apply_eq (layout : Layout) (commands : List LoadCommand) :
    commands.foldl apply layout =
      layout.followedBy (declared layout.frame layout.header commands) := by
  induction commands using List.reverseRecOn with
  | nil => simp [followedBy, declared, LoadInfo.followedBy, LoadInfo.declared]
  | append_singleton commands command ih =>
      rw [List.foldl_append, ih, List.foldl_cons, List.foldl_nil, declared_concat,
        followedBy_apply layout (declared layout.frame layout.header commands) rfl]

/-! ### Layouts of reordered commands -/

namespace LoadCommand.Reordered

variable {xs ys : List LoadCommand}

theorem loadInfo_eq (h : Reordered xs ys) : LoadInfo.declared xs = LoadInfo.declared ys := by
  have hdylibs : xs.filterMap dylib? = ys.filterMap dylib? :=
    h.filterMap_eq .dylib fun command hv => by
      cases command <;> first | rfl | exact absurd rfl hv
  have hpaths (kind : PathKind) : xs.filterMap (path? kind) = ys.filterMap (path? kind) :=
    h.filterMap_eq (.path kind) fun command hv => by
      cases command with
      | path kind' text => exact if_neg fun hkind => hv (congrArg Variant.path hkind)
      | _ => rfl
  have huuid : xs.filterMap uuid? = ys.filterMap uuid? :=
    h.filterMap_eq .uuid fun command hv => by
      cases command <;> first | rfl | exact absurd rfl hv
  have hminimum : xs.filterMap minimum? = ys.filterMap minimum? :=
    h.filterMap_eq .minimum fun command hv => by
      cases command <;> first | rfl | exact absurd rfl hv
  have hsource : xs.filterMap source? = ys.filterMap source? :=
    h.filterMap_eq .source fun command hv => by
      cases command <;> first | rfl | exact absurd rfl hv
  have hentry : xs.filterMap entry? = ys.filterMap entry? :=
    h.filterMap_eq .main fun command hv => by
      cases command <;> first | rfl | exact absurd rfl hv
  simp only [LoadInfo.declared, hdylibs, hpaths, huuid, hminimum, hsource, hentry]

theorem segments_eq (h : Reordered xs ys) : xs.filterMap segment? = ys.filterMap segment? :=
  h.filterMap_eq .segment fun command hv => by
    cases command <;> first | rfl | exact absurd rfl hv

theorem symtabs_eq (h : Reordered xs ys) : xs.filterMap symtab? = ys.filterMap symtab? :=
  h.filterMap_eq .symtab fun command hv => by
    cases command <;> first | rfl | exact absurd rfl hv

theorem indirects_eq (h : Reordered xs ys) : xs.filterMap indirect? = ys.filterMap indirect? :=
  h.filterMap_eq .dysymtab fun command hv => by
    cases command <;> first | rfl | exact absurd rfl hv

theorem stubEntrySizes_eq (h : Reordered xs ys) :
    xs.flatMap stubEntrySizes = ys.flatMap stubEntrySizes :=
  h.flatMap_eq .segment fun command hv => by
    cases command <;> first | rfl | exact absurd rfl hv

end LoadCommand.Reordered

/-- The layouts say the same, but for how sections of different kinds are interleaved. -/
structure Layout.SameByKind (a b : Layout) : Prop where
  frame_eq : a.frame = b.frame
  header_eq : a.header = b.header
  segments_eq : a.segments = b.segments
  symtab?_eq : a.symtab? = b.symtab?
  indirect?_eq : a.indirect? = b.indirect?
  stubEntrySize?_eq : a.stubEntrySize? = b.stubEntrySize?
  loadInfo_eq : a.loadInfo = b.loadInfo
  diagnostics_eq : a.diagnostics = b.diagnostics
  filter_sections : ∀ kind : SectionKind,
    a.sections.filter (·.kind = kind) = b.sections.filter (·.kind = kind)

namespace Layout

theorem SameByKind.find?_eq {a b : Layout} (h : a.SameByKind b) (kind : SectionKind) :
    a.sections.find? (·.kind = kind) = b.sections.find? (·.kind = kind) := by
  have hfilter := congrArg Array.toList (h.filter_sections kind)
  rw [Array.toList_filter, Array.toList_filter] at hfilter
  rw [← Array.find?_toList, ← Array.find?_toList, ← List.head?_filter, ← List.head?_filter, hfilter]

variable {xs ys : List LoadCommand}

/-- **Commands of different variants commute.**  From any layout on, commands that are
reordered declare the same, and the sections of each kind in the same order.  So the section
found first of a kind is the same. -/
theorem sameByKind_of_reordered (layout : Layout) (h : LoadCommand.Reordered xs ys) :
    (xs.foldl apply layout).SameByKind (ys.foldl apply layout) ∧
      ∀ kind : SectionKind, (xs.foldl apply layout).sections.find? (·.kind = kind) =
        (ys.foldl apply layout).sections.find? (·.kind = kind) := by
  have hsame : (xs.foldl apply layout).SameByKind (ys.foldl apply layout) := by
    rw [foldl_apply_eq, foldl_apply_eq]
    constructor
    case frame_eq => rfl
    case header_eq => rfl
    case segments_eq => simp only [followedBy, declared, h.segments_eq]
    case symtab?_eq => simp only [followedBy, declared, h.symtabs_eq]
    case indirect?_eq => simp only [followedBy, declared, h.indirects_eq]
    case stubEntrySize?_eq => simp only [followedBy, declared, h.stubEntrySizes_eq]
    case loadInfo_eq => simp only [followedBy, declared, h.loadInfo_eq]
    case diagnostics_eq => rfl
    case filter_sections =>
      intro kind
      refine Array.toList_inj.mp ?_
      simp only [followedBy, declared, Array.toList_filter, Array.toList_append,
        List.filter_append, h.filter_keptSections layout.frame kind]
  exact ⟨hsame, hsame.find?_eq⟩

/-- A segment with one section of stubs. -/
def stubsSegment (sectionName : String) (address : UInt64) (reserved2 : UInt32) : LoadCommand :=
  .segment
    { segment :=
        { name := "__TEXT", address := ⟨0x1000⟩, vmSize := 0x1000, fileOffset := 0, fileSize := 0
          maxProtection := ⟨7⟩, initialProtection := ⟨5⟩, sectionCount := 1, flags := 0 }
      sections := #[
        { sectionName, segmentName := "__TEXT", address, size := 24, offset := 512, align := 1
          relocOffset := 0, relocCount := 0, flags := 0, reserved1 := 0, reserved2 }] }

/-- Stubs, then symbols, then stubs and symbols again, and a search path. -/
def stubsFirst : List LoadCommand :=
  [stubsSegment "__stubs" 0x1100 12, .symtab ⟨0x100, 1, 0x110, 4⟩,
    stubsSegment "__symbol_stub" 0x1200 6, .symtab ⟨0x200, 2, 0x220, 8⟩, .path .rpath "/lib"]

/-- The same with the symbols in front. -/
def symbolsFirst : List LoadCommand :=
  [.path .rpath "/lib", .symtab ⟨0x100, 1, 0x110, 4⟩, .symtab ⟨0x200, 2, 0x220, 8⟩,
    stubsSegment "__stubs" 0x1100 12, stubsSegment "__symbol_stub" 0x1200 6]

/-- A layout that holds a section of code already, and a symbol table. -/
def codeOnly : Layout where
  frame := { width := .bits64, order := .little, base := 0x4000 }
  header :=
    { magic := 0xFEEDFACF, cpuType := .arm64, cpuSubtype := .arm64All, fileType := .dylib
      commandCount := 7, commandsSize := 400, flags := 0 }
  sections := #[{ kind := .text, label := "Program", address := ⟨0x1000⟩, size := 16, offset := 8 }]
  symtab? := some ⟨0, 0, 0, 0⟩

/-- With stubs before symbols or behind them, the sections stand in another order, and the
first stubs are the same. -/
theorem sameByKind_of_reordered_stubsFirst :
    LoadCommand.Reordered stubsFirst symbolsFirst ∧
      (stubsFirst.foldl apply codeOnly).sections ≠ (symbolsFirst.foldl apply codeOnly).sections ∧
      (stubsFirst.foldl apply codeOnly).stubEntrySize? = some 12 ∧
      (stubsFirst.foldl apply codeOnly).SameByKind (symbolsFirst.foldl apply codeOnly) ∧
      ∀ kind : SectionKind, (stubsFirst.foldl apply codeOnly).sections.find? (·.kind = kind) =
        (symbolsFirst.foldl apply codeOnly).sections.find? (·.kind = kind) := by
  have h : LoadCommand.Reordered stubsFirst symbolsFirst := by decide
  exact ⟨h, by decide, by decide, codeOnly.sameByKind_of_reordered h⟩

end Layout

end MachImage
