import MachImage.Proofs.LoadCommand.Mirror
import MachImage.Proofs.Slice.Diagnostics

/-! # Slices in the opposite byte order

A slice is in two files at the same place, in opposite byte orders, when one is the `Twin` of the
other: the files mirror each other in the fields of the header behind the magic number, in every
load command, and in the entries of both symbol tables, and the bytes of all other sections are
the same.

Reading goes the same way in both files.  It gives the same slice, or fails for the same bytes
(`Slice.answer_decode_mirrored`); only the byte order is the other one, and the bytes of the symbol
tables, which are sections too, are those of the file. -/

namespace MachImage

open Decoder

def Frame.opposite (frame : Frame) : Frame := { frame with order := frame.order.opposite }

/-! ### Headers -/

namespace Header

/-- The fields of a header behind its magic number, the last of them for the larger width only. -/
def row (width : Width) : List Field :=
  List.replicate 6 (.number 4) ++
    match width with
    | .bits32 => []
    | .bits64 => [.number 4]

/-- Reads the fields of a header behind its magic number, which is left at zero. -/
def decodeFields (width : Width) : Decoder Header := do
  let cpuType := CpuType.ofRaw (← u32)
  let subtype ← u32
  let fileType := FileType.ofRaw (← u32)
  let commandCount ← u32
  let commandsSize ← u32
  let flags ← u32
  if width = .bits64 then let _ ← u32
  let cpuSubtype := CpuSubtype.ofRaw cpuType (subtypeBits width subtype)
  return { magic := 0, cpuType, cpuSubtype, fileType, commandCount, commandsSize, flags }

theorem readsRow_fields (width : Width) : ReadsRow (row width) (decodeFields width) := by
  refine readsRow_u32.bind fun _ => readsRow_u32.bind fun _ => readsRow_u32.bind fun _ => ?_
  refine readsRow_u32.bind fun _ => readsRow_u32.bind fun _ => readsRow_u32.bind fun _ => ?_
  cases width with
  | bits32 => exact readsRow_pure _
  | bits64 => exact readsRow_u32.bind_pure

/-- Where a known magic number stands, the fields behind it are read in the order that it tells. -/
theorem decode_apply {input : Input} {base : ℕ} {magic : UInt32} {frame : Frame}
    (hmagic : input.u32? .little base = some magic)
    (hframe : Frame.ofMagic? magic base = some frame) (c : Cursor) :
    decode base input c =
      (do return (frame, { (← decodeFields frame.width) with magic }) : Decoder (Frame × Header))
        input ⟨base + 4, frame.order⟩ := by
  have hu32 : u32 input ⟨base, .little⟩ = .ok magic ⟨base + 4, .little⟩ := by
    rw [u32_apply, hmagic]
  unfold decode
  rw [bind_of_ok (seek_apply input c base), bind_of_ok (setOrder_apply input _ .little),
    bind_of_ok hu32, hframe]
  dsimp only
  rw [bind_of_ok (setOrder_apply input _ frame.order)]
  unfold decodeFields
  cases frame.width with
  | bits32 => simp only [reduceCtorEq, if_false, bind_assoc, pure_bind]
  | bits64 => simp only [if_true, bind_assoc, pure_bind]

end Header

/-! ### Twins -/

def Symbol.row (width : Width) : List Field :=
  [.number 4, .number 1, .number 1, .number 2, .number width.bytes]

/-- The slice of `a` with this frame stands in `b` at the same place, in the opposite byte order,
as far as it is in the file and apart from its magic number. -/
structure Twin (a b : Input) (frame : Frame) : Prop where
  size_eq : b.size = a.size
  header : Mirrors a b (frame.base + 4) (Header.row frame.width)
  commands : ∀ count ∈ a.u32? frame.order (frame.base + 16), ∀ k < count.toNat,
    ∀ offset ∈ commandOffset? a frame.order (frame.base + frame.headerSize) k,
      MirrorsCommand a b frame offset
  symbols : ∀ layout ∈ ((Layout.decode frame.base).answer a {}).toOption,
    ∀ symtab ∈ layout.symtab?,
      Mirrors a b (layout.frame.fileOffset symtab.symbolOffset.toNat)
        (List.replicate symtab.symbolCount.toNat (Symbol.row layout.frame.width)).flatten
  dynamicSymbols : ∀ layout ∈ ((Layout.decode frame.base).answer a {}).toOption,
    ∀ indirect ∈ layout.indirect?,
      Mirrors a b (layout.frame.fileOffset indirect.offset.toNat)
        (List.replicate indirect.count.toNat [.number 4]).flatten
  /-- Code, texts and the like do not go by the byte order. -/
  sections : ∀ layout ∈ ((Layout.decode frame.base).answer a {}).toOption,
    ∀ s ∈ layout.sections, b.range s.offset s.size = a.range s.offset s.size

instance decidableTwin (a b : Input) (frame : Frame) : Decidable (Twin a b frame) :=
  -- The number of commands is looked up.
  have : Decidable (∀ count ∈ a.u32? frame.order (frame.base + 16), ∀ k < count.toNat,
      ∀ offset ∈ commandOffset? a frame.order (frame.base + frame.headerSize) k,
        MirrorsCommand a b frame offset) :=
    @Option.decidableForallMem _ _ (fun _ => inferInstance) _
  decidable_of_iff (_ ∧ _ ∧ _ ∧ _ ∧ _ ∧ _)
    ⟨fun h => ⟨h.1, h.2.1, h.2.2.1, h.2.2.2.1, h.2.2.2.2.1, h.2.2.2.2.2⟩,
      fun h => ⟨h.1, h.2, h.3, h.4, h.5, h.6⟩⟩

/-! ### Layouts -/

/-- Of the frame a load command needs the width and the start of the slice alone. -/
theorem LoadCommand.decode_opposite (frame : Frame) : decode frame.opposite = decode frame := rfl

theorem LoadCommand.keptSections_opposite (frame : Frame) :
    keptSections frame.opposite = keptSections frame := by
  funext command
  cases command with
  | linkEdit kind offset size => cases kind <;> rfl
  | _ => rfl

/-- The layout with the frame in the opposite byte order and with another magic number. -/
def Layout.opposite (magic : UInt32) (layout : Layout) : Layout :=
  { layout with frame := layout.frame.opposite, header := { layout.header with magic } }

/-- What commands declare does not go by the byte order. -/
theorem Layout.foldl_record_opposite (frame : Frame) (header : Header) (magic : UInt32)
    (commands : List (CommandHeader × LoadCommand)) :
    commands.foldl record { frame := frame.opposite, header := { header with magic } } =
      (commands.foldl record { frame, header }).opposite magic := by
  rw [foldl_record, foldl_record]
  unfold declared opposite
  rw [LoadCommand.keptSections_opposite]

namespace Slice

theorem readSymbols_opposite (layout : Layout) (magic : UInt32) :
    readSymbols (layout.opposite magic) = readSymbols layout := rfl

theorem readIndirect_opposite (layout : Layout) (magic : UInt32) :
    readIndirect (layout.opposite magic) = readIndirect layout := rfl

theorem described_opposite (layout : Layout) (magic : UInt32) :
    described (layout.opposite magic) = described layout := rfl

variable {a b : Input}

/-! ### Reading tables and sections -/

theorem readsRow_symbol (width : Width) : ReadsRow (Symbol.row width) (decodeSymbol width) :=
  readsRow_u32.bind fun _ => readsRow_u8.bind fun _ => readsRow_u8.bind fun _ =>
    readsRow_u16.bind fun _ => (readsRow_word width).bind_pure

theorem alike_table {item : Decoder Symbol} {row : List Field} {place count : ℕ}
    (hitem : ReadsRow row item) (hsize : b.size = a.size)
    (h : Mirrors a b place (List.replicate count row).flatten) (c : Cursor) :
    Alike a b (do seek place; return ⟨← repeated count item⟩ : Decoder SymbolTable) c := by
  refine (alike_seek place).bind fun _ c' hseek => ?_
  cases hseek
  exact ((hitem.repeated count).alike hsize h).bind_pure

theorem alike_readSymbols {layout : Layout} (hsize : b.size = a.size)
    (h : ∀ symtab ∈ layout.symtab?,
      Mirrors a b (layout.frame.fileOffset symtab.symbolOffset.toNat)
        (List.replicate symtab.symbolCount.toNat (Symbol.row layout.frame.width)).flatten)
    (c : Cursor) : Alike a b (readSymbols layout) c := by
  unfold readSymbols
  cases hsymtab : layout.symtab? with
  | none => exact alike_pure _
  | some symtab => exact alike_table (readsRow_symbol _) hsize (h symtab hsymtab) c

theorem alike_readIndirect {layout : Layout} (hsize : b.size = a.size)
    (h : ∀ indirect ∈ layout.indirect?,
      Mirrors a b (layout.frame.fileOffset indirect.offset.toNat)
        (List.replicate indirect.count.toNat [.number 4]).flatten)
    (c : Cursor) : Alike a b (readIndirect layout) c := by
  unfold readIndirect
  cases hindirect : layout.indirect? with
  | none => exact alike_pure _
  | some indirect => exact alike_table readsRow_u32.bind_pure hsize (h indirect hindirect) c

theorem corresponds_loadSection (hsize : b.size = a.size) (s : Section) (c : Cursor) :
    Corresponds a b (Section.loaded b) (loadSection s) (loadSection s) c := by
  unfold Corresponds loadSection
  rw [bind_apply, bind_apply, bytesAt_apply, bytesAt_apply]
  unfold Input.window?
  rw [hsize]
  by_cases hle : s.offset + s.size ≤ a.size
  · simp only [if_pos hle]
    rfl
  · simp only [if_neg hle]
    rfl

/-! ### Reading slices -/

/-- Reads what stands behind the magic number of a slice. -/
def Raw.decodeBehind (frame : Frame) (magic : UInt32) : Decoder Raw := do
  let header := { (← Header.decodeFields frame.width) with magic }
  let commands ← repeated header.commandCount.toNat (LoadCommand.decode frame)
  let layout := commands.foldl Layout.record { frame, header }
  let symbols ← readSymbols layout
  let dynamicSymbols ← readIndirect layout
  let sections ← (described layout).mapM loadSection
  return { frame, header, commands := commands.toList, symbols, dynamicSymbols, sections }

theorem Raw.decode_apply {input : Input} {base : ℕ} {magic : UInt32} {frame : Frame}
    (hmagic : input.u32? .little base = some magic)
    (hframe : Frame.ofMagic? magic base = some frame) (c : Cursor) :
    decode base input c = decodeBehind frame magic input ⟨base + 4, frame.order⟩ := by
  unfold decode decodeBehind
  rw [bind_apply, Header.decode_apply hmagic hframe c, ← bind_apply, bind_assoc]
  rfl

/-- The slice in the opposite byte order, with another magic number and with the bytes that its
sections have in a file. -/
def Raw.opposite (b : Input) (magic : UInt32) (raw : Raw) : Raw :=
  { raw with
    frame := raw.frame.opposite, header := { raw.header with magic }
    sections := raw.sections.map (Section.loaded b) }

theorem Raw.corresponds_decodeBehind {frame : Frame} {magic : UInt32} (htwin : Twin a b frame)
    (hmagic : a.u32? .little frame.base = some magic)
    (hframe : Frame.ofMagic? magic frame.base = some frame) (magic' : UInt32) :
    Corresponds a b (Raw.opposite b magic') (decodeBehind frame magic)
      (decodeBehind frame.opposite magic') ⟨frame.base + 4, frame.order⟩ := by
  unfold decodeBehind
  have hfields : Alike a b (Header.decodeFields frame.width) ⟨frame.base + 4, frame.order⟩ :=
    (Header.readsRow_fields frame.width).alike htwin.size_eq htwin.header
  refine hfields.bind_corresponds fun fields c₁ hrun₁ => ?_
  have hheader : Header.decode frame.base a {} = .ok (frame, { fields with magic }) c₁ := by
    rw [Header.decode_apply hmagic hframe, bind_of_ok hrun₁]
    rfl
  obtain ⟨-, -, -, hcount, rfl⟩ := Header.decode_eq_ok hheader
  have hcommands := LoadCommand.alike_commands htwin.size_eq #[] (htwin.commands _ hcount)
  rw [LoadCommand.decode_opposite]
  refine hcommands.bind_corresponds fun commands c₂ hrun₂ => ?_
  have hdecode : Layout.decode frame.base a {} =
      .ok (commands.foldl Layout.record { frame, header := { fields with magic } }) c₂ := by
    unfold Layout.decode
    rw [bind_of_ok hheader]
    exact bind_of_ok hrun₂ _
  have hlayout : commands.foldl Layout.record { frame, header := { fields with magic } } ∈
      ((Layout.decode frame.base).answer a {}).toOption := by
    rw [answer_of_ok hdecode]
    rfl
  have hopposite := Layout.foldl_record_opposite frame { fields with magic } magic' commands.toList
  rw [Array.foldl_toList, Array.foldl_toList] at hopposite
  dsimp only at hopposite ⊢
  rw [hopposite, readSymbols_opposite, readIndirect_opposite, described_opposite]
  have hsymbols := alike_readSymbols htwin.size_eq (htwin.symbols _ hlayout)
  have hindirect := alike_readIndirect htwin.size_eq (htwin.dynamicSymbols _ hlayout)
  refine (hsymbols c₂).bind_corresponds fun symbols c₃ _ => ?_
  refine (hindirect c₃).bind_corresponds fun dynamicSymbols c₄ _ => ?_
  exact (corresponds_mapM (corresponds_loadSection htwin.size_eq) _ c₄).bind fun _ _ _ => rfl

end Slice

/-! ### Resolution -/

/-- Whether the bytes of a section go by the byte order. -/
def SectionKind.isSymbolTable : SectionKind → Bool
  | symbolTable | dynamicSymbolTable => true
  | _ => false

/-- The section as it is in the twin: the bytes of a table of symbols are those of the file. -/
def Section.mirrored (b : Input) (s : Section) : Section :=
  if s.kind.isSymbolTable then s.loaded b else s

/-- The slice as it is in the twin: in the opposite byte order, with the symbol tables of the
file. -/
def Slice.mirrored (b : Input) (slice : Slice) : Slice :=
  { slice with
    frame := slice.frame.opposite
    sections := slice.sections.map (Section.mirrored b) }

theorem Section.kind_mirrored (b : Input) (s : Section) : (s.mirrored b).kind = s.kind := by
  unfold mirrored
  split <;> rfl

theorem find?_map_mirrored (b : Input) (sections : Array Section) {kind : SectionKind}
    (hkind : kind.isSymbolTable = false) :
    (sections.map (Section.mirrored b)).find? (·.kind = kind) =
      sections.find? (·.kind = kind) := by
  have hcomp : (fun s : Section => decide (s.kind = kind)) ∘ Section.mirrored b =
      fun s => decide (s.kind = kind) := by
    funext s
    simp [Section.kind_mirrored]
  rw [Array.find?_map, hcomp]
  cases hfind : sections.find? (·.kind = kind) with
  | none => rfl
  | some s =>
      have hfound := Array.find?_some hfind
      have hs : s.kind = kind := of_decide_eq_true hfound
      rw [Option.map_some, Section.mirrored, hs, hkind]
      rfl

theorem mem_sections_of_mem_described {layout : Layout} {s : Section}
    (hs : s ∈ Slice.described layout) (hkind : ¬ s.kind.isSymbolTable) : s ∈ layout.sections := by
  unfold Slice.described at hs
  obtain (hs | hs) | hs := by simpa only [Array.mem_append] using hs
  · exact hs
  · obtain ⟨symtab, -, rfl⟩ := Option.map_eq_some_iff.mp (by simpa using hs)
    exact absurd rfl hkind
  · obtain ⟨indirect, -, rfl⟩ := Option.map_eq_some_iff.mp (by simpa using hs)
    exact absurd rfl hkind

namespace Slice.Raw

variable {raw : Raw} {a b : Input}

theorem OfFile.map_loaded (h : raw.OfFile a)
    (hsame : ∀ s ∈ raw.layout.sections, b.range s.offset s.size = a.range s.offset s.size) :
    raw.sections.map (Section.loaded b) = raw.sections.map (Section.mirrored b) := by
  refine Array.map_congr_left fun loaded hloaded => ?_
  rw [h.sections_eq] at hloaded
  obtain ⟨s, hs, rfl⟩ := Array.mem_map.mp hloaded
  by_cases hkind : s.kind.isSymbolTable
  · exact (if_pos hkind).symm
  · have hmem := mem_sections_of_mem_described hs hkind
    have hbytes : b.extract s.offset (s.offset + s.size) = a.extract s.offset (s.offset + s.size) :=
      Array.toList_inj.mp (hsame s hmem)
    have hkeep : (s.loaded a).mirrored b = s.loaded a := if_neg hkind
    rw [hkeep]
    unfold Section.loaded
    rw [hbytes]

theorem layout_opposite (raw : Raw) (b : Input) (magic : UInt32) :
    (raw.opposite b magic).layout = raw.layout.opposite magic :=
  Layout.foldl_record_opposite raw.frame raw.header magic raw.commands

/-- Names and the addresses of stubs do not go by the byte order. -/
theorem resolved_opposite (stubSize : StubSize) (magic : UInt32)
    (h : raw.sections.map (Section.loaded b) = raw.sections.map (Section.mirrored b)) :
    (raw.opposite b magic).resolved stubSize = (raw.resolved stubSize).mirrored b := by
  have hsections : (raw.opposite b magic).sections = raw.sections.map (Section.mirrored b) := h
  have hnamed : (raw.opposite b magic).namedSymbols = raw.namedSymbols := by
    unfold namedSymbols strings
    rw [hsections, find?_map_mirrored b _ rfl]
    rfl
  have hlinked : (raw.opposite b magic).linkedSymbols stubSize = raw.linkedSymbols stubSize := by
    unfold linkedSymbols
    rw [hsections, find?_map_mirrored b _ rfl, hnamed, layout_opposite]
    rfl
  have hdiagnostics : ((raw.opposite b magic).resolved stubSize).diagnostics =
      (raw.resolved stubSize).diagnostics := by
    rw [resolved_diagnostics, resolved_diagnostics, hnamed, layout_opposite]
    unfold dynamicDiagnostics
    rw [hsections, find?_map_mirrored b _ rfl, hnamed, hlinked]
    rfl
  rw [resolved_eq, resolved_eq raw stubSize, hsections, hnamed, hlinked, hdiagnostics,
    layout_opposite]
  rfl

end Slice.Raw

namespace Slice

variable {a b : Input}

/-- A slice is decoded from its twin as it is decoded where it stands, or fails for the same
bytes. -/
theorem answer_decode_mirrored (stubSize : StubSize) {frame : Frame} (htwin : Twin a b frame)
    (ha : a.StartsSlice frame.base frame) (hb : b.StartsSlice frame.base frame.opposite) :
    (decode stubSize frame.base).answer b {} =
      ((decode stubSize frame.base).answer a {}).map (Slice.mirrored b) := by
  obtain ⟨magic, hmagic, hframe⟩ := ha
  obtain ⟨magic', hmagic', hframe'⟩ := hb
  have hraw : (Raw.decode frame.base).answer b {} =
      ((Raw.decode frame.base).answer a {}).map (Raw.opposite b magic') := by
    have h := (Raw.corresponds_decodeBehind htwin hmagic hframe magic').answer_eq
    unfold answer at h ⊢
    rwa [Raw.decode_apply hmagic hframe, Raw.decode_apply hmagic' hframe']
  rw [answer_decode_eq, answer_decode_eq, hraw]
  cases hrun : (Raw.decode frame.base).answer a {} with
  | error e => rfl
  | ok raw =>
      have hlayout : raw.layout ∈ ((Layout.decode frame.base).answer a {}).toOption := by
        rw [Raw.answer_layout hrun]
        rfl
      have hsections := (Raw.ofFile_of_decode hrun).1.map_loaded (htwin.sections _ hlayout)
      exact congrArg Except.ok (Raw.resolved_opposite stubSize magic' hsections)

end Slice

end MachImage
