import MachImage.Slice
import MachImage.Proofs.Decoder.Failure
import MachImage.Proofs.Decoder.Run
import MachImage.Proofs.Decoder.Spelling
import MachImage.Proofs.Layout.Recorded
import MachImage.Proofs.LoadCommand.Inherited
import MachImage.Proofs.Slice.Relocation

/-! # Slices before anything in them is resolved

A slice is decoded in two steps: all of it is read, and then names and addresses are
resolved among what was read.  `Slice.Raw` is what stands between the two steps, with its
load commands one by one; `Slice.decode_eq` cuts the decoder there.  Only the second step
looks at how the size of a stub is chosen.

`Slice.Raw.OfFile` is what a successful reading tells of the file: the bytes of every
section stand where the section says, and the entries of both symbol tables are spelled by
the bytes at the places that the load commands name. -/

namespace MachImage

open Decoder

/-! ### Tables and sections in a file -/

namespace Symbol

def bytes (frame : Frame) (s : Symbol) : List UInt8 :=
  frame.order.bytes 4 s.index.toNat ++ [s.kind, s.sectionNumber] ++
    frame.order.bytes 2 s.description.toNat ++ frame.order.bytes frame.width.bytes s.value.toNat

/-- The bytes of an indirect symbol, which is an index alone. -/
def indexBytes (frame : Frame) (s : Symbol) : List UInt8 := frame.order.bytes 4 s.index.toNat

theorem length_bytes (frame : Frame) (s : Symbol) :
    (s.bytes frame).length = Slice.symbolSize frame.width := by
  simp only [bytes, List.length_append, ByteOrder.length_bytes, List.length_cons, List.length_nil,
    Slice.symbolSize]

theorem length_indexBytes (frame : Frame) (s : Symbol) : (s.indexBytes frame).length = 4 :=
  ByteOrder.length_bytes _ _ _

end Symbol

/-- A table has `count` entries of `size` bytes each, and these are the bytes from an offset
of the file on. -/
structure SymbolTable.StandsAt (table : SymbolTable) (input : Input) (offset count size : ℕ)
    (write : Symbol → List UInt8) : Prop where
  size_eq : table.size = count
  bytes_eq : table.symbols.toList.flatMap write = input.range offset (count * size)

def Section.loaded (input : Input) (s : Section) : Section :=
  { s with data := input.extract s.offset (s.offset + s.size) }

namespace Slice

/-- A slice as it is read: its load commands, both symbol tables without names and stubs,
and its sections with their bytes. -/
structure Raw where
  frame : Frame
  header : Header
  commands : List (CommandHeader × LoadCommand)
  symbols : SymbolTable
  dynamicSymbols : SymbolTable
  sections : Array Section

namespace Raw

def layout (raw : Raw) : Layout :=
  raw.commands.foldl Layout.record { frame := raw.frame, header := raw.header }

def loadCommands (raw : Raw) : List LoadCommand := raw.commands.map Prod.snd

/-- The symbol tables that are declared, in the order of the commands. -/
def symtabs (raw : Raw) : List Symtab := raw.loadCommands.filterMap LoadCommand.symtab?

/-- The tables of indirect symbols that are declared, in the order of the commands. -/
def indirects (raw : Raw) : List IndirectSymbols :=
  raw.loadCommands.filterMap LoadCommand.indirect?

/-- The header of the first section of stubs. -/
def stubHeader? (raw : Raw) : Option SectionHeader :=
  (raw.loadCommands.flatMap (LoadCommand.headersKeptAs .symbolStubs)).head?

/-- Reads all of the slice at `base`. -/
def decode (base : ℕ) : Decoder Raw := do
  let (frame, header) ← Header.decode base
  let commands ← Decoder.repeated header.commandCount.toNat (LoadCommand.decode frame)
  let layout := commands.foldl Layout.record { frame, header }
  let symbols ← readSymbols layout
  let dynamicSymbols ← readIndirect layout
  let sections ← (described layout).mapM loadSection
  return { frame, header, commands := commands.toList, symbols, dynamicSymbols, sections }

/-- The slice with names and the addresses of stubs. -/
def resolved (stubSize : StubSize) (raw : Raw) : Slice :=
  assemble stubSize raw.layout raw.sections raw.symbols raw.dynamicSymbols

end Raw

theorem decode_eq (stubSize : StubSize) (base : ℕ) :
    decode stubSize base = do return (← Raw.decode base).resolved stubSize := by
  unfold decode Layout.decode Raw.decode
  simp only [bind_assoc, pure_bind, load, Raw.resolved, Raw.layout, Array.foldl_toList]

theorem answer_decode_eq (stubSize : StubSize) (base : ℕ) (input : Input) (c : Cursor) :
    (decode stubSize base).answer input c =
      ((Raw.decode base).answer input c).map (Raw.resolved stubSize) := by
  rw [decode_eq, answer_bind_pure]

theorem exists_raw {stubSize : StubSize} {base : ℕ} {input : Input} {c : Cursor} {slice : Slice}
    (h : (decode stubSize base).answer input c = .ok slice) :
    ∃ raw, (Raw.decode base).answer input c = .ok raw ∧ raw.resolved stubSize = slice := by
  obtain ⟨c', hrun⟩ := exists_of_answer_ok h
  rw [decode_eq] at hrun
  obtain ⟨raw, c₁, hraw, hslice⟩ := bind_eq_ok.mp hrun
  exact ⟨raw, answer_of_ok hraw, (pure_eq_ok hslice).1⟩

/-! ### Reading tables -/

theorem spells_decodeSymbol (frame : Frame) :
    Spells frame.order (decodeSymbol frame.width) fun s xs =>
      s.name? = none ∧ xs = s.bytes frame := by
  refine spells_u32.bind fun index xs hx => spells_u8.bind fun kind ys hy => ?_
  refine spells_u8.bind fun sectionNumber zs hz => spells_u16.bind fun description us hu => ?_
  refine (spells_word frame.width).bind fun value vs hv => spells_pure ⟨rfl, ?_⟩
  simp [Symbol.bytes, hx, hy, hz, hu, hv]

theorem standsAt_of_run {frame : Frame} {item : Decoder Symbol} {P : Symbol → Prop}
    {write : Symbol → List UInt8} {offset count size : ℕ}
    (hitem : Spells frame.order item fun s xs => P s ∧ xs = write s)
    (hsize : ∀ s, (write s).length = size) {input : Input} {c c' : Cursor} {table : SymbolTable}
    (horder : c.order = frame.order)
    (h : (do seek offset; return ⟨← repeated count item⟩ : Decoder SymbolTable) input c =
      .ok table c') :
    (table.StandsAt input offset count size write ∧ ∀ s ∈ table.symbols, P s) ∧
      c'.order = frame.order := by
  rw [bind_of_ok (seek_apply input c offset), horder] at h
  obtain ⟨symbols, c₁, hrepeated, h⟩ := bind_eq_ok.mp h
  obtain ⟨rfl, rfl⟩ := pure_eq_ok h
  obtain ⟨n, rfl, hn, hcount, hP, hbytes⟩ :=
    spells_repeated hitem count input offset symbols c₁ hrepeated
  have hlength : n = count * size := by
    rw [← hn, hbytes, List.length_flatMap, ← hcount]
    simp [hsize]
  subst hlength
  exact ⟨⟨⟨hcount, hbytes.symm⟩, hP⟩, rfl⟩

/-- The symbol table stands where the layout declares it; without one there are no symbols. -/
theorem readSymbols_eq_ok {layout : Layout} {input : Input} {c c' : Cursor} {table : SymbolTable}
    (horder : c.order = layout.frame.order) (h : readSymbols layout input c = .ok table c') :
    ((∀ symtab ∈ layout.symtab?,
      table.StandsAt input (layout.frame.fileOffset symtab.symbolOffset.toNat)
        symtab.symbolCount.toNat (symbolSize layout.frame.width) (Symbol.bytes layout.frame)) ∧
      (layout.symtab? = none → table = {}) ∧ ∀ s ∈ table.symbols, s.name? = none) ∧
    c'.order = layout.frame.order := by
  unfold readSymbols at h
  cases hsymtab : layout.symtab? with
  | none =>
      rw [hsymtab] at h
      obtain ⟨rfl, rfl⟩ := pure_eq_ok h
      exact ⟨⟨nofun, fun _ => rfl, by simp⟩, horder⟩
  | some symtab =>
      rw [hsymtab] at h
      obtain ⟨⟨htable, hnames⟩, hc⟩ := standsAt_of_run (spells_decodeSymbol layout.frame)
        (Symbol.length_bytes layout.frame) horder h
      refine ⟨⟨?_, nofun, hnames⟩, hc⟩
      rintro _ ⟨⟩
      exact htable

theorem spells_indirect (frame : Frame) :
    Spells frame.order (do return { index := ← u32, value := 0 } : Decoder Symbol) fun s xs =>
      s = { index := s.index, value := 0 } ∧ xs = s.indexBytes frame :=
  spells_u32.bind fun index xs hx => spells_pure ⟨rfl, by rw [hx, List.append_nil]; rfl⟩

/-- The indirect symbols stand where the layout declares them, as bare indices; without a
table of them there are none. -/
theorem readIndirect_eq_ok {layout : Layout} {input : Input} {c c' : Cursor}
    {table : SymbolTable} (horder : c.order = layout.frame.order)
    (h : readIndirect layout input c = .ok table c') :
    (∀ indirect ∈ layout.indirect?,
      table.StandsAt input (layout.frame.fileOffset indirect.offset.toNat)
        indirect.count.toNat 4 (Symbol.indexBytes layout.frame)) ∧
      (layout.indirect? = none → table = {}) ∧
      ∀ s ∈ table.symbols, s = { index := s.index, value := 0 } := by
  unfold readIndirect at h
  cases hindirect : layout.indirect? with
  | none =>
      rw [hindirect] at h
      obtain ⟨rfl, rfl⟩ := pure_eq_ok h
      exact ⟨nofun, fun _ => rfl, by simp⟩
  | some indirect =>
      rw [hindirect] at h
      obtain ⟨⟨htable, hbare⟩, _⟩ := standsAt_of_run (spells_indirect layout.frame)
        (Symbol.length_indexBytes layout.frame) horder h
      refine ⟨?_, nofun, hbare⟩
      rintro _ ⟨⟩
      exact htable

/-! ### Reading sections -/

theorem loadSection_eq_ok {s s' : Section} {input : Input} {c c' : Cursor}
    (h : loadSection s input c = .ok s' c') :
    s.offset + s.size ≤ input.size ∧ s.loaded input = s' := by
  obtain ⟨data, c₁, hdata, h⟩ := bind_eq_ok.mp h
  obtain ⟨rfl, _⟩ := pure_eq_ok h
  rw [bytesAt_apply] at hdata
  split at hdata
  · next w hw =>
    cases hdata
    obtain ⟨hle, rfl⟩ := Input.window?_eq_some hw
    exact ⟨hle, rfl⟩
  · cases hdata

theorem loadSections_eq_ok {sections loaded : Array Section} {input : Input} {c c' : Cursor}
    (h : sections.mapM loadSection input c = .ok loaded c') :
    (∀ s ∈ sections, s.offset + s.size ≤ input.size) ∧
      loaded = sections.map (Section.loaded input) := by
  have hall := (mapM_eq_ok h).imp fun _ _ ⟨_, _, hs⟩ => loadSection_eq_ok hs
  rw [List.forall₂_and_left, ← List.forall₂_map_left_iff, List.forall₂_eq_eq_eq] at hall
  refine ⟨fun s hs => hall.1 s (Array.mem_toList_iff.mpr hs), ?_⟩
  apply Array.toList_inj.mp
  rw [Array.toList_map, hall.2]

/-! ### The byte order -/

/-- Behind the header, numbers are read in the order that its magic number tells. -/
theorem decodeHeader_eq_ok {base : ℕ} {input : Input} {c c' : Cursor} {frame : Frame}
    {header : Header} (h : Header.decode base input c = .ok (frame, header) c') :
    c'.order = frame.order ∧ frame.base = base := by
  obtain ⟨_, _, _, h⟩ := bind_eq_ok.mp h
  obtain ⟨_, _, _, h⟩ := bind_eq_ok.mp h
  obtain ⟨magic, ⟨p, _⟩, _, h⟩ := bind_eq_ok.mp h
  cases hframe : Frame.ofMagic? magic base with
  | none =>
      rw [hframe] at h
      cases h
  | some frame' =>
      rw [hframe] at h
      simp only [bind_of_ok (setOrder_apply input _ frame'.order)] at h
      -- the fields behind the magic number leave the frame and its order as they are
      obtain ⟨horder, rfl⟩ : c'.order = frame'.order ∧ frame = frame' := by
        refine Spells.of_ok (R := fun read : Frame × Header => read.1 = frame') ?_ h
        refine spells_u32.bind fun _ _ _ => spells_u32.bind fun _ _ _ => ?_
        refine spells_u32.bind fun _ _ _ => spells_u32.bind fun _ _ _ => ?_
        refine spells_u32.bind fun _ _ _ => spells_u32.bind fun _ _ _ => ?_
        split
        · exact spells_u32.bind fun _ _ _ => spells_pure rfl
        · exact spells_pure rfl
      exact ⟨horder, Frame.base_of_ofMagic? hframe⟩

/-! ### The file behind a slice -/

namespace Raw

/-- What a file says of a slice that was read from it. -/
structure OfFile (raw : Raw) (input : Input) : Prop where
  /-- All sections lie in the file. -/
  inside : ∀ s ∈ described raw.layout, s.offset + s.size ≤ input.size
  sections_eq : raw.sections = (described raw.layout).map (Section.loaded input)
  symbols : ∀ symtab ∈ raw.layout.symtab?,
    raw.symbols.StandsAt input (raw.frame.fileOffset symtab.symbolOffset.toNat)
      symtab.symbolCount.toNat (symbolSize raw.frame.width) (Symbol.bytes raw.frame)
  symbols_empty : raw.layout.symtab? = none → raw.symbols = {}
  name?_symbols : ∀ s ∈ raw.symbols.symbols, s.name? = none
  dynamicSymbols : ∀ indirect ∈ raw.layout.indirect?,
    raw.dynamicSymbols.StandsAt input (raw.frame.fileOffset indirect.offset.toNat)
      indirect.count.toNat 4 (Symbol.indexBytes raw.frame)
  dynamicSymbols_empty : raw.layout.indirect? = none → raw.dynamicSymbols = {}
  /-- Indirect symbols are indices and nothing else. -/
  dynamicSymbols_bare : ∀ s ∈ raw.dynamicSymbols.symbols, s = { index := s.index, value := 0 }

variable (raw : Raw)

theorem layout_eq :
    raw.layout =
      { Layout.declared raw.frame raw.header raw.loadCommands with
        diagnostics := (raw.commands.flatMap fun read => read.2.diagnostics read.1).toArray } :=
  Layout.foldl_record raw.frame raw.header raw.commands

@[simp] theorem layout_frame : raw.layout.frame = raw.frame := by
  rw [layout_eq]
  rfl

@[simp] theorem layout_header : raw.layout.header = raw.header := by
  rw [layout_eq]
  rfl

theorem layout_symtab? : raw.layout.symtab? = raw.symtabs.getLast? := by
  rw [layout_eq]
  rfl

theorem layout_indirect? : raw.layout.indirect? = raw.indirects.getLast? := by
  rw [layout_eq]
  rfl

theorem layout_sections :
    raw.layout.sections =
      (raw.loadCommands.flatMap (LoadCommand.keptSections raw.frame)).toArray := by
  rw [layout_eq]
  rfl

theorem layout_stubEntrySize? :
    raw.layout.stubEntrySize? = raw.stubHeader?.map SectionHeader.reserved2 := by
  rw [layout_eq]
  simp only [Layout.declared, LoadCommand.flatMap_stubEntrySizes, List.head?_map]
  rfl

theorem runs_of_decode {raw : Raw} {base : ℕ} {input : Input} {c : Cursor}
    (h : (decode base).answer input c = .ok raw) :
    ∃ c₁ c₂, Header.decode base input c = .ok (raw.frame, raw.header) c₁ ∧
      raw.commands.length = raw.header.commandCount.toNat ∧
      Runs (LoadCommand.decode raw.frame) input c₁ raw.commands c₂ := by
  obtain ⟨c', hrun⟩ := exists_of_answer_ok h
  unfold decode at hrun
  obtain ⟨⟨frame, header⟩, c₁, hheader, hrun⟩ := bind_eq_ok.mp hrun
  obtain ⟨commands, c₂, hcommands, hrun⟩ := bind_eq_ok.mp hrun
  obtain ⟨symbols, c₃, -, hrun⟩ := bind_eq_ok.mp hrun
  obtain ⟨dynamicSymbols, c₄, -, hrun⟩ := bind_eq_ok.mp hrun
  obtain ⟨sections, c₅, -, hrun⟩ := bind_eq_ok.mp hrun
  obtain ⟨rfl, -⟩ := pure_eq_ok hrun
  obtain ⟨hsize, hruns⟩ := runs_of_repeated hcommands
  exact ⟨c₁, c₂, hheader, by rw [Array.length_toList, hsize], hruns⟩

theorem answer_layout {raw : Raw} {base : ℕ} {input : Input} {c : Cursor}
    (h : (decode base).answer input c = .ok raw) :
    (Layout.decode base).answer input c = .ok raw.layout := by
  obtain ⟨c', hrun⟩ := exists_of_answer_ok h
  unfold decode at hrun
  obtain ⟨⟨frame, header⟩, c₁, hheader, hrun⟩ := bind_eq_ok.mp hrun
  obtain ⟨commands, c₂, hcommands, hrun⟩ := bind_eq_ok.mp hrun
  obtain ⟨symbols, c₃, -, hrun⟩ := bind_eq_ok.mp hrun
  obtain ⟨dynamicSymbols, c₄, -, hrun⟩ := bind_eq_ok.mp hrun
  obtain ⟨sections, c₅, -, hrun⟩ := bind_eq_ok.mp hrun
  obtain ⟨rfl, -⟩ := pure_eq_ok hrun
  unfold Layout.decode
  rw [answer_bind_of_ok hheader, answer_bind_of_ok hcommands, layout, ← Array.foldl_toList]
  rfl

/-- What is read of a file is what the file says, from its start on. -/
theorem ofFile_of_decode {raw : Raw} {base : ℕ} {input : Input} {c : Cursor}
    (h : (decode base).answer input c = .ok raw) : raw.OfFile input ∧ raw.frame.base = base := by
  obtain ⟨c', hrun⟩ := exists_of_answer_ok h
  unfold decode at hrun
  obtain ⟨⟨frame, header⟩, c₁, hheader, hrun⟩ := bind_eq_ok.mp hrun
  obtain ⟨commands, c₂, hcommands, hrun⟩ := bind_eq_ok.mp hrun
  obtain ⟨symbols, c₃, hsymbols, hrun⟩ := bind_eq_ok.mp hrun
  obtain ⟨dynamicSymbols, c₄, hindirect, hrun⟩ := bind_eq_ok.mp hrun
  obtain ⟨sections, c₅, hsections, hrun⟩ := bind_eq_ok.mp hrun
  obtain ⟨rfl, rfl⟩ := pure_eq_ok hrun
  have hlayout : commands.foldl Layout.record { frame, header } =
      layout ⟨frame, header, commands.toList, symbols, dynamicSymbols, sections⟩ :=
    (Array.foldl_toList _).symm
  rw [hlayout] at hsymbols hindirect hsections
  obtain ⟨horder, hbase⟩ := decodeHeader_eq_ok hheader
  have hloop : KeepsOrder (repeated header.commandCount.toNat (LoadCommand.decode frame)) :=
    inherited_keepsOrder.repeated (inherited_keepsOrder.loadCommand frame) _
  have horder₂ : c₂.order = frame.order := (hloop _ _ _ _ hcommands).trans horder
  obtain ⟨hs, horder₃⟩ := readSymbols_eq_ok (by rw [layout_frame, horder₂]) hsymbols
  have hd := readIndirect_eq_ok horder₃ hindirect
  obtain ⟨hinside, hloaded⟩ := loadSections_eq_ok hsections
  rw [layout_frame] at hs hd
  exact ⟨⟨hinside, hloaded, hs.1, hs.2.1, hs.2.2, hd.1, hd.2.1, hd.2.2⟩, hbase⟩

/-! ### Resolution -/

/-- The bytes that names are taken from, those of the first string table. -/
def strings : Array UInt8 :=
  ((raw.sections.find? (·.kind = .stringTable)).map Section.data).getD #[]

def namedSymbols : SymbolTable := raw.symbols.named raw.strings

/-- The dynamic symbols with names and the addresses of their stubs, where there are stubs. -/
def linkedSymbols (stubSize : StubSize) : SymbolTable :=
  match raw.sections.find? (·.kind = .symbolStubs) with
  | some stubs =>
    raw.dynamicSymbols.linked raw.namedSymbols stubs.address
      (stubSize.resolve raw.header.cpuType raw.layout.stubEntrySize?)
  | none => raw.dynamicSymbols

theorem linked_of_isEmpty {primary : SymbolTable} (h : primary.isEmpty) (table : SymbolTable)
    (stubs : Address) (size : UInt64) : table.linked primary stubs size = table := by
  have hnone : ∀ index, primary.get? index = none := by
    intro index
    rw [SymbolTable.isEmpty, Array.isEmpty_iff] at h
    simp [SymbolTable.get?, h]
  have hid : ∀ position, Symbol.linked primary stubs size position = id := by
    intro position
    funext s
    simp [Symbol.linked, hnone]
  obtain ⟨symbols⟩ := table
  simp only [SymbolTable.linked, SymbolTable.mk.injEq]
  refine Array.ext_getElem? fun i => ?_
  rw [Array.getElem?_mapIdx, hid, Option.map_id, id]

/-- Resolution fills in the names of the symbols and links the dynamic ones, and leaves all
that was read as it is. -/
theorem resolved_eq (stubSize : StubSize) :
    raw.resolved stubSize =
      { frame := raw.frame
        cpuType := raw.header.cpuType, cpuSubtype := raw.header.cpuSubtype
        fileType := raw.header.fileType, flags := raw.header.flags
        sections := raw.sections, segments := raw.layout.segments
        symbols := raw.namedSymbols, dynamicSymbols := raw.linkedSymbols stubSize
        loadInfo := raw.layout.loadInfo
        diagnostics := (raw.resolved stubSize).diagnostics } := by
  unfold resolved assemble linkedSymbols namedSymbols strings section?
  simp only [layout_frame, layout_header]
  cases raw.sections.find? (·.kind = .symbolStubs) with
  | none => rfl
  | some stubs =>
      dsimp only
      split
      · next hempty => rw [linked_of_isEmpty hempty]
      · rfl

@[simp] theorem resolved_frame (stubSize : StubSize) :
    (raw.resolved stubSize).frame = raw.frame := by
  rw [resolved_eq]

@[simp] theorem resolved_sections (stubSize : StubSize) :
    (raw.resolved stubSize).sections = raw.sections := by
  rw [resolved_eq]

end Raw

end Slice

end MachImage
