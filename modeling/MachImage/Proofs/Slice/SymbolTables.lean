import MachImage.Proofs.Slice.Raw

/-! # Symbol tables and their sections

Names, stubs and both symbol tables are found among the sections by kind.  Of a slice that
was read from a file, this module says which sections those are: one of each kind of symbol
table at most, for the last command that declares one; a string table for every symbol table
that is declared, used or not; and the stubs in the order of their headers.

A symbol table is read twice: entry by entry into symbols, and as the bytes of a section.
Both agree (`Slice.TablesAgree`): written out again, the symbols of a decoded slice are the
bytes of the section, for either width and byte order.  There is such a section just where
a load command declares the table, and never more than one.

Between reading and writing, names are filled in and dynamic symbols are linked.  Neither
is written out: an entry without them (`Symbol.unnamed`, `Symbol.unlinked`) has the same
bytes. -/

namespace MachImage

open Decoder

/-! ### Sections by their kind -/

namespace Slice.Raw

variable {raw : Raw} {input : Input}

theorem filter_symbolSection (frame : Frame) (symtab? : Option Symtab) (kind : SectionKind) :
    (symtab?.map (symbolSection frame)).toList.filter (·.kind = kind) =
      if kind = .symbolTable then (symtab?.map (symbolSection frame)).toList else [] := by
  cases symtab? <;> cases kind <;> rfl

theorem filter_indirectSection (frame : Frame) (indirect? : Option IndirectSymbols)
    (kind : SectionKind) :
    (indirect?.map (indirectSection frame)).toList.filter (·.kind = kind) =
      if kind = .dynamicSymbolTable then (indirect?.map (indirectSection frame)).toList
      else [] := by
  cases indirect? <;> cases kind <;> rfl

namespace OfFile

theorem inside_of_mem (h : raw.OfFile input) {s : Section} (hs : s ∈ raw.sections) :
    s.offset + s.size ≤ input.size := by
  rw [h.sections_eq] at hs
  obtain ⟨s', hs', rfl⟩ := Array.mem_map.mp hs
  exact h.inside s' hs'

/-- The sections of a kind: those that commands keep, and behind them the tables of symbols.
Loading keeps kinds and order. -/
theorem filter_sections (h : raw.OfFile input) (kind : SectionKind) :
    raw.sections.toList.filter (·.kind = kind) =
      ((raw.loadCommands.flatMap (LoadCommand.keptSections raw.frame)).filter (·.kind = kind) ++
        (if kind = .symbolTable then (raw.symtabs.getLast?.map (symbolSection raw.frame)).toList
          else []) ++
        (if kind = .dynamicSymbolTable then
          (raw.indirects.getLast?.map (indirectSection raw.frame)).toList
          else [])).map (Section.loaded input) := by
  have hkind : (fun s : Section => decide (s.kind = kind)) ∘ Section.loaded input =
      fun s => decide (s.kind = kind) := rfl
  have hdescribed : (described raw.layout).toList =
      raw.loadCommands.flatMap (LoadCommand.keptSections raw.frame) ++
        (raw.symtabs.getLast?.map (symbolSection raw.frame)).toList ++
        (raw.indirects.getLast?.map (indirectSection raw.frame)).toList := by
    simp only [described, layout_frame, layout_sections, layout_symtab?, layout_indirect?,
      Array.toList_append, Option.toList_toArray]
  rw [h.sections_eq, Array.toList_map, List.filter_map, hkind, hdescribed, List.filter_append,
    List.filter_append, filter_symbolSection, filter_indirectSection]

theorem filter_symbolTable (h : raw.OfFile input) :
    raw.sections.toList.filter (·.kind = .symbolTable) =
      (raw.symtabs.getLast?.map fun t => (symbolSection raw.frame t).loaded input).toList := by
  rw [h.filter_sections, LoadCommand.filter_keptSections_tables raw.frame _ (.inl rfl)]
  cases raw.symtabs.getLast? <;> rfl

theorem filter_dynamicSymbolTable (h : raw.OfFile input) :
    raw.sections.toList.filter (·.kind = .dynamicSymbolTable) =
      (raw.indirects.getLast?.map fun t => (indirectSection raw.frame t).loaded input).toList := by
  rw [h.filter_sections, LoadCommand.filter_keptSections_tables raw.frame _ (.inr rfl)]
  cases raw.indirects.getLast? <;> rfl

theorem filter_stringTable (h : raw.OfFile input) :
    raw.sections.toList.filter (·.kind = .stringTable) =
      raw.symtabs.map fun t => (t.stringSection raw.frame).loaded input := by
  rw [h.filter_sections, LoadCommand.filter_keptSections_strings]
  simp only [reduceCtorEq, if_false, List.append_nil, List.map_map]
  rfl

theorem filter_symbolStubs (h : raw.OfFile input) :
    raw.sections.toList.filter (·.kind = .symbolStubs) =
      ((raw.loadCommands.flatMap (LoadCommand.headersKeptAs .symbolStubs)).filterMap
        (SectionHeader.section? raw.frame)).map (Section.loaded input) := by
  rw [h.filter_sections, LoadCommand.filter_keptSections_stubs]
  simp only [reduceCtorEq, if_false, List.append_nil]

end OfFile

end Slice.Raw

/-! ### What resolution fills in -/

namespace Symbol

def unnamed (s : Symbol) : Symbol := { s with name? := none }

/-- The symbol without its name and its value, which linking fills in. -/
def unlinked (s : Symbol) : Symbol := { s with name? := none, value := 0 }

theorem bytes_unnamed (frame : Frame) (s : Symbol) : s.unnamed.bytes frame = s.bytes frame := rfl

theorem indexBytes_unlinked (frame : Frame) (s : Symbol) :
    s.unlinked.indexBytes frame = s.indexBytes frame := rfl

theorem unnamed_named (strings : Array UInt8) (s : Symbol) :
    (s.named strings).unnamed = s.unnamed := rfl

theorem unlinked_linked (primary : SymbolTable) (stubs : Address) (size : UInt64) (position : ℕ)
    (s : Symbol) : (s.linked primary stubs size position).unlinked = s.unlinked := by
  unfold linked
  split <;> rfl

end Symbol

namespace SymbolTable

theorem eq_empty_of_map_eq {table : SymbolTable} {erase : Symbol → Symbol}
    (h : table.symbols.map erase = ({} : SymbolTable).symbols.map erase) : table = {} := by
  obtain ⟨symbols⟩ := table
  simpa using h

theorem map_unnamed_named (table : SymbolTable) (strings : Array UInt8) :
    (table.named strings).symbols.map Symbol.unnamed = table.symbols.map Symbol.unnamed := by
  simp only [named, Array.map_map, Function.comp_def, Symbol.unnamed_named]

theorem map_unlinked_linked (table primary : SymbolTable) (stubs : Address) (size : UInt64) :
    (table.linked primary stubs size).symbols.map Symbol.unlinked =
      table.symbols.map Symbol.unlinked := by
  refine Array.ext_getElem? fun i => ?_
  simp only [linked, Array.getElem?_map, Array.getElem?_mapIdx, Option.map_map]
  congr 1
  funext s
  exact s.unlinked_linked primary stubs size i

theorem flatMap_eq_of_map_eq {write : Symbol → List UInt8} {erase : Symbol → Symbol}
    (herase : ∀ s, write (erase s) = write s) {a b : SymbolTable}
    (h : a.symbols.map erase = b.symbols.map erase) :
    a.symbols.toList.flatMap write = b.symbols.toList.flatMap write := by
  have hwrite : ∀ t : SymbolTable,
      t.symbols.toList.flatMap write = (t.symbols.map erase).toList.flatMap write := by
    intro t
    rw [Array.toList_map, List.flatMap_map]
    simp only [herase]
  rw [hwrite a, hwrite b, h]

/-- A table stands wherever one does that agrees with it but for what is not written. -/
theorem StandsAt.of_map_eq {write : Symbol → List UInt8} {erase : Symbol → Symbol}
    (herase : ∀ s, write (erase s) = write s) {a b : SymbolTable}
    (h : a.symbols.map erase = b.symbols.map erase) {input : Input} {offset count size : ℕ}
    (hb : b.StandsAt input offset count size write) : a.StandsAt input offset count size write := by
  refine ⟨?_, (flatMap_eq_of_map_eq herase h).trans hb.bytes_eq⟩
  have hsize := congrArg Array.size h
  rw [Array.size_map, Array.size_map] at hsize
  exact hsize.trans hb.size_eq

end SymbolTable

/-! ### Tables and sections -/

theorem length_toList_getLast? {α β : Type} (f : α → β) (xs : List α) :
    (xs.getLast?.map f).toList.length = if xs = [] then 0 else 1 := by
  cases h : xs.getLast? with
  | none => simp [List.getLast?_eq_none_iff.mp h]
  | some x =>
      have hne : xs ≠ [] := by
        rintro rfl
        cases h
      simp [hne]

namespace Slice

theorem toList_sectionsOf (slice : Slice) (kind : SectionKind) :
    (slice.sectionsOf kind).toList = slice.sections.toList.filter (·.kind = kind) :=
  Array.toList_filter

theorem mem_sectionsOf {slice : Slice} {kind : SectionKind} {s : Section} :
    s ∈ slice.sectionsOf kind ↔ s ∈ slice.sections.toList.filter (·.kind = kind) := by
  rw [← toList_sectionsOf, Array.mem_toList_iff]

theorem size_sectionsOf (slice : Slice) (kind : SectionKind) :
    (slice.sectionsOf kind).size = (slice.sections.toList.filter (·.kind = kind)).length := by
  rw [← toList_sectionsOf, Array.length_toList]

namespace Raw

variable {raw : Raw} {input : Input} (stubSize : StubSize)

theorem map_unnamed_resolved (raw : Raw) :
    (raw.resolved stubSize).symbols.symbols.map Symbol.unnamed =
      raw.symbols.symbols.map Symbol.unnamed := by
  rw [resolved_eq]
  exact raw.symbols.map_unnamed_named raw.strings

theorem map_unlinked_resolved (raw : Raw) :
    (raw.resolved stubSize).dynamicSymbols.symbols.map Symbol.unlinked =
      raw.dynamicSymbols.symbols.map Symbol.unlinked := by
  rw [resolved_eq]
  dsimp only [linkedSymbols]
  split
  · exact raw.dynamicSymbols.map_unlinked_linked _ _ _
  · rfl

namespace OfFile

theorem standsAt_symbols (h : raw.OfFile input) {last : Symtab}
    (hlast : last ∈ raw.symtabs.getLast?) :
    (raw.resolved stubSize).symbols.StandsAt input
      (raw.frame.fileOffset last.symbolOffset.toNat) last.symbolCount.toNat
      (symbolSize raw.frame.width) (Symbol.bytes raw.frame) :=
  (h.symbols last (by rwa [layout_symtab?])).of_map_eq (Symbol.bytes_unnamed raw.frame)
    (raw.map_unnamed_resolved stubSize)

theorem standsAt_dynamicSymbols (h : raw.OfFile input) {last : IndirectSymbols}
    (hlast : last ∈ raw.indirects.getLast?) :
    (raw.resolved stubSize).dynamicSymbols.StandsAt input
      (raw.frame.fileOffset last.offset.toNat) last.count.toNat 4
      (Symbol.indexBytes raw.frame) :=
  (h.dynamicSymbols last (by rwa [layout_indirect?])).of_map_eq
    (Symbol.indexBytes_unlinked raw.frame) (raw.map_unlinked_resolved stubSize)

theorem data_symbolTable (h : raw.OfFile input) {s : Section}
    (hs : s ∈ raw.sections.toList.filter (·.kind = .symbolTable)) :
    (raw.resolved stubSize).symbols.symbols.toList.flatMap (Symbol.bytes raw.frame) =
      s.data.toList := by
  rw [h.filter_symbolTable, Option.mem_toList, Option.map_eq_some_iff] at hs
  obtain ⟨symtab, hsymtab, rfl⟩ := hs
  exact (h.standsAt_symbols stubSize hsymtab).bytes_eq

theorem data_dynamicSymbolTable (h : raw.OfFile input) {s : Section}
    (hs : s ∈ raw.sections.toList.filter (·.kind = .dynamicSymbolTable)) :
    (raw.resolved stubSize).dynamicSymbols.symbols.toList.flatMap
      (Symbol.indexBytes raw.frame) = s.data.toList := by
  rw [h.filter_dynamicSymbolTable, Option.mem_toList, Option.map_eq_some_iff] at hs
  obtain ⟨indirect, hindirect, rfl⟩ := hs
  exact (h.standsAt_dynamicSymbols stubSize hindirect).bytes_eq

theorem symbols_resolved_empty (h : raw.OfFile input) (hnone : raw.symtabs = []) :
    (raw.resolved stubSize).symbols = {} := by
  apply SymbolTable.eq_empty_of_map_eq
  rw [raw.map_unnamed_resolved, h.symbols_empty (by rw [layout_symtab?, hnone]; rfl)]

theorem dynamicSymbols_resolved_empty (h : raw.OfFile input) (hnone : raw.indirects = []) :
    (raw.resolved stubSize).dynamicSymbols = {} := by
  apply SymbolTable.eq_empty_of_map_eq
  rw [raw.map_unlinked_resolved, h.dynamicSymbols_empty (by rw [layout_indirect?, hnone]; rfl)]

end OfFile

end Raw

/-- How the symbols of a slice agree with their sections and with what was read. -/
structure TablesAgree (slice : Slice) (raw : Raw) : Prop where
  /-- There is a section of symbols where a command declares a symbol table, and just one. -/
  size_symbolTable : (slice.sectionsOf .symbolTable).size = if raw.symtabs = [] then 0 else 1
  symbols_empty : raw.symtabs = [] → slice.symbols = {}
  /-- Written out in the width and the byte order of the slice, the symbols are the section. -/
  symbols_bytes : ∀ s ∈ slice.sectionsOf .symbolTable,
    slice.symbols.symbols.toList.flatMap (Symbol.bytes slice.frame) = s.data.toList
  size_dynamicSymbolTable :
    (slice.sectionsOf .dynamicSymbolTable).size = if raw.indirects = [] then 0 else 1
  dynamicSymbols_empty : raw.indirects = [] → slice.dynamicSymbols = {}
  dynamicSymbols_bytes : ∀ s ∈ slice.sectionsOf .dynamicSymbolTable,
    slice.dynamicSymbols.symbols.toList.flatMap (Symbol.indexBytes slice.frame) = s.data.toList
  /-- Names are all that resolution puts into the symbols. -/
  symbols_kept : slice.symbols.symbols.map Symbol.unnamed = raw.symbols.symbols.map Symbol.unnamed
  /-- Names and values are all that resolution puts into the dynamic symbols. -/
  dynamicSymbols_kept :
    slice.dynamicSymbols.symbols.map Symbol.unlinked =
      raw.dynamicSymbols.symbols.map Symbol.unlinked

/-- **Symbols are what their sections hold.**  However the size of a stub is chosen, the
symbols of a decoded slice agree with their sections and with what was read. -/
theorem tablesAgree_of_decode {stubSize : StubSize} {base : ℕ} {input : Input} {c : Cursor}
    {slice : Slice} (h : (decode stubSize base).answer input c = .ok slice) :
    ∃ raw, (Raw.decode base).answer input c = .ok raw ∧ slice.TablesAgree raw := by
  obtain ⟨raw, hraw, rfl⟩ := exists_raw h
  obtain ⟨hfile, rfl⟩ := Raw.ofFile_of_decode hraw
  refine ⟨raw, hraw, ?_⟩
  constructor
  case size_symbolTable =>
    rw [size_sectionsOf, Raw.resolved_sections, hfile.filter_symbolTable, length_toList_getLast?]
  case symbols_empty => exact hfile.symbols_resolved_empty stubSize
  case symbols_bytes =>
    intro s hs
    rw [mem_sectionsOf, Raw.resolved_sections] at hs
    rw [Raw.resolved_frame, hfile.data_symbolTable stubSize hs]
  case size_dynamicSymbolTable =>
    rw [size_sectionsOf, Raw.resolved_sections, hfile.filter_dynamicSymbolTable,
      length_toList_getLast?]
  case dynamicSymbols_empty => exact hfile.dynamicSymbols_resolved_empty stubSize
  case dynamicSymbols_bytes =>
    intro s hs
    rw [mem_sectionsOf, Raw.resolved_sections] at hs
    rw [Raw.resolved_frame, hfile.data_dynamicSymbolTable stubSize hs]
  case symbols_kept => exact raw.map_unnamed_resolved stubSize
  case dynamicSymbols_kept => exact raw.map_unlinked_resolved stubSize

/-- Two symbols, their names and two indirect symbols in a file of big-endian words.  The
second index of each table points nowhere. -/
theorem tablesAgree_of_decode_bigEndian :
    let file : Input := #[
      0xEF, 0xDE, 0xAF, 0xEC, 0, 0, 0, 18, 0, 0, 0, 0, 0, 0, 0, 2, 0, 0, 0, 2, 0, 0, 0, 104,
      0, 0, 0, 0,
      0, 0, 0, 2, 0, 0, 0, 24, 0, 0, 0, 132, 0, 0, 0, 2, 0, 0, 0, 156, 0, 0, 0, 3,
      0, 0, 0, 11, 0, 0, 0, 80] ++ Array.replicate 48 0 ++ #[0, 0, 0, 159, 0, 0, 0, 2,
      0, 0, 0, 0, 0, 0, 0, 0, 0, 0, 0, 0, 0, 0, 0, 0,
      0, 0, 0, 0, 15, 1, 1, 2, 0, 0, 0x10, 0, 0, 0, 0, 9, 14, 2, 0, 3, 0xFF, 0xFF, 0xFF, 0xFF,
      0x61, 0, 0x62,
      0, 0, 0, 1, 0x80, 0, 0, 0]
    ∃ slice, (decode .legacy 0).answer file {} = .ok slice ∧
      slice.sections.map (fun s => (s.kind, s.offset, s.size)) =
        #[(.stringTable, 156, 3), (.symbolTable, 132, 24), (.dynamicSymbolTable, 159, 8)] ∧
      ∃ raw, (Raw.decode 0).answer file {} = .ok raw ∧ slice.TablesAgree raw := by
  intro file
  have hsections : ((decode .legacy 0).answer file {}).toOption.map
      (fun slice => slice.sections.map fun s => (s.kind, s.offset, s.size)) =
        some #[(.stringTable, 156, 3), (.symbolTable, 132, 24),
          (.dynamicSymbolTable, 159, 8)] := by
    decide +kernel
  obtain ⟨slice, h, hsections⟩ := exists_of_toOption_map hsections
  exact ⟨slice, h, hsections, tablesAgree_of_decode h⟩

end Slice

end MachImage
