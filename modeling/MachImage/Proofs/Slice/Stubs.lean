import MachImage.Proofs.Slice.SymbolTables

/-! # Dynamic symbols and their stubs

A dynamic symbol is read as an index alone.  Where a slice has stubs, `Symbol.linked` gives
it the name of the symbol at that index, and the address of the stub at its own position in
the table as its value.  Positions count all entries, those that point nowhere among them,
and addresses start over at the end of memory (`Address.toNat_advance_mul`).

`Slice.linksStubs_of_decode` says this of every slice that is decoded.  The address and the
size of a stub come from one section header, the first one of stubs: sections are found by
their kind and the size is remembered with the first header of that kind, and these are the
same one (`Slice.Raw.OfFile.exists_stubHeader`). -/

namespace MachImage

open Decoder

/-- The address of the stub at a position, with all positions before it taken up by stubs. -/
theorem Address.toNat_advance_mul (a : Address) (position : ℕ) (size : UInt64) :
    (a.advance (UInt64.ofNat position * size)).value.toNat =
      (a.value.toNat + position * size.toNat) % 2 ^ 64 := by
  simp only [advance, UInt64.toNat_add, UInt64.toNat_mul, UInt64.toNat_ofNat', Nat.mod_mul_mod,
    Nat.add_mod_mod]

namespace Symbol

/-- A dynamic symbol with the name of another symbol and the address of its stub. -/
structure IsLinkedTo (entry target : Symbol) (address : ℕ) : Prop where
  isResolved : entry.isResolved
  name_eq : entry.name = target.name
  value_eq : entry.value.toNat = address

/-- A dynamic symbol that is an index and nothing else. -/
structure IsBare (entry : Symbol) : Prop where
  isResolved_eq : entry.isResolved = false
  name_eq : entry.name = ""
  value_eq : entry.value = 0

theorem isBare_of_eq {s : Symbol} (h : s = { index := s.index, value := 0 }) : s.IsBare := by
  rw [h]
  exact ⟨rfl, rfl, rfl⟩

variable {primary : SymbolTable} {stubs : Address} {size : UInt64} {position : ℕ} {s : Symbol}

@[simp] theorem index_linked : (s.linked primary stubs size position).index = s.index := by
  unfold linked
  split <;> rfl

theorem isLinkedTo_linked {target : Symbol} (h : primary.get? s.index.toNat = some target) :
    (s.linked primary stubs size position).IsLinkedTo target
      ((stubs.value.toNat + position * size.toNat) % 2 ^ 64) := by
  have hlinked : s.linked primary stubs size position =
      { s with
        name? := some target.name
        value := (stubs.advance (UInt64.ofNat position * size)).value } := by
    rw [linked, h]
  rw [hlinked]
  exact ⟨rfl, rfl, stubs.toNat_advance_mul position size⟩

theorem linked_of_none (h : primary.get? s.index.toNat = none) :
    s.linked primary stubs size position = s := by
  rw [linked, h]

end Symbol

theorem SymbolTable.get?_linked (table primary : SymbolTable) (stubs : Address) (size : UInt64)
    (position : ℕ) :
    (table.linked primary stubs size).get? position =
      (table.get? position).map (Symbol.linked primary stubs size position) := by
  simp only [get?, linked, Array.getElem?_mapIdx]

namespace Slice

/-- How the dynamic symbols of a slice follow from the stubs and the symbols. -/
structure LinksStubs (slice : Slice) (raw : Raw) (input : Input) (stubSize : StubSize) : Prop where
  /-- The indices are those of the table that was declared last, as many as it has. -/
  standsAt : ∀ last ∈ raw.indirects.getLast?,
    slice.dynamicSymbols.StandsAt input (slice.frame.fileOffset last.offset.toNat)
      last.count.toNat 4 (Symbol.indexBytes slice.frame)
  empty : raw.indirects = [] → slice.dynamicSymbols = {}
  /-- A symbol that points at another one has the stub at its own position.  The size of all
  stubs is the one that the choice stands for on the processor of the slice, with what the
  header of the section that they are in declares. -/
  linked : ∀ {stubs : Section} {position : ℕ} {entry target : Symbol},
    slice.section? .symbolStubs = some stubs →
    slice.dynamicSymbols.get? position = some entry →
    slice.symbols.get? entry.index.toNat = some target →
    ∃ header size, raw.stubHeader? = some header ∧
      header.section? slice.frame = some { stubs with data := #[] } ∧
      stubSize.Gives slice.cpuType (some header.reserved2) size ∧
      entry.IsLinkedTo target ((stubs.address.value.toNat + position * size) % 2 ^ 64)
  /-- Without stubs, or without a symbol to point at, there is nothing but the index. -/
  bare : ∀ {position : ℕ} {entry : Symbol},
    slice.dynamicSymbols.get? position = some entry →
    slice.section? .symbolStubs = none ∨ slice.symbols.get? entry.index.toNat = none →
    entry.IsBare

namespace Raw

variable {raw : Raw} {input : Input}

/-- The stubs that are found are those of the first header of stubs. -/
theorem OfFile.exists_stubHeader (h : raw.OfFile input) {stubs : Section}
    (hstubs : raw.sections.find? (·.kind = .symbolStubs) = some stubs) :
    ∃ header, raw.stubHeader? = some header ∧
      header.section? raw.frame = some { stubs with data := #[] } := by
  rw [← Array.find?_toList, ← List.head?_filter, h.filter_symbolStubs] at hstubs
  unfold stubHeader?
  cases hheaders : raw.loadCommands.flatMap (LoadCommand.headersKeptAs .symbolStubs) with
  | nil =>
      rw [hheaders] at hstubs
      cases hstubs
  | cons header rest =>
      have hmem : header ∈ raw.loadCommands.flatMap (LoadCommand.headersKeptAs .symbolStubs) := by
        rw [hheaders]
        exact List.mem_cons_self
      obtain ⟨command, _, hheader⟩ := List.mem_flatMap.mp hmem
      obtain ⟨s, hsection, hdata⟩ :=
        SectionHeader.exists_section?_of_isKeptAs (LoadCommand.isKeptAs_of_mem hheader) raw.frame
      rw [hheaders, List.filterMap_cons_some hsection, List.map_cons, List.head?_cons] at hstubs
      obtain rfl := Option.some.inj hstubs
      refine ⟨header, rfl, hsection.trans ?_⟩
      rw [Section.loaded, ← hdata]

theorem OfFile.isBare_of_get? (h : raw.OfFile input) {position : ℕ} {s : Symbol}
    (hs : raw.dynamicSymbols.get? position = some s) : s.IsBare :=
  Symbol.isBare_of_eq (h.dynamicSymbols_bare s (Array.mem_of_getElem? hs))

theorem linkedSymbols_of_stubs (stubSize : StubSize) {stubs : Section}
    (hstubs : raw.sections.find? (·.kind = .symbolStubs) = some stubs) :
    raw.linkedSymbols stubSize =
      raw.dynamicSymbols.linked raw.namedSymbols stubs.address
        (stubSize.resolve raw.header.cpuType raw.layout.stubEntrySize?) := by
  rw [linkedSymbols, hstubs]

theorem linkedSymbols_of_none (stubSize : StubSize)
    (hnone : raw.sections.find? (·.kind = .symbolStubs) = none) :
    raw.linkedSymbols stubSize = raw.dynamicSymbols := by
  rw [linkedSymbols, hnone]

/-- A symbol that points at another one is linked to it, at its own position. -/
theorem OfFile.isLinkedTo_of_get? (h : raw.OfFile input) (stubSize : StubSize) {stubs : Section}
    {position : ℕ} {entry target : Symbol}
    (hstubs : raw.sections.find? (·.kind = .symbolStubs) = some stubs)
    (hentry : (raw.linkedSymbols stubSize).get? position = some entry)
    (htarget : raw.namedSymbols.get? entry.index.toNat = some target) :
    ∃ header size, raw.stubHeader? = some header ∧
      header.section? raw.frame = some { stubs with data := #[] } ∧
      stubSize.Gives raw.header.cpuType (some header.reserved2) size ∧
      entry.IsLinkedTo target ((stubs.address.value.toNat + position * size) % 2 ^ 64) := by
  obtain ⟨header, hheader, hsection⟩ := h.exists_stubHeader hstubs
  refine ⟨header, _, hheader, hsection, stubSize.gives_resolve _ _, ?_⟩
  rw [linkedSymbols_of_stubs stubSize hstubs, SymbolTable.get?_linked, layout_stubEntrySize?,
    hheader] at hentry
  obtain ⟨s, _, rfl⟩ := Option.map_eq_some_iff.mp hentry
  rw [Symbol.index_linked] at htarget
  exact Symbol.isLinkedTo_linked htarget

/-- Without stubs no symbol is linked, and with them none that points nowhere. -/
theorem OfFile.isBare_of_none (h : raw.OfFile input) (stubSize : StubSize) {position : ℕ}
    {entry : Symbol} (hentry : (raw.linkedSymbols stubSize).get? position = some entry)
    (hnone : raw.sections.find? (·.kind = .symbolStubs) = none ∨
      raw.namedSymbols.get? entry.index.toNat = none) : entry.IsBare := by
  cases hstubs : raw.sections.find? (·.kind = .symbolStubs) with
  | none =>
      rw [linkedSymbols_of_none stubSize hstubs] at hentry
      exact h.isBare_of_get? hentry
  | some stubs =>
      rw [linkedSymbols_of_stubs stubSize hstubs, SymbolTable.get?_linked] at hentry
      obtain ⟨s, hs, rfl⟩ := Option.map_eq_some_iff.mp hentry
      rw [hstubs, Symbol.index_linked] at hnone
      have htarget : raw.namedSymbols.get? s.index.toNat = none := hnone.resolve_left nofun
      rw [Symbol.linked_of_none htarget]
      exact h.isBare_of_get? hs

theorem OfFile.linksStubs (h : raw.OfFile input) (stubSize : StubSize) :
    (raw.resolved stubSize).LinksStubs raw input stubSize := by
  constructor
  case standsAt =>
    intro last hlast
    rw [resolved_frame]
    exact h.standsAt_dynamicSymbols stubSize hlast
  case empty => exact h.dynamicSymbols_resolved_empty stubSize
  case linked =>
    rw [resolved_eq]
    intro stubs position entry target hstubs hentry htarget
    exact h.isLinkedTo_of_get? stubSize hstubs hentry htarget
  case bare =>
    rw [resolved_eq]
    intro position entry hentry hnone
    exact h.isBare_of_none stubSize hentry hnone

end Raw

/-- **Dynamic symbols are linked by their positions.**  In a decoded slice, each dynamic
symbol that points at a symbol has its name and the address of the stub at its own position,
and every other one is left as it was read. -/
theorem linksStubs_of_decode {stubSize : StubSize} {base : ℕ} {input : Input} {c : Cursor}
    {slice : Slice} (h : (decode stubSize base).answer input c = .ok slice) :
    ∃ raw, (Raw.decode base).answer input c = .ok raw ∧
      slice.LinksStubs raw input stubSize := by
  obtain ⟨raw, hraw, rfl⟩ := exists_raw h
  obtain ⟨hfile, rfl⟩ := Raw.ofFile_of_decode hraw
  exact ⟨raw, hraw, hfile.linksStubs stubSize⟩

/-- Two symbols, stubs of 16 bytes from 16 bytes before the end of memory on, and four
dynamic symbols, the second of which points nowhere. -/
theorem linksStubs_of_decode_wrapped :
    let file : Input := #[
      0xCF, 0xFA, 0xED, 0xFE, 7, 0, 0, 1, 3, 0, 0, 0, 2, 0, 0, 0, 3, 0, 0, 0, 0, 1, 0, 0,
      0, 0, 0, 0, 0, 0, 0, 0,
      0x19, 0, 0, 0, 152, 0, 0, 0, 0x5F, 0x5F, 0x54, 0x45, 0x58, 0x54, 0, 0, 0, 0, 0, 0, 0, 0, 0, 0,
      0, 0, 0, 0, 0, 0, 0, 0, 0, 0, 0, 0, 0, 0, 0, 0,
      0, 0, 0, 0, 0, 0, 0, 0, 0, 0, 0, 0, 0, 0, 0, 0,
      7, 0, 0, 0, 5, 0, 0, 0, 1, 0, 0, 0, 0, 0, 0, 0,
      0x5F, 0x5F, 0x73, 0x74, 0x75, 0x62, 0x73, 0, 0, 0, 0, 0, 0, 0, 0, 0,
      0x5F, 0x5F, 0x54, 0x45, 0x58, 0x54, 0, 0, 0, 0, 0, 0, 0, 0, 0, 0,
      0xF0, 0xFF, 0xFF, 0xFF, 0xFF, 0xFF, 0xFF, 0xFF, 0, 0, 0, 0, 0, 0, 0, 0,
      0, 0, 0, 0, 0, 0, 0, 0, 0, 0, 0, 0, 0, 0, 0, 0,
      0, 0, 0, 0, 0, 0, 0, 0, 16, 0, 0, 0, 0, 0, 0, 0,
      2, 0, 0, 0, 24, 0, 0, 0, 32, 1, 0, 0, 2, 0, 0, 0, 64, 1, 0, 0, 4, 0, 0, 0,
      11, 0, 0, 0, 80, 0, 0, 0, 0, 0, 0, 0, 0, 0, 0, 0, 0, 0, 0, 0, 0, 0, 0, 0,
      0, 0, 0, 0, 0, 0, 0, 0, 0, 0, 0, 0, 0, 0, 0, 0, 0, 0, 0, 0, 0, 0, 0, 0, 0, 0, 0, 0, 0, 0,
      0, 0,
      68, 1, 0, 0, 4, 0, 0, 0, 0, 0, 0, 0, 0, 0, 0, 0, 0, 0, 0, 0, 0, 0, 0, 0,
      0, 0, 0, 0, 15, 1, 0, 0, 0, 16, 0, 0, 0, 0, 0, 0,
      2, 0, 0, 0, 15, 1, 0, 0, 0, 32, 0, 0, 0, 0, 0, 0,
      0x61, 0, 0x62, 0,
      1, 0, 0, 0, 0, 0, 0, 0x80, 0, 0, 0, 0, 1, 0, 0, 0]
    ∃ slice, (decode .fromSection 0).answer file {} = .ok slice ∧
      slice.dynamicSymbols.symbols.map (fun s => (s.name?, s.value)) =
        #[(some "b", 0xFFFFFFFFFFFFFFF0), (none, 0), (some "a", 16), (some "b", 32)] ∧
      ∃ raw, (Raw.decode 0).answer file {} = .ok raw ∧
        slice.LinksStubs raw file .fromSection := by
  intro file
  have hsymbols : ((decode .fromSection 0).answer file {}).toOption.map
      (fun slice => slice.dynamicSymbols.symbols.map fun s => (s.name?, s.value)) =
        some #[(some "b", 0xFFFFFFFFFFFFFFF0), (none, 0), (some "a", 16), (some "b", 32)] := by
    decide +kernel
  obtain ⟨slice, h, hsymbols⟩ := exists_of_toOption_map hsymbols
  exact ⟨slice, h, hsymbols, linksStubs_of_decode h⟩

end Slice

end MachImage
