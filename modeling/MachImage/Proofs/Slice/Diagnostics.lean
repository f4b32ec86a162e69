import Mathlib.Data.List.Nodup
import MachImage.Proofs.Layout.Framing
import MachImage.Proofs.Slice.SymbolTables

/-! # What the diagnostics of a slice list

Diagnostics come from three loops: over the load commands, over the symbols, and over the
dynamic symbols, the last one only where there are stubs and symbols to link to.  Here they
are told from what is left of the three: from the tags and sizes of the commands as they stand
in the file (`CommandHeader.diagnostics`), and from the symbols of the slice that are not
resolved (`SymbolTable.ListsUnresolved`).  The diagnostics of a slice are these lists one behind
the other, nothing else, and none of them twice (`Slice.diagnostics_of_decode`). -/

namespace MachImage

open Decoder

/-! ### Load commands -/

namespace CommandHeader

/-- What is odd about a load command with this tag and size. -/
def diagnostics (header : CommandHeader) : List Diagnostic :=
  (if header.size < 8 then
    [.undersizedCommand header.tag header.offset header.size] else []) ++
  (if Tag.ofRaw? header.tag = none then
    [.unrecognizedCommand header.tag header.offset header.size] else [])

/-- The headers are those of the first load commands from `start` on, in the order of the
file. -/
def StandInOrder (headers : List CommandHeader) (input : Input) (order : ByteOrder)
    (start : ℕ) : Prop :=
  ∀ k (hk : k < headers.length),
    commandOffset? input order start k = some headers[k].offset ∧
    input.u32? order headers[k].offset = some headers[k].tag ∧
    input.u32? order (headers[k].offset + 4) = some headers[k].size

end CommandHeader

variable {input : Input} {order : ByteOrder} {start : ℕ}

/-- Every command starts behind all commands in front of it. -/
theorem commandOffset?_lt {j k a b : ℕ} (hjk : j < k)
    (ha : commandOffset? input order start j = some a)
    (hb : commandOffset? input order start k = some b) : a < b := by
  induction k generalizing b with
  | zero => omega
  | succ k ih =>
      obtain ⟨offset, hoffset, hb⟩ := Option.bind_eq_some_iff.mp hb
      obtain ⟨size, -, hb⟩ := Option.bind_eq_some_iff.mp hb
      have hstop : offset + max size.toNat 8 = b := Option.some.inj hb
      have hle : a ≤ offset := by
        obtain hlt | rfl := Nat.lt_or_eq_of_le (Nat.le_of_lt_succ hjk)
        · exact Nat.le_of_lt (ih hlt hoffset)
        · exact Nat.le_of_eq (Option.some.inj (ha.symm.trans hoffset))
      omega

namespace CommandHeader

theorem nodup_diagnostics (header : CommandHeader) : header.diagnostics.Nodup := by
  unfold diagnostics
  split <;> split <;> simp

theorem StandInOrder.nodup_diagnostics {headers : List CommandHeader}
    (h : StandInOrder headers input order start) : (headers.flatMap diagnostics).Nodup := by
  rw [List.nodup_flatMap]
  refine ⟨fun header _ => header.nodup_diagnostics, ?_⟩
  rw [List.pairwise_iff_getElem]
  intro j k hj hk hjk
  have hlt := commandOffset?_lt hjk (h j hj).1 (h k hk).1
  intro d hdj hdk
  have hplace := Option.some.inj
    ((Diagnostic.commandOffset?_of_mem hdj).symm.trans (Diagnostic.commandOffset?_of_mem hdk))
  omega

end CommandHeader

/-- What is said of a command that was read goes by its tag and size. -/
theorem LoadCommand.diagnostics_eq_of_decode {frame : Frame} {c c' : Cursor}
    {read : CommandHeader × LoadCommand} (h : decode frame input c = .ok read c') :
    read.2.diagnostics read.1 = read.1.diagnostics := by
  have hmeaning := (content_of_decode h).1
  simp only [diagnostics, CommandHeader.diagnostics, CommandHeader.isUndersized, hmeaning,
    decide_eq_true_eq]

/-! ### Symbols -/

/-- The diagnostics tell of the symbols of a table that are not resolved, of each of them once
and in the order of the table. -/
def SymbolTable.ListsUnresolved (table : SymbolTable) (kind : SymbolTableKind)
    (diagnostics : List Diagnostic) : Prop :=
  ∃ entries : List (Symbol × ℕ),
    entries.Pairwise (fun a b => a.2 < b.2) ∧
    (∀ s position, (s, position) ∈ entries ↔
      table.get? position = some s ∧ s.isResolved = false) ∧
    diagnostics = entries.map fun (s, position) => .unresolvedSymbol kind position s.index

namespace SymbolTable

theorem listsUnresolved_unresolved (table : SymbolTable) (kind : SymbolTableKind) :
    table.ListsUnresolved kind (table.unresolved kind).toList := by
  refine ⟨table.symbols.toList.zipIdx.filter fun entry => !entry.1.isResolved, ?_, ?_, ?_⟩
  · apply List.Pairwise.filter
    apply List.pairwise_map.mp
    rw [List.zipIdx_map_snd]
    exact List.pairwise_lt_range'
  · intro s position
    rw [List.mem_filter, List.mk_mem_zipIdx_iff_getElem?, Array.getElem?_toList, get?,
      Bool.not_eq_true']
  · rw [← List.filterMap_eq_map, List.filterMap_filter, unresolved, Array.toList_filterMap,
      Array.toList_zipIdx]
    congr 1
    funext entry
    cases hresolved : entry.1.isResolved <;> simp [hresolved]

variable {table : SymbolTable} {kind : SymbolTableKind} {diagnostics : List Diagnostic}

theorem ListsUnresolved.nodup (h : table.ListsUnresolved kind diagnostics) :
    diagnostics.Nodup := by
  obtain ⟨entries, hordered, -, rfl⟩ := h
  rw [List.Nodup, List.pairwise_map]
  refine hordered.imp fun hlt heq => ?_
  have hposition := (Diagnostic.unresolvedSymbol.inj heq).2.1
  omega

theorem ListsUnresolved.exists_of_mem (h : table.ListsUnresolved kind diagnostics)
    {d : Diagnostic} (hd : d ∈ diagnostics) :
    ∃ position index, d = .unresolvedSymbol kind position index := by
  obtain ⟨entries, -, -, rfl⟩ := h
  obtain ⟨entry, -, rfl⟩ := List.mem_map.mp hd
  exact ⟨_, _, rfl⟩

end SymbolTable

/-! ### Slices -/

namespace Slice

/-- Commands have places and symbols have none, and a symbol's diagnostic names its table. -/
theorem nodup_append_of_listsUnresolved {headers : List CommandHeader} {table : SymbolTable}
    {primary dynamic : List Diagnostic}
    (hcommands : (headers.flatMap CommandHeader.diagnostics).Nodup)
    (hprimary : table.ListsUnresolved .primary primary)
    (hdynamic : dynamic = [] ∨ ∃ t : SymbolTable, t.ListsUnresolved .dynamic dynamic) :
    (headers.flatMap CommandHeader.diagnostics ++ primary ++ dynamic).Nodup := by
  have hplace : ∀ d ∈ headers.flatMap CommandHeader.diagnostics, d.commandOffset? ≠ none := by
    intro d hd hnone
    obtain ⟨header, -, hd⟩ := List.mem_flatMap.mp hd
    rw [Diagnostic.commandOffset?_of_mem hd] at hnone
    cases hnone
  have hfirst : (headers.flatMap CommandHeader.diagnostics ++ primary).Nodup := by
    refine List.nodup_append.mpr ⟨hcommands, hprimary.nodup, ?_⟩
    rintro a ha _ hb rfl
    obtain ⟨position, index, rfl⟩ := hprimary.exists_of_mem hb
    exact hplace _ ha rfl
  obtain rfl | ⟨t, ht⟩ := hdynamic
  · rwa [List.append_nil]
  refine List.nodup_append.mpr ⟨hfirst, ht.nodup, ?_⟩
  rintro a ha _ hb rfl
  obtain ⟨position, index, rfl⟩ := ht.exists_of_mem hb
  obtain ha | ha := List.mem_append.mp ha
  · exact hplace _ ha rfl
  · obtain ⟨position', index', hsame⟩ := hprimary.exists_of_mem ha
    cases hsame

/-- The diagnostics of a slice, split by what they tell of. -/
structure Diagnosed (slice : Slice) (headers : List CommandHeader)
    (primary dynamic : List Diagnostic) : Prop where
  /-- Those of the commands stand first, then those of the symbols. -/
  diagnostics_eq : slice.diagnostics.toList =
    headers.flatMap CommandHeader.diagnostics ++ primary ++ dynamic
  nodup : slice.diagnostics.toList.Nodup
  symbols_listed : slice.symbols.ListsUnresolved .primary primary
  /-- With stubs, and with symbols to link to, the dynamic symbols are listed as well. -/
  dynamicSymbols_listed : (slice.section? .symbolStubs).isSome → slice.symbols.isEmpty = false →
    slice.dynamicSymbols.ListsUnresolved .dynamic dynamic
  dynamic_nil : slice.section? .symbolStubs = none ∨ slice.symbols.isEmpty → dynamic = []

namespace Raw

variable (raw : Raw) (stubSize : StubSize)

/-- The diagnostics of the dynamic symbols, which are linked only where there are stubs and
symbols. -/
def dynamicDiagnostics : Array Diagnostic :=
  if (raw.sections.find? (·.kind = .symbolStubs)).isSome && !raw.namedSymbols.isEmpty then
    (raw.linkedSymbols stubSize).unresolved .dynamic
  else #[]

theorem resolved_diagnostics :
    (raw.resolved stubSize).diagnostics =
      raw.layout.diagnostics ++ raw.namedSymbols.unresolved .primary ++
        raw.dynamicDiagnostics stubSize := by
  unfold resolved assemble dynamicDiagnostics linkedSymbols namedSymbols strings section?
  simp only [layout_header]
  cases raw.sections.find? (·.kind = .symbolStubs) with
  | none => simp
  | some stubs =>
      dsimp only
      split
      · next hempty => simp [hempty]
      · next hempty => simp [hempty]

theorem layout_diagnostics {frame : Frame} {input : Input} {c c' : Cursor}
    (h : Runs (LoadCommand.decode frame) input c raw.commands c') :
    raw.layout.diagnostics.toList =
      (raw.commands.map Prod.fst).flatMap CommandHeader.diagnostics := by
  rw [layout_eq, List.flatMap_map]
  refine List.flatMap_congr fun read hread => ?_
  obtain ⟨c₁, c₂, hrun⟩ := h.exists_run_of_mem hread
  exact LoadCommand.diagnostics_eq_of_decode hrun

theorem diagnosed_resolved {headers : List CommandHeader} {input : Input} {order : ByteOrder}
    {start : ℕ} (hstand : CommandHeader.StandInOrder headers input order start)
    (hlayout : raw.layout.diagnostics.toList = headers.flatMap CommandHeader.diagnostics) :
    (raw.resolved stubSize).Diagnosed headers (raw.namedSymbols.unresolved .primary).toList
      (raw.dynamicDiagnostics stubSize).toList := by
  have hsymbols : (raw.resolved stubSize).symbols = raw.namedSymbols := by
    rw [resolved_eq]
  have hlinked : (raw.resolved stubSize).dynamicSymbols = raw.linkedSymbols stubSize := by
    rw [resolved_eq]
  have hstubs : (raw.resolved stubSize).section? .symbolStubs =
      raw.sections.find? (·.kind = .symbolStubs) := by
    rw [section?, resolved_sections]
  have hsplit : (raw.resolved stubSize).diagnostics.toList =
      headers.flatMap CommandHeader.diagnostics ++
        (raw.namedSymbols.unresolved .primary).toList ++
          (raw.dynamicDiagnostics stubSize).toList := by
    rw [resolved_diagnostics, Array.toList_append, Array.toList_append, hlayout]
  have hprimary := raw.namedSymbols.listsUnresolved_unresolved .primary
  constructor
  case diagnostics_eq => exact hsplit
  case symbols_listed => rwa [hsymbols]
  case dynamicSymbols_listed =>
    intro hsome hne
    rw [hstubs] at hsome
    rw [hsymbols] at hne
    rw [hlinked, dynamicDiagnostics, hsome, hne]
    exact (raw.linkedSymbols stubSize).listsUnresolved_unresolved .dynamic
  case dynamic_nil =>
    intro hnone
    rw [hstubs, hsymbols] at hnone
    unfold dynamicDiagnostics
    obtain hnone | hempty := hnone
    · simp [hnone]
    · simp [hempty]
  case nodup =>
    rw [hsplit]
    refine nodup_append_of_listsUnresolved hstand.nodup_diagnostics hprimary ?_
    unfold dynamicDiagnostics
    split
    · exact .inr ⟨_, (raw.linkedSymbols stubSize).listsUnresolved_unresolved .dynamic⟩
    · exact .inl rfl

end Raw

/-- **The diagnostics are complete, and nothing else is among them.**  Those of a decoded slice
start with what is odd about its load commands, in the order of the file: of every command
smaller than its tag and size, and of every command whose tag has no meaning, the tag, the
offset in the file and the size as they stand there.  The symbols that are left unresolved
follow, and where the slice has stubs and symbols the dynamic symbols that are, each table in
its order and every symbol once.  No diagnostic is there twice. -/
theorem diagnostics_of_decode {stubSize : StubSize} {base : ℕ} {c : Cursor} {slice : Slice}
    (h : (decode stubSize base).answer input c = .ok slice) :
    ∃ headers primary dynamic,
      input.StartsSlice base slice.frame ∧
      (input.u32? slice.frame.order (base + 16)).map UInt32.toNat = some headers.length ∧
      CommandHeader.StandInOrder headers input slice.frame.order
        (base + slice.frame.headerSize) ∧
      slice.Diagnosed headers primary dynamic := by
  obtain ⟨raw, hraw, rfl⟩ := exists_raw h
  obtain ⟨c₁, c₂, hheader, hlength, hruns⟩ := Raw.runs_of_decode hraw
  have hlayout := raw.layout_diagnostics hruns
  have hstart := Header.startsSlice_of_decode hheader
  obtain ⟨magic, -, -, hcount, rfl⟩ := Header.decode_eq_ok hheader
  have hstand : CommandHeader.StandInOrder (raw.commands.map Prod.fst) input raw.frame.order
      (base + raw.frame.headerSize) := by
    intro k hk
    rw [List.length_map] at hk
    have hread := readsCommand_of_runs hruns rfl k hk
    rw [List.getElem_map]
    exact ⟨hread.offset_eq, hread.tag_eq, hread.size_eq⟩
  rw [Raw.resolved_frame]
  refine ⟨raw.commands.map Prod.fst, _, _, hstart, ?_, hstand,
    raw.diagnosed_resolved stubSize hstand hlayout⟩
  rw [hcount, List.length_map, hlength]
  rfl

/-- In a slice four bytes into a file, an unknown command of four bytes is noted twice over, for
its size and for its tag, with its place in the file.  Of two symbols the second has no name.
Of two dynamic symbols the first is linked to that one, and the second points nowhere. -/
theorem diagnostics_of_decode_damaged :
    let zeros (count : ℕ) : List UInt8 := List.replicate count 0
    let file : Input := ([0, 0, 0, 0,
        0xCE, 0xFA, 0xED, 0xFE, 7, 0, 0, 0, 3, 0, 0, 0, 2, 0, 0, 0, 4, 0, 0, 0, 236, 0, 0, 0,
        0, 0, 0, 0, 0x99, 0, 0, 0, 4, 0, 0, 0, 1, 0, 0, 0, 124, 0, 0, 0] ++ zeros 40 ++
      [1, 0, 0, 0, 0, 0, 0, 0, 0x5F, 0x5F, 0x73, 0x74, 0x75, 0x62, 0x73] ++ zeros 9 ++
      [0x5F, 0x5F, 0x54, 0x45, 0x58, 0x54] ++ zeros 46 ++
      [2, 0, 0, 0, 24, 0, 0, 0, 8, 1, 0, 0, 2, 0, 0, 0, 32, 1, 0, 0, 2, 0, 0, 0,
        11, 0, 0, 0, 80, 0, 0, 0] ++ zeros 48 ++ [34, 1, 0, 0, 2, 0, 0, 0] ++ zeros 16 ++
      [0, 0, 0, 0, 15, 1, 0, 0, 0, 16, 0, 0, 9, 0, 0, 0, 15, 1, 0, 0, 0, 32, 0, 0, 0x61, 0,
        1, 0, 0, 0, 7, 0, 0, 0]).toArray
    ∃ slice, (decode .legacy 4).answer file {} = .ok slice ∧
      slice.diagnostics = #[.undersizedCommand 0x99 32 4, .unrecognizedCommand 0x99 32 4,
        .unresolvedSymbol .primary 1 9, .unresolvedSymbol .dynamic 1 7] ∧
      ∃ headers primary dynamic,
        file.StartsSlice 4 slice.frame ∧
        (file.u32? slice.frame.order (4 + 16)).map UInt32.toNat = some headers.length ∧
        CommandHeader.StandInOrder headers file slice.frame.order
          (4 + slice.frame.headerSize) ∧
        slice.Diagnosed headers primary dynamic := by
  intro zeros file
  have hdiagnostics : ((decode .legacy 4).answer file {}).toOption.map Slice.diagnostics =
      some #[.undersizedCommand 0x99 32 4, .unrecognizedCommand 0x99 32 4,
        .unresolvedSymbol .primary 1 9, .unresolvedSymbol .dynamic 1 7] := by
    decide +kernel
  obtain ⟨slice, hslice, hlist⟩ := exists_of_toOption_map hdiagnostics
  exact ⟨slice, hslice, hlist, diagnostics_of_decode hslice⟩

end Slice

end MachImage
