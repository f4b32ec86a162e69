import Mathlib.Data.List.TakeWhile
import MachImage.Proofs.Slice.SymbolTables

/-! # Names of symbols

A name is the text that a string table holds from the index of the symbol up to the next NUL
(`nameAt?_eq`).  A load command that declares a symbol table declares a string table with
it.  Where there are several such commands, the symbols of a slice are those of the last one
and their names stand in the strings of the first one (`Slice.names_of_decode`): the last
symbol table that is recorded counts, but the first section of strings is the one found.
With just one symbol table the two are the same; with more, symbols can have names that
their own strings do not hold (`Slice.not_namedFrom_own_strings`). -/

namespace MachImage

open Decoder Text

/-! ### Text in a string table -/

theorem nulPosition_eq (strings : Array UInt8) (start count : ℕ)
    (h : start + count = strings.size) :
    nulPosition strings start count =
      start + ((strings.toList.drop start).takeWhile (· ≠ 0)).length := by
  induction count generalizing start with
  | zero =>
      have hnil : strings.toList.drop start = [] :=
        List.drop_eq_nil_of_le (by rw [Array.length_toList]; omega)
      rw [hnil]
      rfl
  | succ count ih =>
      have hlt : start < strings.size := by omega
      have hdrop : strings.toList.drop start =
          strings[start] :: strings.toList.drop (start + 1) :=
        List.drop_eq_getElem_cons (by rwa [Array.length_toList])
      rw [nulPosition, Array.getElem?_eq_getElem hlt, ih (start + 1) (by omega), hdrop]
      by_cases hnul : strings[start] = 0
      · simp [hnul]
      · simp [hnul]
        omega

theorem upToNul_takeWhile (bytes : List UInt8) :
    upToNul (bytes.takeWhile (· ≠ 0)) = upToNul bytes := by
  rw [upToNul, List.takeWhile_idem]
  rfl

theorem nameAt?_eq (strings : Array UInt8) (start : ℕ) :
    nameAt? strings start =
      if start < strings.size then some (upToNul (strings.toList.drop start)) else none := by
  unfold nameAt?
  split
  · next hlt =>
    dsimp only
    rw [nulPosition_eq strings start _ (by omega), Array.toList_extract,
      List.extract_eq_take_drop, Nat.add_sub_cancel_left,
      ← List.prefix_iff_eq_take.mp (List.takeWhile_prefix _), upToNul_takeWhile]
  · rfl

namespace Symtab

variable (frame : Frame) (input : Input) (table : Symtab)

/-- The bytes of the string table that comes with a symbol table. -/
def strings : List UInt8 :=
  input.range (frame.fileOffset table.stringOffset.toNat) table.stringSize.toNat

/-- The name that the strings of a symbol table hold for an index: the text up to the first
NUL or the end of the strings, and none for an index past them. -/
def name? (index : UInt32) : Option String :=
  if index < table.stringSize then some (upToNul ((table.strings frame input).drop index.toNat))
  else none

theorem nameAt?_stringSection
    (hinside : frame.fileOffset table.stringOffset.toNat + table.stringSize.toNat ≤ input.size)
    (index : UInt32) :
    nameAt? ((table.stringSection frame).loaded input).data index.toNat =
      table.name? frame input index := by
  have hdata : ((table.stringSection frame).loaded input).data.toList =
      table.strings frame input := rfl
  have hsize : ((table.stringSection frame).loaded input).data.size = table.stringSize.toNat := by
    rw [← Array.length_toList, hdata, strings, Input.length_range hinside]
  rw [nameAt?_eq, hsize, hdata, name?]
  simp only [UInt32.lt_iff_toNat_lt]

end Symtab

namespace Slice

/-- The symbols of a slice are the entries of one symbol table, and their names stand in the
strings of another one. -/
structure NamedFrom (slice : Slice) (input : Input) (entries names : Symtab) : Prop where
  standsAt : slice.symbols.StandsAt input (slice.frame.fileOffset entries.symbolOffset.toNat)
    entries.symbolCount.toNat (symbolSize slice.frame.width) (Symbol.bytes slice.frame)
  name?_eq : ∀ s ∈ slice.symbols.symbols, s.name? = names.name? slice.frame input s.index

namespace Raw

variable {raw : Raw} {input : Input}

theorem OfFile.strings_eq (h : raw.OfFile input) {first : Symtab}
    (hfirst : first ∈ raw.symtabs.head?) :
    raw.strings = ((first.stringSection raw.frame).loaded input).data := by
  rw [strings, ← Array.find?_toList, ← List.head?_filter, h.filter_stringTable, List.head?_map,
    hfirst]
  rfl

/-- The strings of every symbol table lie in the file, also where no symbol is read from it. -/
theorem OfFile.strings_inside (h : raw.OfFile input) {table : Symtab}
    (htable : table ∈ raw.symtabs) :
    raw.frame.fileOffset table.stringOffset.toNat + table.stringSize.toNat ≤ input.size := by
  have hmem : (table.stringSection raw.frame).loaded input ∈
      raw.sections.toList.filter (·.kind = .stringTable) := by
    rw [h.filter_stringTable]
    exact List.mem_map_of_mem htable
  exact h.inside_of_mem (Array.mem_toList_iff.mp (List.mem_of_mem_filter hmem))

theorem OfFile.namedFrom (h : raw.OfFile input) (stubSize : StubSize) {first last : Symtab}
    (hfirst : first ∈ raw.symtabs.head?) (hlast : last ∈ raw.symtabs.getLast?) :
    (raw.resolved stubSize).NamedFrom input last first := by
  constructor
  case standsAt =>
    rw [resolved_frame]
    exact h.standsAt_symbols stubSize hlast
  case name?_eq =>
    rw [resolved_eq]
    intro s hs
    obtain ⟨s', _, rfl⟩ := Array.mem_map.mp hs
    rw [Symbol.named, h.strings_eq hfirst]
    exact first.nameAt?_stringSection raw.frame input
      (h.strings_inside (List.mem_of_mem_head? hfirst)) s'.index

end Raw

/-- **Names come from the first strings.**  Of the symbol tables that load commands declare,
in the order of the commands, the last one has the symbols of the slice and the first one
their names: what its strings hold at the index of a symbol is the name. -/
theorem names_of_decode {stubSize : StubSize} {base : ℕ} {input : Input} {c : Cursor}
    {slice : Slice} (h : (decode stubSize base).answer input c = .ok slice) :
    ∃ raw, (Raw.decode base).answer input c = .ok raw ∧
      (raw.symtabs = [] → slice.symbols = {}) ∧
      ∀ first ∈ raw.symtabs.head?, ∀ last ∈ raw.symtabs.getLast?,
        slice.NamedFrom input last first := by
  obtain ⟨raw, hraw, rfl⟩ := exists_raw h
  obtain ⟨hfile, rfl⟩ := Raw.ofFile_of_decode hraw
  exact ⟨raw, hraw, hfile.symbols_resolved_empty stubSize,
    fun _ hfirst _ hlast => hfile.namedFrom stubSize hfirst hlast⟩

/-- A slice of two symbol tables.  The first one has no symbols and the strings `a`; the
second one has a symbol, whose index is 0, and the strings `b`. -/
def twoTables : Input := #[
  0xCE, 0xFA, 0xED, 0xFE, 7, 0, 0, 0, 3, 0, 0, 0, 2, 0, 0, 0, 2, 0, 0, 0, 48, 0, 0, 0, 0, 0, 0, 0,
  2, 0, 0, 0, 24, 0, 0, 0, 76, 0, 0, 0, 0, 0, 0, 0, 88, 0, 0, 0, 2, 0, 0, 0,
  2, 0, 0, 0, 24, 0, 0, 0, 76, 0, 0, 0, 1, 0, 0, 0, 90, 0, 0, 0, 2, 0, 0, 0,
  0, 0, 0, 0, 15, 1, 0, 0, 0, 16, 0, 0,
  0x61, 0, 0x62, 0]

theorem names_of_decode_twoTables :
    ∃ slice, (decode .legacy 0).answer twoTables {} = .ok slice ∧
      slice.symbols.symbols.map Symbol.name = #["a"] ∧
      ∃ raw, (Raw.decode 0).answer twoTables {} = .ok raw ∧
        (raw.symtabs = [] → slice.symbols = {}) ∧
        ∀ first ∈ raw.symtabs.head?, ∀ last ∈ raw.symtabs.getLast?,
          slice.NamedFrom twoTables last first := by
  have hnames : ((decode .legacy 0).answer twoTables {}).toOption.map
      (fun slice => slice.symbols.symbols.map Symbol.name) = some #["a"] := by
    decide +kernel
  obtain ⟨slice, h, hnames⟩ := exists_of_toOption_map hnames
  exact ⟨slice, h, hnames, names_of_decode h⟩

/-- Symbols are not always named from the strings that come with them. -/
theorem not_namedFrom_own_strings :
    ∃ slice raw, (decode .legacy 0).answer twoTables {} = .ok slice ∧
      (Raw.decode 0).answer twoTables {} = .ok raw ∧ raw.symtabs.length = 2 ∧
      ∀ table ∈ raw.symtabs, ¬ slice.NamedFrom twoTables table table := by
  have hslice : ((decode .legacy 0).answer twoTables {}).toOption.map
      (fun slice => (slice.frame, slice.symbols)) =
        some ({ width := .bits32, order := .little, base := 0 },
          ⟨#[{ index := 0, value := 4096, kind := 15, sectionNumber := 1
               name? := some "a" }]⟩) := by
    decide +kernel
  have hraw : ((Raw.decode 0).answer twoTables {}).toOption.map Raw.symtabs =
      some [⟨76, 0, 88, 2⟩, ⟨76, 1, 90, 2⟩] := by
    decide +kernel
  obtain ⟨slice, h, hslice⟩ := exists_of_toOption_map hslice
  obtain ⟨raw, h', hraw⟩ := exists_of_toOption_map hraw
  obtain ⟨hframe, hsymbols⟩ := Prod.mk.inj hslice
  refine ⟨slice, raw, h, h', by rw [hraw]; rfl, ?_⟩
  rw [hraw, List.forall_mem_cons, List.forall_mem_singleton]
  constructor
  -- the first table has no symbols
  · intro hnamed
    have hsize := hnamed.standsAt.size_eq
    rw [hsymbols] at hsize
    revert hsize
    decide
  -- the strings of the second one begin with another name
  · intro hnamed
    have hname := hnamed.name?_eq
    rw [hsymbols, hframe] at hname
    revert hname
    decide

end Slice

end MachImage
