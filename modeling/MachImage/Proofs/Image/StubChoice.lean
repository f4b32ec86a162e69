import MachImage.Proofs.Slice.Diagnostics
import MachImage.Proofs.Slice.Stubs
import MachImage.Proofs.Image.Counts

/-! # What the choice of a stub size reaches

How the size of a stub is found is told from outside, and not by the file.  The choice reaches
the addresses that are given to linked symbols and nothing else: `Slice.withoutStubs` is a slice
without these addresses, and it is the same for every choice (`Raw.withoutStubs_resolved`), as
are all failures (`Image.parse_withoutStubs`).  The addresses themselves go by position, so the
distance between two of them is a multiple of the size that was chosen
(`Raw.OfFile.stubsSpaced`), with addresses that start over at the end of memory. -/

namespace MachImage

open Decoder

/-! ### Slices without the addresses of stubs -/

/-- The symbol without the address of its stub, which it has if it is resolved. -/
def Symbol.withoutStub (s : Symbol) : Symbol := if s.isResolved then { s with value := 0 } else s

def Slice.withoutStubs (slice : Slice) : Slice :=
  { slice with dynamicSymbols := ⟨slice.dynamicSymbols.symbols.map Symbol.withoutStub⟩ }

namespace Symbol

@[simp] theorem isResolved_withoutStub (s : Symbol) : s.withoutStub.isResolved = s.isResolved := by
  unfold withoutStub
  split <;> rfl

@[simp] theorem index_withoutStub (s : Symbol) : s.withoutStub.index = s.index := by
  unfold withoutStub
  split <;> rfl

/-- A symbol is linked to the same name whatever the size of a stub is. -/
theorem withoutStub_linked (primary : SymbolTable) (stubs : Address) (size size' : UInt64)
    (position : ℕ) (s : Symbol) :
    (s.linked primary stubs size position).withoutStub =
      (s.linked primary stubs size' position).withoutStub := by
  unfold linked
  cases primary.get? s.index.toNat <;> rfl

end Symbol

namespace SymbolTable

theorem map_withoutStub_linked (table primary : SymbolTable) (stubs : Address)
    (size size' : UInt64) :
    (table.linked primary stubs size).symbols.map Symbol.withoutStub =
      (table.linked primary stubs size').symbols.map Symbol.withoutStub := by
  refine Array.ext_getElem? fun i => ?_
  simp only [linked, Array.getElem?_map, Array.getElem?_mapIdx, Option.map_map]
  congr 1
  funext s
  exact s.withoutStub_linked primary stubs size size' i

theorem unresolved_withoutStub (table : SymbolTable) (kind : SymbolTableKind) :
    unresolved ⟨table.symbols.map Symbol.withoutStub⟩ kind = table.unresolved kind := by
  unfold unresolved
  rw [Array.zipIdx_map, Array.filterMap_map]
  congr 1
  funext ⟨s, position⟩
  simp

theorem unresolved_linked (table primary : SymbolTable) (stubs : Address) (size size' : UInt64)
    (kind : SymbolTableKind) :
    (table.linked primary stubs size).unresolved kind =
      (table.linked primary stubs size').unresolved kind := by
  rw [← unresolved_withoutStub, map_withoutStub_linked table primary stubs size size',
    unresolved_withoutStub]

end SymbolTable

namespace Slice.Raw

variable (raw : Raw) (a b : StubSize)

theorem map_withoutStub_linkedSymbols :
    (raw.linkedSymbols a).symbols.map Symbol.withoutStub =
      (raw.linkedSymbols b).symbols.map Symbol.withoutStub := by
  unfold linkedSymbols
  cases raw.sections.find? (·.kind = .symbolStubs) with
  | none => rfl
  | some stubs => exact raw.dynamicSymbols.map_withoutStub_linked _ _ _ _

theorem dynamicDiagnostics_eq : raw.dynamicDiagnostics a = raw.dynamicDiagnostics b := by
  unfold dynamicDiagnostics linkedSymbols
  cases raw.sections.find? (·.kind = .symbolStubs) with
  | none => rfl
  | some stubs =>
      dsimp only
      rw [raw.dynamicSymbols.unresolved_linked]

/-- Whatever is chosen, the same slice is resolved, but for the addresses of stubs. -/
theorem withoutStubs_resolved :
    (raw.resolved a).withoutStubs = (raw.resolved b).withoutStubs := by
  have hdiagnostics : (raw.resolved a).diagnostics = (raw.resolved b).diagnostics := by
    rw [resolved_diagnostics, resolved_diagnostics, raw.dynamicDiagnostics_eq a b]
  rw [resolved_eq raw a, resolved_eq raw b]
  simp only [withoutStubs, hdiagnostics, raw.map_withoutStub_linkedSymbols a b]

end Slice.Raw

/-! ### Distances between stubs -/

/-- The stubs of any two resolved symbols are as many times `size` bytes apart as there are
positions between them, modulo the size of memory. -/
def Slice.StubsSpaced (slice : Slice) (size : UInt64) : Prop :=
  ∀ h g entry other, slice.dynamicSymbols.get? h = some entry →
    slice.dynamicSymbols.get? g = some other → entry.isResolved → other.isResolved →
      entry.value - other.value = (UInt64.ofNat h - UInt64.ofNat g) * size

theorem Symbol.value_of_isResolved_linked {primary : SymbolTable} {stubs : Address}
    {size : UInt64} {position : ℕ} {s : Symbol} (hs : s.isResolved = false)
    (hlinked : (s.linked primary stubs size position).isResolved) :
    (s.linked primary stubs size position).value =
      stubs.value + UInt64.ofNat position * size := by
  cases htarget : primary.get? s.index.toNat with
  | none =>
      rw [linked_of_none htarget, hs] at hlinked
      cases hlinked
  | some target =>
      rw [linked, htarget]
      rfl

namespace Slice

/-- With the first section of stubs known, the address of a resolved symbol is told from its
position alone. -/
theorem Raw.OfFile.stubsSpaced {raw : Raw} {input : Input} (h : raw.OfFile input)
    (stubSize : StubSize) :
    (raw.resolved stubSize).StubsSpaced
      (stubSize.resolve raw.header.cpuType raw.layout.stubEntrySize?) := by
  intro i j entry other hentry hother hresolved hresolved'
  rw [Raw.resolved_eq] at hentry hother
  dsimp only at hentry hother
  cases hstubs : raw.sections.find? (·.kind = .symbolStubs) with
  | none =>
      rw [Raw.linkedSymbols_of_none stubSize hstubs] at hentry
      rw [(h.isBare_of_get? hentry).isResolved_eq] at hresolved
      cases hresolved
  | some stubs =>
      rw [Raw.linkedSymbols_of_stubs stubSize hstubs, SymbolTable.get?_linked] at hentry hother
      obtain ⟨s, hs, rfl⟩ := Option.map_eq_some_iff.mp hentry
      obtain ⟨t, ht, rfl⟩ := Option.map_eq_some_iff.mp hother
      rw [Symbol.value_of_isResolved_linked (h.isBare_of_get? hs).isResolved_eq hresolved,
        Symbol.value_of_isResolved_linked (h.isBare_of_get? ht).isResolved_eq hresolved']
      grind

theorem decode_withoutStubs (a b : StubSize) (base : ℕ) (input : Input) (c : Cursor) :
    ((decode a base).answer input c).map withoutStubs =
      ((decode b base).answer input c).map withoutStubs := by
  rw [answer_decode_eq, answer_decode_eq]
  cases (Raw.decode base).answer input c with
  | error e => rfl
  | ok raw => exact congrArg Except.ok (raw.withoutStubs_resolved a b)

theorem stubsSpaced_of_decode {stubSize : StubSize} {base : ℕ} {input : Input} {c : Cursor}
    {slice : Slice} (h : (decode stubSize base).answer input c = .ok slice) :
    ∃ layout, (Layout.decode base).answer input c = .ok layout ∧ slice.frame = layout.frame ∧
      slice.frame.base = base ∧
      slice.StubsSpaced (stubSize.resolve slice.cpuType layout.stubEntrySize?) := by
  obtain ⟨raw, hraw, rfl⟩ := exists_raw h
  obtain ⟨hfile, hbase⟩ := Raw.ofFile_of_decode hraw
  refine ⟨raw.layout, Raw.answer_layout hraw, ?_, ?_, ?_⟩
  · rw [Raw.resolved_frame, Raw.layout_frame]
  · rwa [Raw.resolved_frame]
  · have hspaced := hfile.stubsSpaced stubSize
    rw [Raw.resolved_eq] at hspaced ⊢
    exact hspaced

end Slice

/-! ### Files -/

namespace Decoder

variable {α β γ ε : Type} (g : α → Except ε β) (k : β → γ)

theorem listMapM_map (as : List α) :
    (as.mapM g).map (List.map k) = as.mapM fun a => (g a).map k := by
  induction as with
  | nil => rfl
  | cons a rest ih =>
      rw [List.mapM_cons, List.mapM_cons, ← ih]
      cases g a with
      | error e => rfl
      | ok b => cases rest.mapM g <;> rfl

theorem arrayMapM_map (as : Array α) :
    (as.mapM g).map (Array.map k) = as.mapM fun a => (g a).map k := by
  rw [Array.mapM_eq_mapM_toList, Array.mapM_eq_mapM_toList, ← listMapM_map]
  cases as.toList.mapM g with
  | error e => rfl
  | ok bs => exact congrArg Except.ok (List.map_toArray ..)

end Decoder

namespace Image

variable (a b : StubSize) (input : Input)

theorem map_withoutStubs_universal (magic : UInt32) (hmagic : input.u32? .little 0 = some magic)
    (huniversal : isUniversalMagic magic) (c : Cursor) :
    ((parse a).answer input c).map (Array.map Slice.withoutStubs) =
      directory input >>=
        Array.mapM fun entry => (sliceOf a input entry).map Slice.withoutStubs := by
  rw [answer_parse_universal c hmagic huniversal]
  cases directory input with
  | error e => rfl
  | ok entries => exact arrayMapM_map _ _ entries

theorem map_withoutStubs_single (magic : UInt32) (hmagic : input.u32? .little 0 = some magic)
    (huniversal : ¬ isUniversalMagic magic) (c : Cursor) :
    ((parse a).answer input c).map (Array.map Slice.withoutStubs) =
      if isMagic magic then
        (((Slice.decode a 0).answer input {}).map Slice.withoutStubs).map (#[·])
      else .error (.unsupportedMagic magic) := by
  rw [answer_parse, hmagic]
  dsimp only
  rw [if_neg huniversal]
  split
  · cases (Slice.decode a 0).answer input {} with
    | error e => rfl
    | ok slice => simp [Except.map]
  · rfl

/-- **The choice of a stub size moves stubs and does nothing else.**  With any two choices a
file is refused with the same error, or the same number of slices is decoded, and they agree
in everything but the addresses of the stubs of resolved symbols.  In every slice those are as
many times the chosen size apart as there are positions between them, modulo the size of
memory. -/
theorem parse_withoutStubs (c : Cursor) :
    ((parse a).answer input c).map (Array.map Slice.withoutStubs) =
      ((parse b).answer input c).map (Array.map Slice.withoutStubs) ∧
    ∀ slices, (parse a).answer input c = .ok slices → ∀ slice ∈ slices, ∃ layout,
      (Layout.decode slice.frame.base).answer input {} = .ok layout ∧
      slice.frame = layout.frame ∧
      slice.StubsSpaced (a.resolve slice.cpuType layout.stubEntrySize?) := by
  constructor
  · cases hmagic : input.u32? .little 0 with
    | none => rw [answer_parse, answer_parse, hmagic]
    | some magic =>
        by_cases huniversal : isUniversalMagic magic
        · have hslices : (fun entry => (sliceOf a input entry).map Slice.withoutStubs) =
              fun entry => (sliceOf b input entry).map Slice.withoutStubs :=
            funext fun entry => Slice.decode_withoutStubs a b entry.offset.toNat input {}
          rw [map_withoutStubs_universal a input magic hmagic huniversal,
            map_withoutStubs_universal b input magic hmagic huniversal, hslices]
        · rw [map_withoutStubs_single a input magic hmagic huniversal,
            map_withoutStubs_single b input magic hmagic huniversal,
            Slice.decode_withoutStubs a b]
  · intro slices h slice hslice
    obtain ⟨base, hdecode⟩ := exists_decode_of_mem_parse h hslice
    obtain ⟨layout, hlayout, hframe, rfl, hspaced⟩ := Slice.stubsSpaced_of_decode hdecode
    exact ⟨layout, hlayout, hframe, hspaced⟩

/-- Three dynamic symbols, the second of which points nowhere, with stubs of 16 bytes as the
file says or of one byte less than all memory: the third stub is two sizes behind the first,
which wraps around to two bytes in front of it. -/
theorem parse_withoutStubs_wrapped :
    let bytes : List UInt8 := [
      0xCE, 0xFA, 0xED, 0xFE, 12, 0, 0, 0, 0, 0, 0, 0, 2, 0, 0, 0, 3, 0, 0, 0, 0, 0, 0, 0,
      0, 0, 0, 0,
      1, 0, 0, 0, 124, 0, 0, 0] ++ List.replicate 40 0 ++ [1, 0, 0, 0, 0, 0, 0, 0,
      0x5F, 0x5F, 0x73, 0x74, 0x75, 0x62, 0x73, 0, 0, 0, 0, 0, 0, 0, 0, 0,
      0x5F, 0x5F, 0x54, 0x45, 0x58, 0x54, 0, 0, 0, 0, 0, 0, 0, 0, 0, 0,
      0, 16, 0, 0] ++ List.replicate 28 0 ++ [16, 0, 0, 0,
      2, 0, 0, 0, 24, 0, 0, 0, 0, 1, 0, 0, 1, 0, 0, 0, 12, 1, 0, 0, 2, 0, 0, 0,
      11, 0, 0, 0, 80, 0, 0, 0] ++ List.replicate 48 0 ++ [14, 1, 0, 0, 3, 0, 0, 0,
      0, 0, 0, 0, 0, 0, 0, 0, 0, 0, 0, 0, 0, 0, 0, 0,
      0, 0, 0, 0, 15, 1, 0, 0, 0, 32, 0, 0, 0x61, 0,
      0, 0, 0, 0, 7, 0, 0, 0, 0, 0, 0, 0]
    let file : Input := bytes.toArray
    let values (slices : Array Slice) := slices.map fun slice =>
      slice.dynamicSymbols.symbols.map fun s => (s.name?, s.value)
    ∃ declared wrapped, (parse .fromSection).answer file {} = .ok declared ∧
      (parse (.fixed 0xFFFFFFFFFFFFFFFF)).answer file {} = .ok wrapped ∧
      values declared = #[#[(some "a", 0x1000), (none, 0), (some "a", 0x1020)]] ∧
      values wrapped = #[#[(some "a", 0x1000), (none, 0), (some "a", 0xFFE)]] ∧
      declared.map Slice.withoutStubs = wrapped.map Slice.withoutStubs ∧
      ∀ slice ∈ wrapped, slice.StubsSpaced 0xFFFFFFFFFFFFFFFF := by
  intro bytes file values
  have hdeclared : ((parse .fromSection).answer file {}).toOption.map values =
      some #[#[(some "a", 0x1000), (none, 0), (some "a", 0x1020)]] := by
    decide +kernel
  have hwrapped : ((parse (.fixed 0xFFFFFFFFFFFFFFFF)).answer file {}).toOption.map values =
      some #[#[(some "a", 0x1000), (none, 0), (some "a", 0xFFE)]] := by
    decide +kernel
  obtain ⟨declared, hdeclared, hvalues⟩ := exists_of_toOption_map hdeclared
  obtain ⟨wrapped, hwrapped, hvalues'⟩ := exists_of_toOption_map hwrapped
  obtain ⟨hsame, -⟩ := parse_withoutStubs .fromSection (.fixed 0xFFFFFFFFFFFFFFFF) file {}
  obtain ⟨-, hspaced⟩ := parse_withoutStubs (.fixed 0xFFFFFFFFFFFFFFFF) .fromSection file {}
  rw [hdeclared, hwrapped] at hsame
  refine ⟨declared, wrapped, hdeclared, hwrapped, hvalues, hvalues', Except.ok.inj hsame, ?_⟩
  intro slice hslice
  obtain ⟨layout, -, -, hsizes⟩ := hspaced wrapped hwrapped slice hslice
  exact hsizes

end Image

end MachImage
