import Mathlib.Algebra.Group.Nat.Defs
import MachImage.Slice
import MachImage.Proofs.LoadCommand.Relocation

/-! # Slices a distance further on

`Slice.moved d` is the slice decoded from the same bytes `d` bytes further on in the file:
the start of the slice, the file positions of its sections and segments and the positions
of the commands that diagnostics are about grow by `d`, and all else stays.  Decoding a
slice follows itself in a larger file (`Slice.relocates_decode`), wherever its reads land:
the header, the commands, both symbol tables and the bytes of the sections.

Moving a whole file (`Slice.decode_prepend`) keeps the failures too, with the position of a
missing run of bytes moved along. -/

namespace MachImage

open Decoder

variable {before after : Input} {d : ℕ}

/-! ### Headers -/

theorem Frame.ofMagic?_moved (magic : UInt32) (base : ℕ) :
    Frame.ofMagic? magic (base + d) = (Frame.ofMagic? magic base).map (Frame.moved d) := by
  unfold Frame.ofMagic?
  split_ifs <;> rfl

theorem Frame.base_of_ofMagic? {magic : UInt32} {base : ℕ} {frame : Frame}
    (h : Frame.ofMagic? magic base = some frame) : frame.base = base := by
  unfold Frame.ofMagic? at h
  split_ifs at h <;> cases h <;> rfl

theorem Header.relocates_decode (base : ℕ) :
    Relocates before after
      (fun p q => q = (p.1.moved before.size, p.2) ∧ p.1.base = base)
      (Header.decode base) (Header.decode (base + before.size)) := by
  unfold Header.decode
  refine (relocates_seek _).bind fun _ _ _ => (relocates_setOrder _).bind_eq fun _ => ?_
  refine relocates_u32.bind_eq fun magic => ?_
  rw [Frame.ofMagic?_moved]
  cases h : Frame.ofMagic? magic base with
  | none => exact relocates_unsupportedMagic magic
  | some frame =>
      have hb := Frame.base_of_ofMagic? h
      refine (relocates_setOrder _).bind_eq fun _ => ?_
      refine relocates_u32.bind_eq fun _ => relocates_u32.bind_eq fun _ => ?_
      refine relocates_u32.bind_eq fun _ => relocates_u32.bind_eq fun _ => ?_
      refine relocates_u32.bind_eq fun _ => relocates_u32.bind_eq fun _ => ?_
      by_cases hw : frame.width = .bits64
      · have hw' : (frame.moved before.size).width = .bits64 := hw
        simp only [if_pos hw, if_pos hw']
        exact relocates_u32.bind_eq fun _ => .pure ⟨rfl, hb⟩
      · have hw' : (frame.moved before.size).width ≠ .bits64 := hw
        simp only [if_neg hw, if_neg hw']
        exact .pure ⟨rfl, hb⟩

/-! ### Layouts -/

namespace Layout

/-- The relation between a layout of a slice at `base` and the same one further on. -/
def MovesTo (d base : ℕ) (a b : Layout) : Prop :=
  b = a.moved d ∧ a.InRange ∧ a.frame.base = base

theorem foldl_record_movesTo {base : ℕ} {commands commands' : List (CommandHeader × LoadCommand)}
    (h : List.Forall₂ (fun p q => q.1 = p.1.moved d ∧ LoadCommand.MovesTo d p.2 q.2)
      commands commands')
    {layout layout' : Layout} (hm : layout.frame.Movable d) (hl : MovesTo d base layout layout') :
    MovesTo d base (commands.foldl record layout) (commands'.foldl record layout') := by
  induction h generalizing layout layout' with
  | nil => exact hl
  | @cons p q _ _ hpq _ ih =>
      obtain ⟨header, command⟩ := p
      obtain ⟨_, _⟩ := q
      obtain ⟨rfl, rfl, hc⟩ := hpq
      obtain ⟨rfl, hr, hb⟩ := hl
      refine ih (by rwa [record_frame]) ⟨record_moved hm header command, ?_, ?_⟩
      · exact hr.record header hc
      · rw [record_frame, hb]

/-- A slice is at a place from which no section is moved past the largest position. -/
theorem relocates_decode {base : ℕ}
    (h : before.size = 0 ∨ base + before.size + UInt32.size ≤ UInt64.size) :
    Relocates before after (MovesTo before.size base) (decode base)
      (decode (base + before.size)) := by
  unfold decode
  refine (Header.relocates_decode base).bind ?_
  rintro ⟨frame, header⟩ _ ⟨rfl, hb⟩
  refine (relocates_repeated (LoadCommand.relocates_decode frame) _).bind fun commands _ hc => ?_
  refine .pure ?_
  rw [← Array.foldl_toList, ← Array.foldl_toList]
  refine foldl_record_movesTo hc ?_ ⟨by simp [moved], by simp [InRange], hb⟩
  rwa [Frame.Movable, hb]

end Layout

/-! ### Slices -/

/-- The slice decoded from the same bytes `d` bytes further on in the file. -/
def Slice.moved (d : ℕ) (slice : Slice) : Slice :=
  { slice with
    frame := slice.frame.moved d
    sections := slice.sections.map (Section.moved d)
    segments := slice.segments.map (Segment.moved d)
    diagnostics := slice.diagnostics.map (Diagnostic.moved d) }

/-- The positions of all segments are of 64 bits. -/
def Slice.InRange (slice : Slice) : Prop := ∀ s ∈ slice.segments, s.InRange

namespace Slice

theorem moved_zero {slice : Slice} (h : slice.InRange) : slice.moved 0 = slice := by
  have hs : slice.segments.map (Segment.moved 0) = slice.segments :=
    (Array.map_congr_left fun s hs => Segment.moved_zero (h s hs)).trans (Array.map_id' _)
  simp [moved, Section.moved_zero, Diagnostic.moved_zero, hs]

/-! ### Tables -/

theorem relocates_decodeSymbol (width : Width) :
    Relocates before after Eq (decodeSymbol width) (decodeSymbol width) :=
  relocates_u32.bind_eq fun _ => relocates_u8.bind_eq fun _ => relocates_u8.bind_eq fun _ =>
    relocates_u16.bind_eq fun _ => (relocates_word width).bind_eq fun _ => .pure rfl

theorem relocates_decodeSymbols {frame : Frame} (h : frame.Movable before.size)
    (symtab : Symtab) :
    Relocates before after Eq (decodeSymbols frame symtab)
      (decodeSymbols (frame.moved before.size) symtab) := by
  unfold decodeSymbols
  rw [h.fileOffset]
  exact (relocates_seek _).bind fun _ _ _ =>
    (relocates_repeated_eq (relocates_decodeSymbol _) _).bind_eq fun _ => .pure rfl

theorem relocates_decodeIndirect {frame : Frame} (h : frame.Movable before.size)
    (indirect : IndirectSymbols) :
    Relocates before after Eq (decodeIndirect frame indirect)
      (decodeIndirect (frame.moved before.size) indirect) := by
  unfold decodeIndirect
  rw [h.fileOffset]
  have hentry : Relocates before after Eq
      (do return { index := ← u32, value := 0 } : Decoder Symbol)
      (do return { index := ← u32, value := 0 } : Decoder Symbol) :=
    relocates_u32.bind_eq fun _ => .pure rfl
  exact (relocates_seek _).bind fun _ _ _ =>
    (relocates_repeated_eq hentry _).bind_eq fun _ => .pure rfl

theorem relocates_loadSection (s : Section) :
    Relocates before after (fun a b => b = a.moved before.size) (loadSection s)
      (loadSection (s.moved before.size)) :=
  (relocates_bytesAt s.offset s.size).bind fun _ _ h => .pure (by rw [h]; rfl)

theorem described_moved {layout : Layout} (h : layout.frame.Movable d) :
    described (layout.moved d) = (described layout).map (Section.moved d) := by
  have hsymtab : ∀ symtab, symbolSection (layout.frame.moved d) symtab =
      (symbolSection layout.frame symtab).moved d := fun symtab => by
    simp only [symbolSection, Section.moved, h.fileOffset, Frame.moved_width]
  have hindirect : ∀ indirect, indirectSection (layout.frame.moved d) indirect =
      (indirectSection layout.frame indirect).moved d := fun indirect => by
    simp only [indirectSection, Section.moved, h.fileOffset]
  cases hs : layout.symtab? <;> cases hi : layout.indirect? <;>
    simp [described, Layout.moved, hs, hi, hsymtab, hindirect]

/-! ### Assembly -/

theorem find?_kind_moved (sections : Array Section) (kind : SectionKind) :
    (sections.map (Section.moved d)).find? (·.kind = kind) =
      (sections.find? (·.kind = kind)).map (Section.moved d) := by
  rw [Array.find?_map]
  rfl

theorem unresolved_moved (table : SymbolTable) (kind : SymbolTableKind) :
    (table.unresolved kind).map (Diagnostic.moved d) = table.unresolved kind := by
  unfold SymbolTable.unresolved
  rw [Array.map_filterMap]
  congr 1
  funext ⟨s, position⟩
  by_cases hs : s.isResolved <;> simp [hs, Diagnostic.moved]

theorem assemble_moved (stubSize : StubSize) (layout : Layout) (sections : Array Section)
    (symbols dynamicSymbols : SymbolTable) :
    assemble stubSize (layout.moved d) (sections.map (Section.moved d)) symbols dynamicSymbols =
      (assemble stubSize layout sections symbols dynamicSymbols).moved d := by
  have hdata : ((sections.find? (·.kind = .stringTable)).map (Section.moved d)).map Section.data =
      (sections.find? (·.kind = .stringTable)).map Section.data := by
    cases sections.find? (·.kind = .stringTable) <;> rfl
  simp only [assemble, section?, Layout.moved, find?_kind_moved, hdata]
  cases sections.find? (·.kind = .symbolStubs) with
  | none => simp [Slice.moved, unresolved_moved]
  | some stubs =>
      simp only [Option.map_some, Section.moved_address]
      split <;> simp [Slice.moved, unresolved_moved]

/-! ### Decoding -/

/-- The relation between a slice and the same one further on. -/
def MovesTo (d : ℕ) (a b : Slice) : Prop := b = a.moved d ∧ a.InRange

theorem assemble_segments (stubSize : StubSize) (layout : Layout) (sections : Array Section)
    (symbols dynamicSymbols : SymbolTable) :
    (assemble stubSize layout sections symbols dynamicSymbols).segments = layout.segments := by
  unfold assemble
  dsimp only
  split
  · split <;> rfl
  · rfl

theorem relocates_loadSections (sections : Array Section) :
    Relocates before after (fun a b => b = a.map (Section.moved before.size))
      (sections.mapM loadSection)
      ((sections.map (Section.moved before.size)).mapM loadSection) := by
  have hmoved : List.Forall₂ (fun a b => b = Section.moved before.size a) sections.toList
      (sections.map (Section.moved before.size)).toList := by
    rw [Array.toList_map, List.forall₂_map_right_iff, List.forall₂_same]
    exact fun _ _ => rfl
  refine (relocates_mapM (fun a _ h => h ▸ relocates_loadSection a) hmoved).mono fun a b h => ?_
  apply Array.toList_inj.mp
  rw [Array.toList_map]
  exact (List.forall₂_eq_eq_eq ▸ List.forall₂_map_left_iff.mpr (h.imp fun _ _ => Eq.symm)).symm

theorem relocates_readSymbols {layout : Layout} (h : layout.frame.Movable before.size) :
    Relocates before after Eq (readSymbols layout) (readSymbols (layout.moved before.size)) := by
  unfold readSymbols
  dsimp only [Layout.moved]
  cases layout.symtab? with
  | none => exact .pure rfl
  | some symtab => exact relocates_decodeSymbols h symtab

theorem relocates_readIndirect {layout : Layout} (h : layout.frame.Movable before.size) :
    Relocates before after Eq (readIndirect layout) (readIndirect (layout.moved before.size)) := by
  unfold readIndirect
  dsimp only [Layout.moved]
  cases layout.indirect? with
  | none => exact .pure rfl
  | some indirect => exact relocates_decodeIndirect h indirect

theorem relocates_load (stubSize : StubSize) {layout : Layout}
    (h : layout.frame.Movable before.size) (hr : layout.InRange) :
    Relocates before after (MovesTo before.size) (load stubSize layout)
      (load stubSize (layout.moved before.size)) := by
  unfold load
  rw [described_moved h]
  refine (relocates_readSymbols h).bind fun symbols _ hs => ?_
  refine (relocates_readIndirect h).bind fun dynamicSymbols _ hd => ?_
  refine (relocates_loadSections _).bind fun sections _ hl => .pure ?_
  subst hs hd hl
  refine ⟨assemble_moved stubSize layout sections symbols dynamicSymbols, ?_⟩
  rwa [InRange, assemble_segments]

/-- A slice that starts where no section is moved past the largest position is decoded in a
larger file as it is decoded where it stands. -/
theorem relocates_decode (stubSize : StubSize) {base : ℕ}
    (h : before.size = 0 ∨ base + before.size + UInt32.size ≤ UInt64.size) :
    Relocates before after (MovesTo before.size) (decode stubSize base)
      (decode stubSize (base + before.size)) := by
  refine (Layout.relocates_decode h).bind ?_
  rintro layout _ ⟨rfl, hr, hb⟩
  exact relocates_load stubSize (by rwa [Frame.Movable, hb]) hr

/-- Where the cursor stands before makes no difference. -/
theorem decode_apply (stubSize : StubSize) (base : ℕ) (input : Input) (c c' : Cursor) :
    decode stubSize base input c = decode stubSize base input c' :=
  rfl

theorem decode_within (stubSize : StubSize) {input : Input} {c : Cursor} {slice : Slice}
    (h : before.size = 0 ∨ 0 + before.size + UInt32.size ≤ UInt64.size)
    (hslice : (decode stubSize 0).answer input c = .ok slice) (c' : Cursor) :
    ∃ c₁, decode stubSize before.size (before ++ input ++ after) c' =
      .ok (slice.moved before.size) c₁ := by
  obtain ⟨c₀, hrun⟩ := exists_of_answer_ok hslice
  have hmoved := @relocates_decode before after stubSize 0 h input c
  rw [hrun, Nat.zero_add] at hmoved
  obtain ⟨_, hr, rfl, _⟩ := hmoved
  exact ⟨_, hr⟩

/-- The outcome of decoding the same bytes `d` bytes further on. -/
def movedOutcome (d : ℕ) : Except DecodeError Slice → Except DecodeError Slice
  | .ok slice => .ok (slice.moved d)
  | .error e => .error (e.moved d)

/-- **Slices may stand anywhere in a file.**  With any bytes put in front of a file, the
slice at its start is decoded to the same slice further on, or fails with the same error
further on. -/
theorem decode_prepend (stubSize : StubSize) (before input : Input)
    (h : before.size + input.size < 2 ^ 63) (c c' : Cursor) :
    (decode stubSize before.size).answer (before ++ input) c' =
      movedOutcome before.size ((decode stubSize 0).answer input c) := by
  have hfits : before.size = 0 ∨ 0 + before.size + UInt32.size ≤ UInt64.size := by
    simp only [UInt32.size, UInt64.size]
    omega
  have hrun := @relocates_decode before #[] stubSize 0 hfits input c
  rw [Nat.zero_add, Array.append_empty, decode_apply _ _ _ (c.moved before.size) c'] at hrun
  cases hd : decode stubSize 0 input c with
  | ok slice c₁ =>
      rw [hd] at hrun
      obtain ⟨_, hr, rfl, _⟩ := hrun
      rw [answer_of_ok hr, answer_of_ok hd, movedOutcome]
  | error e c₁ =>
      rw [hd] at hrun
      cases e with
      | truncated offset wanted =>
          obtain ⟨_, hr⟩ := hrun rfl
          rw [answer_of_error hr, answer_of_error hd]
          rfl
      | unsupportedMagic magic =>
          obtain ⟨_, hr⟩ := hrun
          rw [answer_of_error hr, answer_of_error hd]
          rfl
      | unreadable reason => exact hrun.elim

/-- Behind three bytes, a header with one odd command keeps its diagnostics, three bytes
further on, and one that is cut off behind its magic number misses bytes there. -/
theorem decode_prepend_three :
    let header : Input := #[0xCE, 0xFA, 0xED, 0xFE, 7, 0, 0, 0, 3, 0, 0, 0, 2, 0, 0, 0, 1, 0, 0, 0,
      8, 0, 0, 0, 0, 0, 0, 0, 0x99, 0, 0, 0, 4, 0, 0, 0]
    3 + header.size < 2 ^ 63 ∧
    ((decode .legacy 3).answer (#[1, 2, 3] ++ header) {}).toOption.map Slice.diagnostics =
      some #[.undersizedCommand 0x99 31 4, .unrecognizedCommand 0x99 31 4] ∧
    (decode .legacy 3).answer (#[1, 2, 3] ++ #[0xCE, 0xFA, 0xED, 0xFE]) {} =
      .error (.truncated 7 4) := by
  refine ⟨by decide, ?_, ?_⟩
  · rw [show (3 : ℕ) = (#[1, 2, 3] : Input).size from rfl,
      decode_prepend .legacy #[1, 2, 3] _ (by decide) {} {}]
    decide +kernel
  · rw [show (3 : ℕ) = (#[1, 2, 3] : Input).size from rfl,
      decode_prepend .legacy #[1, 2, 3] _ (by decide) {} {}]
    rfl

end Slice

end MachImage
