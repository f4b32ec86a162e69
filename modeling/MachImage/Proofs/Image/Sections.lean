import MachImage.Image
import MachImage.Proofs.Slice.Raw

/-! # Sections of decoded files

Every section that a decoded slice has is there in full (`Image.parse_sections`): it starts
in its slice, ends in the file and holds just the bytes in between.  All five places that
describe a section take its start from the frame of the slice (`Slice.Raw.offset_of_mem_described`),
and a section that reaches past the end of the file fails the whole file. -/

namespace MachImage

open Decoder

/-! ### Where sections start -/

/-- A position in a slice is not in front of it, as long as the slice starts at one of 64
bits. -/
theorem Frame.base_le_fileOffset (frame : Frame) (h : frame.base ≤ maxPosition) (relative : ℕ) :
    frame.base ≤ frame.fileOffset relative := by
  unfold Frame.fileOffset addPositions
  omega

theorem LoadCommand.offset_of_mem_keptSections {frame : Frame} {command : LoadCommand}
    {s : Section} (h : s ∈ command.keptSections frame) :
    ∃ relative, s.offset = frame.fileOffset relative := by
  cases command with
  | segment command =>
      obtain ⟨header, _, hsection⟩ := List.mem_filterMap.mp h
      obtain ⟨rule, _, rfl⟩ := Option.map_eq_some_iff.mp hsection
      exact ⟨_, rfl⟩
  | symtab table =>
      obtain rfl := List.mem_singleton.mp h
      exact ⟨_, rfl⟩
  | linkEdit kind offset size =>
      cases kind with
      | functionStarts =>
          obtain rfl := List.mem_singleton.mp h
          exact ⟨_, rfl⟩
      | codeSignature =>
          obtain rfl := List.mem_singleton.mp h
          exact ⟨_, rfl⟩
      | _ => cases h
  | _ => cases h

namespace Slice

/-- Sections are described by load commands, or are one of the two symbol tables; all of
them start at a position of the slice. -/
theorem Raw.offset_of_mem_described {raw : Raw} {s : Section} (h : s ∈ described raw.layout) :
    ∃ relative, s.offset = raw.frame.fileOffset relative := by
  simp only [described, Array.mem_append, Option.mem_toArray, Option.map_eq_some_iff,
    layout_frame, layout_sections, List.mem_toArray, List.mem_flatMap] at h
  obtain (⟨command, _, hs⟩ | ⟨symtab, _, rfl⟩) | ⟨indirect, _, rfl⟩ := h
  · exact LoadCommand.offset_of_mem_keptSections hs
  · exact ⟨_, rfl⟩
  · exact ⟨_, rfl⟩

/-- The sections of a slice that starts at a position of 64 bits are in it and in the file,
and hold their bytes. -/
theorem sections_of_decode {stubSize : StubSize} {base : ℕ} {input : Input} {c : Cursor}
    {slice : Slice} (hbase : base ≤ maxPosition)
    (h : (decode stubSize base).answer input c = .ok slice) :
    ∀ s ∈ slice.sections, slice.frame.base ≤ s.offset ∧ s.offset + s.size ≤ input.size ∧
      s.data = input.extract s.offset (s.offset + s.size) := by
  obtain ⟨raw, hraw, rfl⟩ := exists_raw h
  obtain ⟨hfile, rfl⟩ := Raw.ofFile_of_decode hraw
  intro s hs
  rw [Raw.resolved_sections, hfile.sections_eq] at hs
  rw [Raw.resolved_frame]
  obtain ⟨s', hs', rfl⟩ := Array.mem_map.mp hs
  obtain ⟨relative, hoffset⟩ := Raw.offset_of_mem_described hs'
  refine ⟨?_, hfile.inside s' hs', rfl⟩
  rw [Section.loaded, hoffset]
  exact raw.frame.base_le_fileOffset hbase relative

end Slice

namespace Image

/-- Every slice of a file is decoded where some entry of the directory says, or at the start. -/
theorem exists_decode_of_parse {stubSize : StubSize} {input : Input} {c : Cursor}
    {slices : Array Slice} (h : (parse stubSize).answer input c = .ok slices) :
    ∀ slice ∈ slices, ∃ base c', base ≤ maxPosition ∧
      (Slice.decode stubSize base).answer input c' = .ok slice := by
  obtain ⟨c', hrun⟩ := exists_of_answer_ok h
  unfold parse at hrun
  obtain ⟨magic, c₁, hmagic, hrun⟩ := bind_eq_ok.mp hrun
  split at hrun
  · obtain ⟨directory, c₂, hdirectory, hrun⟩ := bind_eq_ok.mp hrun
    intro slice hslice
    obtain ⟨entry, _, c₃, c₄, hentry⟩ := exists_of_mem_mapM hrun hslice
    have hoffset := entry.offset.toNat_lt
    refine ⟨entry.offset.toNat, c₃, ?_, answer_of_ok hentry⟩
    simp only [maxPosition, UInt64.size]
    omega
  · split at hrun
    · obtain ⟨slice, c₂, hslice, hrun⟩ := bind_eq_ok.mp hrun
      obtain ⟨rfl, rfl⟩ := pure_eq_ok hrun
      intro slice' hslice'
      obtain rfl := Array.mem_singleton.mp hslice'
      exact ⟨0, c₁, Nat.zero_le _, answer_of_ok hslice⟩
    · cases hrun

/-- **Sections are loaded in full.**  Every section of every slice of a file starts in its
slice and ends in the file, and its data are the bytes of the file in between, as many as the
section has. -/
theorem parse_sections {stubSize : StubSize} {input : Input} {c : Cursor} {slices : Array Slice}
    (h : (parse stubSize).answer input c = .ok slices) :
    ∀ slice ∈ slices, ∀ s ∈ slice.sections,
      slice.frame.base ≤ s.offset ∧ s.offset + s.size ≤ input.size ∧
      s.data = input.extract s.offset (s.offset + s.size) ∧ s.data.size = s.size ∧
      s.isLoaded := by
  intro slice hslice s hs
  obtain ⟨base, c', hbase, hdecode⟩ := exists_decode_of_parse h slice hslice
  obtain ⟨hstart, hstop, hdata⟩ := Slice.sections_of_decode hbase hdecode s hs
  have hsize : s.data.size = s.size := by
    rw [hdata, Array.size_extract]
    omega
  refine ⟨hstart, hstop, hdata, hsize, ?_⟩
  by_cases hempty : s.size = 0
  · simp [Section.isLoaded, hempty]
  · have hdata' : s.data ≠ #[] := fun hnil => hempty (by rw [← hsize, hnil]; rfl)
    simp [Section.isLoaded, hdata']

/-- A slice in a universal file with one symbol, its name behind it, a hole of no bytes at
the end of the file for function starts. -/
theorem parse_sections_universal :
    let file : Input := #[0xCA, 0xFE, 0xBA, 0xBE, 0, 0, 0, 1, 0, 0, 0, 7, 0, 0, 0, 3, 0, 0, 0, 28,
      0, 0, 0, 0, 0, 0, 0, 0,
      0xCE, 0xFA, 0xED, 0xFE, 7, 0, 0, 0, 3, 0, 0, 0, 2, 0, 0, 0, 2, 0, 0, 0, 40, 0, 0, 0, 0, 0, 0,
      0, 2, 0, 0, 0, 24, 0, 0, 0, 68, 0, 0, 0, 1, 0, 0, 0, 80, 0, 0, 0, 2, 0, 0, 0,
      0x26, 0, 0, 0, 16, 0, 0, 0, 82, 0, 0, 0, 0, 0, 0, 0,
      0, 0, 0, 0, 15, 1, 0, 0, 0, 16, 0, 0, 0x61, 0]
    ∃ slices, (parse .legacy).answer file {} = .ok slices ∧
      slices.map (fun slice => slice.sections.map fun s => (s.offset, s.data)) =
        #[#[(108, #[0x61, 0]), (110, #[]),
          (96, #[0, 0, 0, 0, 15, 1, 0, 0, 0, 16, 0, 0])]] ∧
      ∀ slice ∈ slices, ∀ s ∈ slice.sections,
        slice.frame.base ≤ s.offset ∧ s.offset + s.size ≤ file.size ∧
        s.data = file.extract s.offset (s.offset + s.size) ∧ s.data.size = s.size ∧
        s.isLoaded := by
  intro file
  have hsections : ((parse .legacy).answer file {}).toOption.map
      (fun slices => slices.map fun slice => slice.sections.map fun s => (s.offset, s.data)) =
        some #[#[(108, #[0x61, 0]), (110, #[]),
          (96, #[0, 0, 0, 0, 15, 1, 0, 0, 0, 16, 0, 0])]] := by
    decide +kernel
  obtain ⟨slices, h, hsections⟩ := exists_of_toOption_map hsections
  exact ⟨slices, h, hsections, parse_sections h⟩

end Image

end MachImage
