import MachImage.Image
import MachImage.Proofs.Slice.Relocation

/-! # Files that are cut off

What is decoded of a file stays when more bytes are put behind it: no decoder looks at how
long its input is, only at whether the bytes it wants are there (`Image.relocates_parse`).
So a file that is cut off gives the slices of the whole file or is found too short, and
never anything else (`Image.parse_append`). -/

namespace MachImage.Image

open Decoder

variable {after : Input}

theorem relocates_decodeMagic : Relocates #[] after Eq decodeMagic decodeMagic :=
  (relocates_seek 0).bind fun _ _ _ => (relocates_setOrder _).bind_eq fun _ => relocates_u32

theorem relocates_decodeDirectory {before : Input} :
    Relocates before after Eq decodeDirectory decodeDirectory := by
  have hentry : Relocates before after Eq DirectoryEntry.decode DirectoryEntry.decode :=
    relocates_u32.bind_eq fun _ => relocates_u32.bind_eq fun _ => relocates_u32.bind_eq fun _ =>
      relocates_u32.bind_eq fun _ => relocates_u32.bind_eq fun _ => .pure rfl
  exact (relocates_setOrder _).bind_eq fun _ => relocates_u32.bind_eq fun _ =>
    relocates_repeated_eq hentry _

theorem relocates_decodeSlice (stubSize : StubSize) (base : ℕ) :
    Relocates #[] after Eq (Slice.decode stubSize base) (Slice.decode stubSize base) := by
  refine (Slice.relocates_decode stubSize (.inl rfl)).mono fun a b h => ?_
  obtain ⟨rfl, hr⟩ := h
  exact (Slice.moved_zero hr).symm

theorem relocates_parse (stubSize : StubSize) :
    Relocates #[] after Eq (parse stubSize) (parse stubSize) := by
  unfold parse
  refine relocates_decodeMagic.bind_eq fun magic => ?_
  split
  · exact relocates_decodeDirectory.bind_eq fun directory =>
      relocates_mapM_eq (fun entry => relocates_decodeSlice stubSize _) directory
  · split
    · exact (relocates_decodeSlice stubSize 0).bind_eq fun _ => .pure rfl
    · exact relocates_unsupportedMagic magic

theorem answer_parse_append (stubSize : StubSize) (input after : Input) (c : Cursor) :
    match (parse stubSize).answer input c with
    | .error (.truncated ..) => True
    | answer => (parse stubSize).answer (input ++ after) c = answer := by
  have hrun := @relocates_parse after stubSize input c
  rw [Array.empty_append] at hrun
  cases hp : parse stubSize input c with
  | ok slices c' =>
      rw [hp] at hrun
      obtain ⟨_, hr, rfl⟩ := hrun
      rw [answer_of_ok hp]
      exact answer_of_ok hr
  | error e c' =>
      rw [hp] at hrun
      rw [answer_of_error hp]
      cases e with
      | truncated offset wanted => trivial
      | unsupportedMagic magic =>
          obtain ⟨_, hr⟩ := hrun
          exact answer_of_error hr
      | unreadable reason => exact hrun.elim

/-- **What is decoded never hangs on what stands behind it.**  More bytes behind a file
change neither its slices nor the verdict that it starts with no magic number.  So a file
that is cut off gives the slices of the whole file, or ends too early. -/
theorem parse_append (stubSize : StubSize) (input after : Input) (c : Cursor) :
    (∀ slices, (parse stubSize).answer input c = .ok slices →
      (parse stubSize).answer (input ++ after) c = .ok slices) ∧
    (∀ magic, (parse stubSize).answer input c = .error (.unsupportedMagic magic) →
      (parse stubSize).answer (input ++ after) c = .error (.unsupportedMagic magic)) ∧
    (∀ slices, (parse stubSize).answer (input ++ after) c = .ok slices →
      (parse stubSize).answer input c = .ok slices ∨
        ∃ offset wanted, (parse stubSize).answer input c = .error (.truncated offset wanted)) := by
  have h := answer_parse_append stubSize input after c
  refine ⟨fun slices hok => ?_, fun magic herror => ?_, fun slices hok => ?_⟩
  · rwa [hok] at h
  · rwa [herror] at h
  · split at h
    · next offset wanted htruncated => exact .inr ⟨offset, wanted, htruncated⟩
    · exact .inl (h.symm.trans hok)

/-- A bare header is a whole file, with a byte behind it too, and is too short without its
last byte; four bytes that are no magic number are none with more behind them. -/
theorem parse_append_header :
    let start : Input := #[0xCE, 0xFA, 0xED, 0xFE, 7, 0, 0, 0, 3, 0, 0, 0, 2, 0, 0, 0, 0, 0, 0, 0,
      0, 0, 0, 0, 0, 0, 0]
    let slice : Slice :=
      { frame := { width := .bits32, order := .little, base := 0 }
        cpuType := .x86, cpuSubtype := .i386, fileType := .execute, flags := 0
        sections := #[], segments := #[], symbols := {}, dynamicSymbols := {}, loadInfo := {}
        diagnostics := #[] }
    (parse .legacy).answer (start ++ #[0] ++ #[9]) {} = .ok #[slice] ∧
    (parse .legacy).answer (#[1, 2, 3, 4] ++ #[5]) {} = .error (.unsupportedMagic 0x04030201) ∧
    ∃ offset wanted, (parse .legacy).answer start {} = .error (.truncated offset wanted) := by
  intro start slice
  have hwhole : (parse .legacy).answer (start ++ #[0]) {} = .ok #[slice] := by decide +kernel
  refine ⟨?_, ?_, ?_⟩
  · exact (parse_append .legacy (start ++ #[0]) #[9] {}).1 _ hwhole
  · exact (parse_append .legacy #[1, 2, 3, 4] #[5] {}).2.1 _ (by decide)
  · have hshort : (parse .legacy).answer start {} ≠ .ok #[slice] := by decide +kernel
    exact ((parse_append .legacy start #[0] {}).2.2 _ hwhole).resolve_left hshort

end MachImage.Image
