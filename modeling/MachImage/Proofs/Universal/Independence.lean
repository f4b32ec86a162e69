import MachImage.Image
import MachImage.Proofs.Decoder.Failure
import MachImage.Proofs.Slice.Relocation

/-! # Slices of a universal file do not hang on one another

All slices of a file are read with one cursor, which each of them leaves where it came to a
stop, in its own byte order.  As a slice goes to its start and sets its byte order by itself,
the slices are what they are when each is read by itself from a fresh cursor
(`Image.answer_parse`).  So a universal file is decoded when its directory and all its slices
are, to these slices in the order of the directory, and fails else with the first error among
them (`Image.parse_universal`). -/

namespace MachImage.Image

open Decoder

/-- The directory behind the magic number of a universal file. -/
def directory (input : Input) : Except DecodeError (Array DirectoryEntry) :=
  decodeDirectory.answer input { position := 4 }

/-- The slice that an entry of the directory stands for, read by itself. -/
def sliceOf (stubSize : StubSize) (input : Input) (entry : DirectoryEntry) :
    Except DecodeError Slice :=
  (Slice.decode stubSize entry.offset.toNat).answer input {}

variable (stubSize : StubSize) (input : Input) (c : Cursor)

theorem decodeMagic_apply :
    decodeMagic input c = match input.u32? .little 0 with
      | some magic => .ok magic { position := 4 }
      | none => .error (.truncated 0 4) { position := input.size } := by
  unfold decodeMagic
  rw [bind_of_ok (seek_apply input c 0), bind_of_ok (setOrder_apply input _ .little)]
  exact u32_apply input _

/-- What is decoded of a file, with every slice read by itself. -/
theorem answer_parse :
    (parse stubSize).answer input c = match input.u32? .little 0 with
      | none => .error (.truncated 0 4)
      | some magic =>
        if isUniversalMagic magic then directory input >>= Array.mapM (sliceOf stubSize input)
        else if isMagic magic then ((Slice.decode stubSize 0).answer input {}).map (#[·])
        else .error (.unsupportedMagic magic) := by
  have hmagic := decodeMagic_apply input c
  unfold parse
  cases hword : input.u32? .little 0 with
  | none =>
      rw [hword] at hmagic
      exact answer_of_error (bind_of_error hmagic _)
  | some magic =>
      rw [hword] at hmagic
      rw [answer_bind_of_ok hmagic]
      dsimp only
      split
      · cases hdirectory : directory input with
        | error e => exact answer_bind_of_error hdirectory _
        | ok entries =>
            obtain ⟨c', hrun⟩ := exists_of_answer_ok hdirectory
            rw [answer_bind_of_ok hrun]
            exact answer_mapM (fun _ _ => rfl) entries c'
      · split
        · exact answer_bind_pure _ _
        · rfl

variable {stubSize input}

/-- The slices of a universal file are those of its entries, each read by itself. -/
theorem answer_parse_universal {magic : UInt32} (hmagic : input.u32? .little 0 = some magic)
    (huniversal : isUniversalMagic magic) :
    (parse stubSize).answer input c =
      directory input >>= Array.mapM (sliceOf stubSize input) := by
  rw [answer_parse, hmagic]
  exact if_pos huniversal

/-- **A universal file is decoded entry by entry, all or nothing.**  A directory that cannot
be read fails the file.  Else the file is decoded exactly when the slice of every entry is
when read by itself, and then to these slices, one for each entry in the order of the
directory; or it fails with the error of the first entry whose slice cannot be decoded. -/
theorem parse_universal {magic : UInt32} (hmagic : input.u32? .little 0 = some magic)
    (huniversal : isUniversalMagic magic) (c : Cursor) :
    (∀ e, directory input = .error e → (parse stubSize).answer input c = .error e) ∧
    ∀ entries, directory input = .ok entries →
      ((∃ slices, (parse stubSize).answer input c = .ok slices) ↔
        ∀ entry ∈ entries, ∃ slice, sliceOf stubSize input entry = .ok slice) ∧
      (∀ slices, (parse stubSize).answer input c = .ok slices ↔
        List.Forall₂ (fun entry slice => sliceOf stubSize input entry = .ok slice)
          entries.toList slices.toList) ∧
      (∀ e, (parse stubSize).answer input c = .error e ↔
        FirstFails (sliceOf stubSize input) entries.toList e) := by
  have hparse := @answer_parse_universal stubSize input c magic hmagic huniversal
  constructor
  · intro e he
    rw [hparse, he]
    rfl
  · intro entries hentries
    have hloop : (parse stubSize).answer input c = entries.mapM (sliceOf stubSize input) := by
      rw [hparse, hentries]
      rfl
    rw [hloop]
    exact ⟨exists_arrayMapM_eq_ok_iff, fun _ => arrayMapM_eq_ok_iff,
      fun _ => arrayMapM_eq_error_iff⟩

/-- Two entries may name the same slice, which is then there twice.  With a third entry that
points at the directory itself, the magic number there is the error of the whole file. -/
theorem parse_universal_repeated :
    let entry (offset : UInt8) : List UInt8 :=
      [0, 0, 0, 7, 0, 0, 0, 3, 0, 0, 0, offset, 0, 0, 0, 0, 0, 0, 0, 0]
    let start (count : UInt8) : List UInt8 := [0xCA, 0xFE, 0xBA, 0xBE, 0, 0, 0, count]
    let image : List UInt8 := [0xCE, 0xFA, 0xED, 0xFE, 7, 0, 0, 0, 3, 0, 0, 0, 2, 0, 0, 0, 0, 0, 0,
      0, 0, 0, 0, 0, 0, 0, 0, 0]
    let twice : Input := (start 2 ++ entry 48 ++ entry 48 ++ image).toArray
    let broken : Input := (start 3 ++ entry 68 ++ entry 68 ++ entry 0 ++ image).toArray
    let slice (base : ℕ) : Slice :=
      { frame := { width := .bits32, order := .little, base }
        cpuType := .x86, cpuSubtype := .i386, fileType := .execute, flags := 0
        sections := #[], segments := #[], symbols := {}, dynamicSymbols := {}, loadInfo := {}
        diagnostics := #[] }
    twice.u32? .little 0 = some 0xBEBAFECA ∧ broken.u32? .little 0 = some 0xBEBAFECA ∧
      isUniversalMagic 0xBEBAFECA ∧
      (parse .legacy).answer twice {} = .ok #[slice 48, slice 48] ∧
      (parse .legacy).answer broken {} = .error (.unsupportedMagic 0xBEBAFECA) := by
  intro entry start image twice broken slice
  have htwice : twice.u32? .little 0 = some 0xBEBAFECA := by decide
  have hbroken : broken.u32? .little 0 = some 0xBEBAFECA := by decide
  have huniversal : isUniversalMagic 0xBEBAFECA := by decide
  refine ⟨htwice, hbroken, huniversal, ?_, ?_⟩
  · have hentries : directory twice = .ok #[⟨48, 0, 0⟩, ⟨48, 0, 0⟩] := by decide
    have hslice : sliceOf .legacy twice ⟨48, 0, 0⟩ = .ok (slice 48) := by decide +kernel
    exact (((parse_universal htwice huniversal {}).2 _ hentries).2.1 _).mpr
      (.cons hslice (.cons hslice .nil))
  · have hentries : directory broken = .ok #[⟨68, 0, 0⟩, ⟨68, 0, 0⟩, ⟨0, 0, 0⟩] := by
      decide +kernel
    have hslice : sliceOf .legacy broken ⟨68, 0, 0⟩ = .ok (slice 68) := by decide +kernel
    have hself : sliceOf .legacy broken ⟨0, 0, 0⟩ = .error (.unsupportedMagic 0xBEBAFECA) := by
      decide
    refine (((parse_universal hbroken huniversal {}).2 _ hentries).2.2 _).mpr ?_
    exact ⟨[⟨68, 0, 0⟩, ⟨68, 0, 0⟩], ⟨0, 0, 0⟩, [], rfl, by simp [hslice], hself⟩

end MachImage.Image
