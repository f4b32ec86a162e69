import MachImage.Proofs.Decoder.Failure
import MachImage.Proofs.LoadCommand.Inherited
import MachImage.Proofs.Slice.Relocation
import MachImage.Proofs.Universal.Independence

/-! # Why files cannot be decoded

A slice is refused for one of two reasons (`Slice.holdsOf_of_decode`): bytes are missing, in a
range that the error names, or the four bytes at its start are no magic number of a slice.
Behind the magic number only bytes can be missing, as all that follows moves the cursor and
fetches bytes (`Inherited.load`).

So what the parser says of a file that it does not decode is true of that file
(`Image.parse_failure`): where it says that bytes are missing they are, and a magic number
that it does not know stands at the start of the file, or where an entry of the directory
points.  It never says that the file could not be read. -/

namespace MachImage

open Decoder

variable {input : Input} {base : ℕ} {e : DecodeError} {c c' : Cursor}

/-! ### Loading a layout -/

namespace Decoder.Inherited

variable {P : {α : Type} → Decoder α → Prop} (h : Inherited P)
include h

theorem symbol (width : Width) : P (Slice.decodeSymbol width) :=
  h.bind h.u32 fun _ => h.bind h.u8 fun _ => h.bind h.u8 fun _ => h.bind h.u16 fun _ =>
    h.bind (h.word width) fun _ => h.pure _

theorem readSymbols (layout : Layout) : P (Slice.readSymbols layout) := by
  unfold Slice.readSymbols
  cases layout.symtab? with
  | none => exact h.pure _
  | some symtab =>
      exact h.bind (h.seek _) fun _ => h.bind (h.repeated (h.symbol _) _) fun _ => h.pure _

theorem readIndirect (layout : Layout) : P (Slice.readIndirect layout) := by
  unfold Slice.readIndirect
  cases layout.indirect? with
  | none => exact h.pure _
  | some indirect =>
      exact h.bind (h.seek _) fun _ =>
        h.bind (h.repeated (h.bind h.u32 fun _ => h.pure _) _) fun _ => h.pure _

theorem loadSection (s : Section) : P (Slice.loadSection s) :=
  h.bind (h.bytesAt _ _) fun _ => h.pure _

theorem load (stubSize : StubSize) (layout : Layout) : P (Slice.load stubSize layout) := by
  unfold Slice.load
  exact h.bind (h.readSymbols layout) fun _ => h.bind (h.readIndirect layout) fun _ =>
    h.bind (h.mapM h.loadSection _) fun _ => h.pure _

end Decoder.Inherited

/-! ### Refusals -/

/-- The magic number stands at `base` and is none of a slice. -/
def Slice.HasUnknownMagic (input : Input) (base : ℕ) (magic : UInt32) : Prop :=
  input.u32? .little base = some magic ∧ Frame.ofMagic? magic base = none

theorem Header.holdsOf_of_decode (h : Header.decode base input c = .error e c') :
    e.HoldsOf input (Slice.HasUnknownMagic input base) := by
  unfold Header.decode at h
  rw [bind_of_ok (seek_apply input c base), bind_of_ok (setOrder_apply input _ .little)] at h
  have hf := inherited_failsShort
  obtain hmagic | ⟨magic, c₁, hmagic, h⟩ := bind_eq_error h
  · exact (hf.u32.isShort hmagic).holdsOf
  obtain ⟨hword, rfl⟩ := u32_eq_ok hmagic
  cases hframe : Frame.ofMagic? magic base with
  | none =>
      rw [hframe] at h
      cases h
      exact ⟨hword, hframe⟩
  | some frame =>
      rw [hframe] at h
      dsimp only at h
      rw [bind_of_ok (setOrder_apply input _ frame.order)] at h
      -- With the frame known, what is left of the header is fields alone.
      refine (FailsShort.isShort ?_ h).holdsOf
      refine hf.bind hf.u32 fun _ => hf.bind hf.u32 fun _ => hf.bind hf.u32 fun _ => ?_
      refine hf.bind hf.u32 fun _ => hf.bind hf.u32 fun _ => hf.bind hf.u32 fun _ => ?_
      split
      · exact hf.bind hf.u32 fun _ => hf.pure _
      · exact hf.pure _

theorem Slice.holdsOf_of_decode {stubSize : StubSize}
    (h : (decode stubSize base).answer input c = .error e) :
    e.HoldsOf input (HasUnknownMagic input base) := by
  obtain ⟨c', hrun⟩ := exists_of_answer_error h
  have hf := inherited_failsShort
  obtain hlayout | ⟨layout, c₁, _, hload⟩ := bind_eq_error hrun
  · obtain hheader | ⟨⟨frame, header⟩, c₂, _, hcommands⟩ := bind_eq_error hlayout
    · exact Header.holdsOf_of_decode hheader
    · have hloop : FailsShort (do
          let commands ← repeated header.commandCount.toNat (LoadCommand.decode frame)
          return commands.foldl Layout.record { frame, header }) :=
        hf.bind (hf.repeated (hf.loadCommand frame) _) fun _ => hf.pure _
      exact (hloop.isShort hcommands).holdsOf
  · exact ((hf.load stubSize layout).isShort hload).holdsOf

/-! ### Magic numbers -/

theorem Frame.ofMagic?_eq_none {magic : UInt32} {base : ℕ}
    (h : Frame.ofMagic? magic base = none) : Frame.ofMagic? magic 0 = none := by
  have hmoved := @Frame.ofMagic?_moved base magic 0
  rw [Nat.zero_add, h] at hmoved
  exact Option.map_eq_none_iff.mp hmoved.symm

/-- The numbers that a slice may start with. -/
theorem Frame.isSome_ofMagic?_iff {magic : UInt32} {base : ℕ} :
    (Frame.ofMagic? magic base).isSome ↔
      magic ∈ [0xFEEDFACE, 0xFEEDFACF, 0xECAFDEEF, 0xFCAFDEEF] := by
  fun_cases Frame.ofMagic? magic base with
  | case1 h => simp [h]
  | case2 _ h => simp [h]
  | case3 _ _ h => simp [h]
  | case4 _ _ _ h => simp [h]
  | case5 h32 h64 h32' h64' => simp [h32, h64, h32', h64']

/-- The numbers that a file may start with. -/
theorem isMagic_iff {magic : UInt32} :
    isMagic magic ↔ magic ∈
      [0xFEEDFACE, 0xFEEDFACF, 0xECAFDEEF, 0xFCAFDEEF, 0xCAFEBABE, 0xBEBAFECA] := by
  rw [isMagic, Bool.or_eq_true, Frame.isSome_ofMagic?_iff, isUniversalMagic, Bool.or_eq_true,
    decide_eq_true_eq, decide_eq_true_eq]
  simp only [List.mem_cons, List.not_mem_nil, or_false, or_assoc]

namespace Image

variable {stubSize : StubSize}

/-- The magic number stands at the start of the file and is none of the known ones; or the file
is universal, and it stands where an entry of the directory points and is none of a slice,
while the slices of all entries in front of that one are decoded. -/
def HasUnknownMagic (stubSize : StubSize) (input : Input) (magic : UInt32) : Prop :=
  (input.u32? .little 0 = some magic ∧ isMagic magic = false) ∨
    ∃ first entries earlier entry later,
      input.u32? .little 0 = some first ∧ isUniversalMagic first ∧
      directory input = .ok entries ∧ entries.toList = earlier ++ entry :: later ∧
      (∀ x ∈ earlier, ∃ slice, sliceOf stubSize input x = .ok slice) ∧
      input.u32? .little entry.offset.toNat = some magic ∧ Frame.ofMagic? magic 0 = none

theorem isShort_of_directory (h : directory input = .error e) : e.IsShort input := by
  obtain ⟨c', hrun⟩ := exists_of_answer_error h
  unfold decodeDirectory at hrun
  rw [bind_of_ok (setOrder_apply input _ .big)] at hrun
  have hf := inherited_failsShort
  have hentry : FailsShort DirectoryEntry.decode :=
    hf.bind hf.u32 fun _ => hf.bind hf.u32 fun _ => hf.bind hf.u32 fun _ =>
      hf.bind hf.u32 fun _ => hf.bind hf.u32 fun _ => hf.pure _
  exact (hf.bind hf.u32 fun count => hf.repeated hentry count.toNat).isShort hrun

/-- An entry whose slice is refused for its magic number points at that number. -/
theorem holdsOf_of_firstFails {first : UInt32} {entries : Array DirectoryEntry}
    (hfirst : input.u32? .little 0 = some first) (huniversal : isUniversalMagic first)
    (hentries : directory input = .ok entries)
    (h : FirstFails (sliceOf stubSize input) entries.toList e) :
    e.HoldsOf input (HasUnknownMagic stubSize input) := by
  obtain ⟨earlier, entry, later, hsplit, hearlier, he⟩ := h
  refine (Slice.holdsOf_of_decode he).mono ?_
  rintro magic ⟨hword, hnone⟩
  exact .inr ⟨first, entries, earlier, entry, later, hfirst, huniversal, hentries, hsplit,
    hearlier, hword, Frame.ofMagic?_eq_none hnone⟩

/-- A file that starts with the magic number of a slice is not refused for it. -/
theorem holdsOf_of_decode_zero {first : UInt32} {c : Cursor}
    (hfirst : input.u32? .little 0 = some first) (hmagic : isMagic first)
    (huniversal : ¬ isUniversalMagic first)
    (h : (Slice.decode stubSize 0).answer input c = .error e) :
    e.HoldsOf input (HasUnknownMagic stubSize input) := by
  refine (Slice.holdsOf_of_decode h).mono ?_
  rintro magic ⟨hword, hnone⟩
  -- The slice is at the start of the file, so both magic numbers are the same word.
  obtain rfl : first = magic := Option.some.inj (hfirst.symm.trans hword)
  simp [isMagic, hnone, huniversal] at hmagic

theorem holdsOf_of_parse {c : Cursor} (h : (parse stubSize).answer input c = .error e) :
    e.HoldsOf input (HasUnknownMagic stubSize input) := by
  rw [answer_parse] at h
  cases hfirst : input.u32? .little 0 with
  | none =>
      rw [hfirst] at h
      cases h
      exact Input.u32?_eq_none.mp hfirst
  | some first =>
      rw [hfirst] at h
      dsimp only at h
      split at h
      next huniversal =>
        cases hdirectory : directory input with
        | error e' =>
            rw [hdirectory] at h
            cases h
            exact (isShort_of_directory hdirectory).holdsOf
        | ok entries =>
            rw [hdirectory] at h
            exact holdsOf_of_firstFails hfirst huniversal hdirectory
              (arrayMapM_eq_error_iff.mp h)
      next huniversal =>
        split at h
        next hmagic =>
          cases hdecode : (Slice.decode stubSize 0).answer input {} with
          | error e' =>
              rw [hdecode] at h
              cases h
              exact holdsOf_of_decode_zero hfirst hmagic huniversal hdecode
          | ok slice =>
              rw [hdecode] at h
              cases h
        next hmagic =>
          cases h
          exact .inl ⟨hfirst, Bool.eq_false_iff.mpr hmagic⟩

/-- **A file is refused for a reason that holds of it.**  The parser gives slices; or it names
a range of bytes that reaches past the end of the file; or it names a magic number that
stands at the start of the file and is none of the known ones, or that stands where an entry
of the directory of a universal file points and is none of a slice, while the slices of all
entries in front of that one are decoded. -/
theorem parse_failure (stubSize : StubSize) (input : Input) (c : Cursor) :
    match (parse stubSize).answer input c with
    | .ok _ => True
    | .error (.truncated offset wanted) => input.size < offset + wanted
    | .error (.unsupportedMagic magic) => HasUnknownMagic stubSize input magic
    | .error (.unreadable _) => False := by
  split
  next => trivial
  next offset wanted h => exact holdsOf_of_parse h
  next magic h => exact holdsOf_of_parse h
  next reason h => exact holdsOf_of_parse h

/-- A program of another system, and a universal file of which the second entry points back at
the directory.  Its number is that of a universal file, but none of a slice. -/
theorem parse_failure_entry :
    let foreign : Input := #[0x7F, 0x45, 0x4C, 0x46, 2, 1, 1, 0]
    let entry (offset : UInt8) : List UInt8 :=
      [0, 0, 0, 7, 0, 0, 0, 3, 0, 0, 0, offset, 0, 0, 0, 0, 0, 0, 0, 0]
    let slice : List UInt8 := [0xCE, 0xFA, 0xED, 0xFE, 7, 0, 0, 0, 3, 0, 0, 0, 2, 0, 0, 0, 0, 0, 0,
      0, 0, 0, 0, 0, 0, 0, 0, 0]
    let universal : Input :=
      ([0xCA, 0xFE, 0xBA, 0xBE, 0, 0, 0, 2] ++ entry 48 ++ entry 0 ++ slice).toArray
    (parse .legacy).answer foreign {} = .error (.unsupportedMagic 0x464C457F) ∧
      HasUnknownMagic .legacy foreign 0x464C457F ∧ ¬ isMagic 0x464C457F ∧
      (parse .legacy).answer universal {} = .error (.unsupportedMagic 0xBEBAFECA) ∧
      HasUnknownMagic .legacy universal 0xBEBAFECA ∧ isMagic 0xBEBAFECA := by
  intro foreign entry slice universal
  have hreason {input : Input} {magic : UInt32}
      (h : (parse .legacy).answer input {} = .error (.unsupportedMagic magic)) :
      HasUnknownMagic .legacy input magic := by
    have hfailure := parse_failure .legacy input {}
    rwa [h] at hfailure
  have hforeign : (parse .legacy).answer foreign {} = .error (.unsupportedMagic 0x464C457F) := by
    decide
  have huniversal :
      (parse .legacy).answer universal {} = .error (.unsupportedMagic 0xBEBAFECA) := by
    decide +kernel
  exact ⟨hforeign, hreason hforeign, by decide, huniversal, hreason huniversal, by decide⟩

end Image

end MachImage
