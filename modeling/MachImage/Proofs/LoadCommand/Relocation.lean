import MachImage.LoadCommand
import MachImage.Proofs.Decoder.Relocation
import MachImage.Proofs.Layout.Moved

/-! # Load commands of a slice a distance further on

Every decoder of a load command follows its own run in a larger file.  Most fields are read
from the cursor on; the text of a command is looked up from the start of the command, which
moves with the cursor.  So a command is the same wherever it stands in its slice
(`LoadCommand.relocates_decode_inPlace`).  Where the slice moves, too, the file position of a
segment moves along, and nothing else (`LoadCommand.relocates_decode`). -/

namespace MachImage

open Decoder

variable {before after : Input}

/-! ### Fields from the cursor on -/

theorem SectionHeader.relocates_decode (width : Width) :
    Relocates before after Eq (SectionHeader.decode width) (SectionHeader.decode width) := by
  unfold SectionHeader.decode
  refine relocates_name16.bind_eq fun _ => relocates_name16.bind_eq fun _ => ?_
  refine (relocates_word width).bind_eq fun _ => (relocates_word width).bind_eq fun _ => ?_
  refine relocates_u32.bind_eq fun _ => relocates_u32.bind_eq fun _ => ?_
  refine relocates_u32.bind_eq fun _ => relocates_u32.bind_eq fun _ => ?_
  refine relocates_u32.bind_eq fun _ => relocates_u32.bind_eq fun _ => ?_
  refine relocates_u32.bind_eq fun _ => ?_
  dsimp only
  split
  · exact relocates_u32.bind_eq fun _ => .pure rfl
  · exact .pure rfl

theorem Symtab.relocates_decode : Relocates before after Eq Symtab.decode Symtab.decode :=
  relocates_u32.bind_eq fun _ => relocates_u32.bind_eq fun _ =>
    relocates_u32.bind_eq fun _ => relocates_u32.bind_eq fun _ => .pure rfl

theorem IndirectSymbols.relocates_decode :
    Relocates before after Eq IndirectSymbols.decode IndirectSymbols.decode :=
  (relocates_repeated_eq relocates_u32 12).bind_eq fun _ => relocates_u32.bind_eq fun _ =>
    relocates_u32.bind_eq fun _ => (relocates_repeated_eq relocates_u32 4).bind_eq fun _ =>
      .pure rfl

theorem MinimumVersion.relocates_decode (platform : String) :
    Relocates before after Eq (MinimumVersion.decode platform) (MinimumVersion.decode platform) :=
  relocates_u32.bind_eq fun _ => relocates_u32.bind_eq fun _ => .pure rfl

theorem MinimumVersion.relocates_decodeBuild :
    Relocates before after Eq MinimumVersion.decodeBuild MinimumVersion.decodeBuild :=
  relocates_u32.bind_eq fun _ => (MinimumVersion.relocates_decode _).bind_eq fun _ =>
    relocates_u32.bind_eq fun _ => .pure rfl

theorem EntryPoint.relocates_decode :
    Relocates before after Eq EntryPoint.decode EntryPoint.decode :=
  relocates_u64.bind_eq fun _ => relocates_u64.bind_eq fun _ => .pure rfl

theorem relocates_skipDataInCode :
    Relocates before after Eq skipDataInCode skipDataInCode :=
  relocates_u32.bind_eq fun _ => relocates_u16.bind_eq fun _ =>
    relocates_u16.bind_eq fun _ => .pure rfl

/-! ### Segments -/

theorem SegmentCommand.relocates_decode (frame : Frame) :
    Relocates before after (fun a b => b = a ∧ a.segment.InRange)
      (SegmentCommand.decode frame) (SegmentCommand.decode frame) := by
  unfold SegmentCommand.decode
  refine relocates_name16.bind_eq fun _ => ?_
  refine (relocates_word _).bind_eq fun _ => (relocates_word _).bind_eq fun _ => ?_
  refine (relocates_word _).bind_eq fun fileOffset => (relocates_word _).bind_eq fun _ => ?_
  refine relocates_u32.bind_eq fun _ => relocates_u32.bind_eq fun _ => ?_
  refine relocates_u32.bind_eq fun count => relocates_u32.bind_eq fun _ => ?_
  have hsections : Relocates before after Eq _ _ :=
    relocates_repeated_eq (SectionHeader.relocates_decode frame.width) count.toNat
  exact hsections.bind_eq fun _ => .pure ⟨rfl, addPositions_le _ _⟩

/-- The frame tells nothing of a segment but its position in the file. -/
theorem SegmentCommand.decode_moved (d : ℕ) (frame : Frame) :
    decode (frame.moved d) =
      (fun command => { command with segment := command.segment.moved d }) <$> decode frame := by
  unfold decode
  simp only [map_bind, map_pure, Frame.moved_width, frame.fileOffset_moved, Segment.moved]

/-! ### Commands with a header -/

theorem CommandHeader.relocates_decode :
    Relocates before after (fun a b => b = a.moved before.size)
      CommandHeader.decode CommandHeader.decode :=
  relocates_position.bind fun _ _ h => relocates_u32.bind_eq fun _ =>
    relocates_u32.bind_eq fun _ => .pure (by rw [h]; rfl)

/-- The start of the text moves with its command, and its length stays. -/
theorem CommandHeader.relocates_decodeText (header : CommandHeader) (start : UInt32) :
    Relocates before after Eq (header.decodeText start)
      ((header.moved before.size).decodeText start) := by
  unfold CommandHeader.decodeText
  have hlength : (header.moved before.size).remainingFrom start.toNat =
      header.remainingFrom start.toNat := rfl
  have hstart : (header.moved before.size).offset + start.toNat =
      header.offset + start.toNat + before.size := by
    rw [CommandHeader.moved_offset]
    omega
  simp only [hlength, hstart]
  split
  · exact .pure rfl
  · exact (relocates_seek _).bind fun _ _ _ => (relocates_bytes _).bind_eq fun _ => .pure rfl

theorem Dylib.relocates_decode (header : CommandHeader) (kind : DylibKind) :
    Relocates before after Eq (Dylib.decode header kind)
      (Dylib.decode (header.moved before.size) kind) :=
  relocates_u32.bind_eq fun start => relocates_u32.bind_eq fun _ =>
    relocates_u32.bind_eq fun _ => relocates_u32.bind_eq fun _ =>
      (header.relocates_decodeText start).bind fun _ _ h => .pure (by rw [h])

theorem relocates_skipThread (header : CommandHeader) :
    Relocates before after Eq (skipThread header) (skipThread (header.moved before.size)) :=
  relocates_u32.bind_eq fun _ => relocates_u32.bind_eq fun _ =>
    (relocates_bytes _).bind_eq fun _ => .pure rfl

namespace LoadCommand

/-- The relation between a command and the same one in the larger file. -/
def MovesTo (d : ℕ) (a b : LoadCommand) : Prop := b = a.moved d ∧ a.InRange

/-- A command does not hang on where it stands in its slice. -/
theorem relocates_decodeBody_inPlace (frame : Frame) (header : CommandHeader) (tag : Tag) :
    Relocates before after (fun a b => b = a ∧ a.InRange) (decodeBody frame header tag)
      (decodeBody frame (header.moved before.size) tag) := by
  have hu : ∀ (value : LoadCommand), value.InRange →
      Relocates before after (fun a b => b = a ∧ a.InRange) (pure value) (pure value) :=
    fun value hr => .pure ⟨rfl, hr⟩
  cases tag with
  | segment width =>
      refine (SegmentCommand.relocates_decode frame).bind fun a b h => .pure ⟨?_, h.2⟩
      rw [h.1]
  | symtab => exact Symtab.relocates_decode.bind_eq fun _ => hu _ trivial
  | dysymtab => exact IndirectSymbols.relocates_decode.bind_eq fun _ => hu _ trivial
  | dyldInfo => exact (relocates_repeated_eq relocates_u32 10).bind_eq fun _ => hu _ trivial
  | dyldInfoOnly => exact (relocates_repeated_eq relocates_u32 10).bind_eq fun _ => hu _ trivial
  | dylib kind =>
      exact (Dylib.relocates_decode header kind).bind fun _ _ h => h ▸ hu _ trivial
  | path kind =>
      exact relocates_u32.bind_eq fun start =>
        (header.relocates_decodeText start).bind fun _ _ h => h ▸ hu _ trivial
  | uuid => exact (relocates_bytes 16).bind_eq fun _ => hu _ trivial
  | versionMinMacos => exact (MinimumVersion.relocates_decode _).bind_eq fun _ => hu _ trivial
  | versionMinIos => exact (MinimumVersion.relocates_decode _).bind_eq fun _ => hu _ trivial
  | versionMinTvos => exact (MinimumVersion.relocates_decode _).bind_eq fun _ => hu _ trivial
  | versionMinWatchos => exact (MinimumVersion.relocates_decode _).bind_eq fun _ => hu _ trivial
  | buildVersion => exact MinimumVersion.relocates_decodeBuild.bind_eq fun _ => hu _ trivial
  | sourceVersion => exact relocates_u64.bind_eq fun _ => hu _ trivial
  | main => exact EntryPoint.relocates_decode.bind_eq fun _ => hu _ trivial
  | linkEdit kind =>
      exact relocates_u32.bind_eq fun _ => relocates_u32.bind_eq fun _ => hu _ trivial
  | dataInCode => exact relocates_skipDataInCode.bind_eq fun _ => hu _ trivial
  | thread => exact (relocates_skipThread header).bind fun _ _ _ => hu _ trivial
  | unixThread => exact (relocates_skipThread header).bind fun _ _ _ => hu _ trivial

theorem decodeBody_moved (d : ℕ) (frame : Frame) (header : CommandHeader) (tag : Tag) :
    decodeBody (frame.moved d) header tag =
      LoadCommand.moved d <$> decodeBody frame header tag := by
  cases tag with
  | segment width =>
      simp only [decodeBody, SegmentCommand.decode_moved, map_bind, bind_map_left, map_pure,
        LoadCommand.moved]
  | linkEdit kind => simp only [decodeBody, decodeLinkEdit, map_bind, map_pure, LoadCommand.moved]
  | _ => simp only [decodeBody, map_bind, map_pure, LoadCommand.moved]

theorem relocates_decodeBody (frame : Frame) (header : CommandHeader) (tag : Tag) :
    Relocates before after (MovesTo before.size) (decodeBody frame header tag)
      (decodeBody (frame.moved before.size) (header.moved before.size) tag) := by
  rw [decodeBody_moved]
  refine (relocates_decodeBody_inPlace frame header tag).map_right fun a b h => ⟨?_, h.2⟩
  rw [h.1]

/-- What holds of the content of commands holds of whole commands, and their headers move. -/
theorem relocates_decode_of_body {frame frame' : Frame} {R : LoadCommand → LoadCommand → Prop}
    (hunrecognized : R .unrecognized .unrecognized)
    (hbody : ∀ header tag, Relocates before after R (decodeBody frame header tag)
      (decodeBody frame' (header.moved before.size) tag)) :
    Relocates before after (fun a b => b.1 = a.1.moved before.size ∧ R a.2 b.2)
      (decode frame) (decode frame') := by
  unfold decode
  refine CommandHeader.relocates_decode.bind fun header header' hh => ?_
  subst hh
  have hend : ∀ a b, R a b → Relocates before after
      (fun p q : CommandHeader × LoadCommand => q.1 = p.1.moved before.size ∧ R p.2 q.2)
      (do seek header.stop; return (header, a))
      (do seek (header.moved before.size).stop; return (header.moved before.size, b)) := by
    intro a b hab
    rw [header.stop_moved]
    exact (relocates_seek _).bind fun _ _ _ => .pure ⟨rfl, hab⟩
  rw [CommandHeader.moved_tag]
  cases Tag.ofRaw? header.tag with
  | none => exact hend _ _ hunrecognized
  | some tag => exact (hbody header tag).bind hend

theorem relocates_decode (frame : Frame) :
    Relocates before after
      (fun a b => b.1 = a.1.moved before.size ∧ MovesTo before.size a.2 b.2)
      (decode frame) (decode (frame.moved before.size)) :=
  relocates_decode_of_body ⟨rfl, trivial⟩ (relocates_decodeBody frame)

theorem relocates_decode_inPlace (frame : Frame) :
    Relocates before after (fun a b => b.1 = a.1.moved before.size ∧ b.2 = a.2)
      (decode frame) (decode frame) :=
  relocates_decode_of_body (R := fun a b => b = a) rfl fun header tag =>
    (relocates_decodeBody_inPlace frame header tag).mono fun _ _ h => h.1

end LoadCommand

end MachImage
