import MachImage.LoadCommand
import MachImage.Proofs.Decoder.Extent

/-! # How many bytes load commands take

The fields of a load command take a fixed number of bytes, one lemma for each decoder: a
section header takes 68 or 80 of them (`takes_sectionHeader`), and so a segment that is read
has as many times that number behind its own fields as it counts sections
(`SegmentCommand.sections_le_of_decode`).  Three decoders go by what they read, and no fixed
number tells how far they reach: texts that stand where an offset says (`settled_decodeText`),
the state of a thread with its count (`settled_skipThread`), and segments with theirs
(`settled_segmentCommand`).  Where the command itself is large enough none of them leaves it:
what they read is settled by the bytes of the command. -/

namespace MachImage

def sectionHeaderSize : Width → ℕ
  | .bits32 => 68
  | .bits64 => 80

/-- The bytes of a segment in front of its section headers, tag and size among them. -/
def segmentHeaderSize : Width → ℕ
  | .bits32 => 56
  | .bits64 => 72

/-- Where a segment counts its sections. -/
def sectionCountOffset : Width → ℕ
  | .bits32 => 48
  | .bits64 => 64

open Decoder

variable {order : ByteOrder}

/-! ### Fields in a row -/

theorem takes_sectionHeader (width : Width) :
    Takes order (SectionHeader.decode width) (sectionHeaderSize width) := by
  have hreserved (header : SectionHeader) :
      Takes order (if width = .bits64 then do let _ ← u32; return header else return header)
        (sectionHeaderSize width - (60 + 2 * width.bytes)) := by
    cases width with
    | bits32 => exact takes_pure header
    | bits64 => exact takes_u32.bind_pure
  refine Takes.of_eq (takes_name16.bind fun _ => takes_name16.bind fun _ =>
    (takes_word width).bind fun _ => (takes_word width).bind fun _ =>
    takes_u32.bind fun _ => takes_u32.bind fun _ => takes_u32.bind fun _ =>
    takes_u32.bind fun _ => takes_u32.bind fun _ => takes_u32.bind fun _ =>
    takes_u32.bind fun _ => hreserved _) ?_
  cases width <;> rfl

theorem takes_symtab : Takes order Symtab.decode 16 :=
  (takes_u32.bind fun _ => takes_u32.bind fun _ => takes_u32.bind fun _ =>
    takes_u32.bind_pure).of_eq rfl

theorem takes_indirectSymbols : Takes order IndirectSymbols.decode 72 :=
  ((takes_repeated takes_u32 12).bind fun _ => takes_u32.bind fun _ => takes_u32.bind fun _ =>
    (takes_repeated takes_u32 4).bind_pure).of_eq rfl

theorem takes_minimumVersion (platform : String) :
    Takes order (MinimumVersion.decode platform) 8 :=
  (takes_u32.bind fun _ => takes_u32.bind_pure).of_eq rfl

/-- The tools are counted and not read. -/
theorem takes_buildVersion : Takes order MinimumVersion.decodeBuild 16 :=
  (takes_u32.bind fun _ => (takes_minimumVersion _).bind fun _ => takes_u32.bind_pure).of_eq rfl

theorem takes_entryPoint : Takes order EntryPoint.decode 16 :=
  (takes_u64.bind fun _ => takes_u64.bind_pure).of_eq rfl

theorem takes_linkEdit (kind : LinkEditKind) :
    Takes order (LoadCommand.decodeLinkEdit kind) 8 :=
  (takes_u32.bind fun _ => takes_u32.bind_pure).of_eq rfl

theorem takes_dataInCode : Takes order skipDataInCode 8 :=
  (takes_u32.bind fun _ => takes_u16.bind fun _ => takes_u16.bind_pure).of_eq rfl

/-- A segment that is read has all section headers that it counts behind its own fields. -/
theorem SegmentCommand.sections_le_of_decode {frame : Frame} {input : Input} {p : ℕ}
    {command : SegmentCommand} {c' : Cursor}
    (h : SegmentCommand.decode frame input ⟨p, order⟩ = .ok command c') :
    p + segmentHeaderSize frame.width +
      command.segment.sectionCount.toNat * sectionHeaderSize frame.width ≤ input.size + 8 := by
  unfold SegmentCommand.decode at h
  obtain ⟨name, -, h⟩ := takes_name16.bind_eq_ok h
  obtain ⟨address, -, h⟩ := (takes_word frame.width).bind_eq_ok h
  obtain ⟨vmSize, -, h⟩ := (takes_word frame.width).bind_eq_ok h
  obtain ⟨fileOffset, -, h⟩ := (takes_word frame.width).bind_eq_ok h
  obtain ⟨fileSize, -, h⟩ := (takes_word frame.width).bind_eq_ok h
  obtain ⟨maxProtection, -, h⟩ := takes_u32.bind_eq_ok h
  obtain ⟨initialProtection, -, h⟩ := takes_u32.bind_eq_ok h
  obtain ⟨sectionCount, -, h⟩ := takes_u32.bind_eq_ok h
  obtain ⟨flags, hflags, h⟩ := takes_u32.bind_eq_ok h
  have hsections : Takes order (repeated sectionCount.toNat (SectionHeader.decode frame.width))
      (sectionCount.toNat * sectionHeaderSize frame.width) :=
    takes_repeated (takes_sectionHeader _) _
  obtain ⟨sections, hrun, h⟩ := hsections.bind_eq_ok h
  obtain ⟨rfl, -⟩ := pure_eq_ok h
  have hsize := (takes_u32.le_size hflags).2
  have hcount := (hsections.le_size hrun).2
  dsimp only
  cases hwidth : frame.width <;>
    simp only [hwidth, Width.bytes, segmentHeaderSize, sectionHeaderSize] at hsize hcount ⊢ <;>
    omega

/-! ### Decoders that go by what they read -/

section settled

variable {input : Input} {header : CommandHeader}
  (hinside : header.offset + header.size.toNat ≤ input.size)

include hinside

/-- A text ends with its command, and one that would start behind the end is not read. -/
theorem settled_decodeText (start : UInt32) (p : ℕ) :
    Settled input header.offset header.size.toNat order (header.decodeText start) p := by
  unfold CommandHeader.decodeText
  dsimp only
  split
  · exact settled_pure _
  · next hlength =>
    unfold CommandHeader.remainingFrom at hlength ⊢
    have htext : Settled input header.offset header.size.toNat order
        (bytes (header.size.toNat - start.toNat)) (header.offset + start.toNat) :=
      (takes_bytes _).settled hinside (by omega) (Nat.le_add_right _ _) (by omega)
    exact settled_seek_bind htext.bind_pure

theorem settled_path (hsize : 12 ≤ header.size.toNat) (kind : PathKind) :
    Settled input header.offset header.size.toNat order
      (do let start ← u32; return LoadCommand.path kind (← header.decodeText start))
      (header.offset + 8) := by
  refine takes_u32.bind_settled hinside (by omega) (by omega) (by omega) fun start _ => ?_
  exact (settled_decodeText hinside start _).bind_pure

theorem settled_dylib (hsize : 24 ≤ header.size.toNat) (kind : DylibKind) :
    Settled input header.offset header.size.toNat order (Dylib.decode header kind)
      (header.offset + 8) := by
  have hpos : 0 < header.size.toNat := by omega
  unfold Dylib.decode
  refine takes_u32.bind_settled hinside hpos (by omega) (by omega) fun start _ => ?_
  refine takes_u32.bind_settled hinside hpos (by omega) (by omega) fun timestamp _ => ?_
  refine takes_u32.bind_settled hinside hpos (by omega) (by omega) fun current _ => ?_
  refine takes_u32.bind_settled hinside hpos (by omega) (by omega) fun compatibility _ => ?_
  exact (settled_decodeText hinside start _).bind_pure

/-- The words of a thread's state are passed over up to the end of the command at most. -/
theorem settled_skipThread (hsize : 16 ≤ header.size.toNat) :
    Settled input header.offset header.size.toNat order (skipThread header)
      (header.offset + 8) := by
  have hpos : 0 < header.size.toNat := by omega
  unfold skipThread
  refine takes_u32.bind_settled hinside hpos (by omega) (by omega) fun flavor _ => ?_
  refine takes_u32.bind_settled hinside hpos (by omega) (by omega) fun count _ => ?_
  have hwords : min (count.toNat * 4) (header.remainingFrom 16) ≤ header.size.toNat - 16 :=
    Nat.min_le_right _ _
  exact ((takes_bytes _).settled hinside hpos (by omega) (by omega)).bind_pure

/-- The section headers are read as far as the count in the file says, and the command has room
for as many. -/
theorem settled_segmentCommand {frame : Frame}
    (hsize : segmentHeaderSize frame.width ≤ header.size.toNat)
    (hsections : ∀ count,
      input.u32? order (header.offset + sectionCountOffset frame.width) = some count →
        segmentHeaderSize frame.width + count.toNat * sectionHeaderSize frame.width ≤
          header.size.toNat) :
    Settled input header.offset header.size.toNat order (SegmentCommand.decode frame)
      (header.offset + 8) := by
  have hfields : segmentHeaderSize frame.width = 40 + 4 * frame.width.bytes := by
    cases frame.width <;> rfl
  have hcount : sectionCountOffset frame.width = 32 + 4 * frame.width.bytes := by
    cases frame.width <;> rfl
  rw [hfields] at hsize hsections
  rw [hcount] at hsections
  have hpos : 0 < header.size.toNat := by omega
  have hword : Takes order (word frame.width) frame.width.bytes := takes_word _
  unfold SegmentCommand.decode
  refine takes_name16.bind_settled hinside hpos (by omega) (by omega) fun name _ => ?_
  refine hword.bind_settled hinside hpos (by omega) (by omega) fun address _ => ?_
  refine hword.bind_settled hinside hpos (by omega) (by omega) fun vmSize _ => ?_
  refine hword.bind_settled hinside hpos (by omega) (by omega) fun fileOffset _ => ?_
  refine hword.bind_settled hinside hpos (by omega) (by omega) fun fileSize _ => ?_
  refine takes_u32.bind_settled hinside hpos (by omega) (by omega) fun maxProtection _ => ?_
  refine takes_u32.bind_settled hinside hpos (by omega) (by omega) fun initialProtection _ => ?_
  refine takes_u32.bind_settled hinside hpos (by omega) (by omega) fun count hread => ?_
  have hplace : header.offset + 8 + 16 + frame.width.bytes + frame.width.bytes +
      frame.width.bytes + frame.width.bytes + 4 + 4 =
        header.offset + (32 + 4 * frame.width.bytes) := by omega
  have hroom := hsections count (hplace ▸ (u32_eq_ok hread).1)
  refine takes_u32.bind_settled hinside hpos (by omega) (by omega) fun flags _ => ?_
  have hheaders : Takes order (repeated count.toNat (SectionHeader.decode frame.width))
      (count.toNat * sectionHeaderSize frame.width) :=
    takes_repeated (takes_sectionHeader _) _
  exact (hheaders.settled hinside hpos (by omega) (by omega)).bind_pure

end settled

end MachImage
