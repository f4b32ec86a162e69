import MachImage.Proofs.Layout.Framing
import MachImage.Proofs.LoadCommand.Extent

/-! # Load commands depend on their own bytes only

`Tag.fixedSize` is the number of bytes that a command needs for the fields that all commands
of its kind have.  A command is `WellSized` in a file when its size leaves room for these
fields, and for the section headers that a segment counts, and all of its bytes are there.  It
is then read, whatever its fields say (`LoadCommand.determined_by_own_bytes`), and as the same
command in every file that has its bytes in the same place: no offset and no count in it makes
the decoder fail, or look in front of the command or behind it. -/

namespace MachImage

open Decoder

/-- The bytes that a command needs for the fields of its kind, its tag and size among them. -/
def Tag.fixedSize (width : Width) : Tag → ℕ
  | segment _ => segmentHeaderSize width
  | symtab => 24
  | dysymtab => 80
  | dyldInfo | dyldInfoOnly => 48
  | dylib _ => 24
  | path _ => 12
  | uuid => 24
  | versionMinMacos | versionMinIos | versionMinTvos | versionMinWatchos => 16
  | buildVersion => 24
  | sourceVersion => 16
  | main => 24
  | linkEdit _ => 16
  | dataInCode => 16
  | thread | unixThread => 16

/-- A command that stands in a file with all its bytes, and is as large as its tag asks for. -/
structure CommandHeader.WellSized (header : CommandHeader) (input : Input) (width : Width)
    (order : ByteOrder) : Prop where
  tag_eq : input.u32? order header.offset = some header.tag
  size_eq : input.u32? order (header.offset + 4) = some header.size
  inside : header.offset + header.size.toNat ≤ input.size
  /-- Tag and size themselves are part of the command. -/
  eight_le : 8 ≤ header.size.toNat
  fixed_le : ∀ tag, Tag.ofRaw? header.tag = some tag → tag.fixedSize width ≤ header.size.toNat
  /-- A segment has room for the section headers that it counts. -/
  sections_le : ∀ tagWidth count, Tag.ofRaw? header.tag = some (.segment tagWidth) →
    input.u32? order (header.offset + sectionCountOffset width) = some count →
      segmentHeaderSize width + count.toNat * sectionHeaderSize width ≤ header.size.toNat

namespace CommandHeader.WellSized

variable {header : CommandHeader} {input input' : Input} {frame : Frame} {order : ByteOrder}

theorem decode_header (h : header.WellSized input frame.width order)
    (hrange : input'.range header.offset header.size.toNat =
      input.range header.offset header.size.toNat) :
    CommandHeader.decode input' ⟨header.offset, order⟩ =
      .ok header ⟨header.offset + 8, order⟩ := by
  have height := h.eight_le
  have htag := h.tag_eq
  have hsize := h.size_eq
  rw [← Input.u32?_eq_of_range_eq hrange h.inside (by omega) (by omega)] at htag hsize
  exact CommandHeader.decode_of_u32? htag hsize

/-- What follows tag and size is settled by the bytes of the command: the fields of every kind
fit into it, and what goes by an offset or a count stays in it. -/
theorem settled_content (h : header.WellSized input frame.width order) :
    Settled input header.offset header.size.toNat order
      (LoadCommand.decodeContent frame header) (header.offset + 8) := by
  have hinside := h.inside
  have hpos : 0 < header.size.toNat := Nat.lt_of_lt_of_le (by decide) h.eight_le
  -- Fields of `length` bytes fit into a command that is as large as its tag asks for.
  have hfields {α : Type} {m : Decoder α} {length : ℕ} {f : α → LoadCommand}
      (hm : Takes order m length) (hsize : 8 + length ≤ header.size.toNat) :
      Settled input header.offset header.size.toNat order
        (m >>= fun a => pure (f a)) (header.offset + 8) :=
    (hm.settled hinside hpos (by omega) (by omega)).bind_pure
  unfold LoadCommand.decodeContent
  cases htag : Tag.ofRaw? header.tag with
  | none => exact settled_pure _
  | some tag =>
      have hfixed := h.fixed_le tag htag
      cases tag with
      | segment tagWidth =>
          have hsections := fun count => h.sections_le tagWidth count htag
          exact (settled_segmentCommand hinside hfixed hsections).bind_pure
      | symtab => exact hfields takes_symtab hfixed
      | dysymtab => exact hfields takes_indirectSymbols hfixed
      | dyldInfo => exact hfields (takes_repeated takes_u32 10) hfixed
      | dyldInfoOnly => exact hfields (takes_repeated takes_u32 10) hfixed
      | dylib kind => exact (settled_dylib hinside hfixed kind).bind_pure
      | path kind => exact settled_path hinside hfixed kind
      | uuid => exact hfields (takes_bytes 16) hfixed
      | versionMinMacos => exact hfields (takes_minimumVersion _) hfixed
      | versionMinIos => exact hfields (takes_minimumVersion _) hfixed
      | versionMinTvos => exact hfields (takes_minimumVersion _) hfixed
      | versionMinWatchos => exact hfields (takes_minimumVersion _) hfixed
      | buildVersion => exact hfields takes_buildVersion hfixed
      | sourceVersion => exact hfields takes_u64 hfixed
      | main => exact hfields takes_entryPoint hfixed
      | linkEdit kind =>
          exact (takes_linkEdit kind).settled hinside hpos (Nat.le_add_right _ _) (by
            rw [Nat.add_assoc]
            exact Nat.add_le_add_left hfixed _)
      | dataInCode => exact hfields takes_dataInCode hfixed
      | thread => exact (settled_skipThread hinside hfixed).bind_pure
      | unixThread => exact (settled_skipThread hinside hfixed).bind_pure

end CommandHeader.WellSized

/-- **A load command is decided by its own bytes.**  In every frame and byte order, a command
that has all its bytes in the file and is as large as its tag asks for is read, the cursor is
then behind it, and every file with the same bytes from its offset up to its size gives the
same tag, size and command, whatever stands in front of it and behind it and whatever the
offsets and counts in it say. -/
theorem LoadCommand.determined_by_own_bytes {header : CommandHeader} {input : Input}
    {frame : Frame} {order : ByteOrder} (h : header.WellSized input frame.width order) :
    ∃ command,
      decode frame input ⟨header.offset, order⟩ =
        .ok (header, command) ⟨header.offset + header.size.toNat, order⟩ ∧
      ∀ input' : Input,
        input'.range header.offset header.size.toNat =
          input.range header.offset header.size.toNat →
        decode frame input' ⟨header.offset, order⟩ =
          .ok (header, command) ⟨header.offset + header.size.toNat, order⟩ := by
  obtain ⟨command, hcommand⟩ := h.settled_content
  have hstop : header.stop = header.offset + header.size.toNat := by
    unfold CommandHeader.stop CommandHeader.effectiveSize
    rw [Nat.max_eq_left h.eight_le]
  have hall : ∀ input' : Input,
      input'.range header.offset header.size.toNat =
        input.range header.offset header.size.toNat →
      decode frame input' ⟨header.offset, order⟩ =
        .ok (header, command) ⟨header.offset + header.size.toNat, order⟩ := by
    intro input' hrange
    obtain ⟨q, hq⟩ := hcommand input' hrange
    rw [decode_eq, bind_of_ok (h.decode_header hrange), bind_of_ok hq,
      bind_of_ok (seek_apply input' _ header.stop), hstop]
    rfl
  exact ⟨command, hall input rfl, hall⟩

/-- The state of a thread that counts four billion words in a command of twenty bytes is read up
to the end of the command, with nothing behind it as with other bytes around it. -/
theorem LoadCommand.determined_by_own_bytes_thread :
    let frame : Frame := { width := .bits64, order := .little, base := 0 }
    let header : CommandHeader := { tag := 4, size := 20, offset := 2 }
    let own : Input := #[4, 0, 0, 0, 20, 0, 0, 0, 1, 0, 0, 0, 0xFF, 0xFF, 0xFF, 0xFF, 7, 0, 0, 0]
    header.WellSized (#[0xAA, 0xBB] ++ own) .bits64 .little ∧
      ∃ command,
        decode frame (#[0xAA, 0xBB] ++ own) ⟨2, .little⟩ =
          .ok (header, command) ⟨22, .little⟩ ∧
        decode frame (#[0, 0] ++ own ++ #[0xCC, 0xDD, 0xEE]) ⟨2, .little⟩ =
          .ok (header, command) ⟨22, .little⟩ := by
  intro frame header own
  have htag : Tag.ofRaw? 4 = some .thread := by decide
  have hsized : header.WellSized (#[0xAA, 0xBB] ++ own) frame.width .little := {
    tag_eq := by decide
    size_eq := by decide
    inside := by decide
    eight_le := by decide
    fixed_le := by
      intro tag h
      cases htag.symm.trans h
      decide
    sections_le := by
      intro tagWidth count h
      cases htag.symm.trans h }
  obtain ⟨command, hrun, hsame⟩ := determined_by_own_bytes hsized
  exact ⟨hsized, command, hrun, hsame _ (by decide)⟩

end MachImage
