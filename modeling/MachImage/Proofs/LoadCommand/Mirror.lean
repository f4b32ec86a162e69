import MachImage.Proofs.Decoder.Mirror
import MachImage.Proofs.Layout.Framing
import MachImage.Proofs.LoadCommand.Extent

/-! # Load commands in the opposite byte order

Every kind of load command has a row of fields behind its tag and size (`Tag.row`).  Some have
more behind that: a segment the headers of the sections that it counts, a library and a path the
text that starts where they say.  Two files mirror each other in a command (`MirrorsCommand`)
when they do in all of these.  The words of a thread's state are passed over and may be any, and
so may all bytes of a command that has no meaning.

A command is read alike from files that mirror each other in it (`LoadCommand.alike_decode`).
Where the next one stands is part of what is read, so that all commands are read alike from files
that mirror each other in every command of the first (`LoadCommand.alike_commands`). -/

namespace MachImage

/-! ### Rows -/

/-- The fields of a section header, the last of them for the larger width only. -/
def SectionHeader.row (width : Width) : List Field :=
  [.text 16, .text 16, .number width.bytes, .number width.bytes] ++
    List.replicate 7 (.number 4) ++
    match width with
    | .bits32 => []
    | .bits64 => [.number 4]

/-- The fields of a command behind its tag and size. -/
def Tag.row (width : Width) : Tag → List Field
  | segment _ =>
    .text 16 :: List.replicate 4 (.number width.bytes) ++ List.replicate 4 (.number 4)
  | symtab => List.replicate 4 (.number 4)
  | dysymtab => List.replicate 18 (.number 4)
  | dyldInfo | dyldInfoOnly => List.replicate 10 (.number 4)
  | dylib _ => List.replicate 4 (.number 4)
  | path _ => [.number 4]
  | uuid => [.text 16]
  | versionMinMacos | versionMinIos | versionMinTvos | versionMinWatchos =>
    List.replicate 2 (.number 4)
  | buildVersion => List.replicate 4 (.number 4)
  | sourceVersion => [.number 8]
  | main => [.number 8, .number 8]
  | linkEdit _ => List.replicate 2 (.number 4)
  | dataInCode => [.number 4, .number 2, .number 2]
  | thread | unixThread => List.replicate 2 (.number 4)

/-! ### Commands in both files -/

section mirrors

variable (a b : Input)

/-- The text of the command at an offset is the same in both files, from where its start says up
to the end of the command. -/
def MirrorsText (order : ByteOrder) (offset : ℕ) : Prop :=
  ∀ start ∈ a.u32? order (offset + 8), ∀ size ∈ a.u32? order (offset + 4),
    b.range (offset + start.toNat) (size.toNat - start.toNat) =
      a.range (offset + start.toNat) (size.toNat - start.toNat)

/-- What the command at an offset has behind its row of fields stands in both files. -/
def Tag.MirrorsRest (frame : Frame) (offset : ℕ) : Tag → Prop
  | segment _ =>
    ∀ count ∈ a.u32? frame.order (offset + sectionCountOffset frame.width),
      Mirrors a b (offset + segmentHeaderSize frame.width)
        (List.replicate count.toNat (SectionHeader.row frame.width)).flatten
  | dylib _ | path _ => MirrorsText a b frame.order offset
  | _ => True

/-- The command at an offset of `a` stands there in `b` as well, in the opposite byte order. -/
structure MirrorsCommand (frame : Frame) (offset : ℕ) : Prop where
  header : Mirrors a b offset [.number 4, .number 4]
  row : ∀ tag ∈ (a.u32? frame.order offset).bind Tag.ofRaw?,
    Mirrors a b (offset + 8) (tag.row frame.width)
  rest : ∀ tag ∈ (a.u32? frame.order offset).bind Tag.ofRaw?,
    tag.MirrorsRest a b frame offset

-- The numbers that the fields quantify over are looked up, not tried one by one.
instance decidableMirrorsText (order : ByteOrder) (offset : ℕ) :
    Decidable (MirrorsText a b order offset) :=
  @Option.decidableForallMem _ _
    (fun _ => @Option.decidableForallMem _ _ (fun _ => inferInstanceAs (Decidable (_ = _))) _) _

instance Tag.decidableMirrorsRest (frame : Frame) (offset : ℕ) :
    (tag : Tag) → Decidable (tag.MirrorsRest a b frame offset)
  | segment _ =>
    @Option.decidableForallMem _ _ (fun _ => inferInstanceAs (Decidable (Mirrors a b _ _))) _
  | dylib _ | path _ => inferInstanceAs (Decidable (MirrorsText a b frame.order offset))
  | symtab | dysymtab | dyldInfo | dyldInfoOnly | uuid | versionMinMacos | versionMinIos
  | versionMinTvos | versionMinWatchos | buildVersion | sourceVersion | main | linkEdit _
  | dataInCode | thread | unixThread => isTrue trivial

instance decidableMirrorsCommand (frame : Frame) (offset : ℕ) :
    Decidable (MirrorsCommand a b frame offset) :=
  decidable_of_iff (_ ∧ _ ∧ _) ⟨fun h => ⟨h.1, h.2.1, h.2.2⟩, fun h => ⟨h.1, h.2, h.3⟩⟩

end mirrors

open Decoder

/-! ### Decoders of rows -/

theorem readsRow_sectionHeader (width : Width) :
    ReadsRow (SectionHeader.row width) (SectionHeader.decode width) := by
  refine readsRow_name16.bind fun _ => readsRow_name16.bind fun _ => ?_
  refine (readsRow_word width).bind fun _ => (readsRow_word width).bind fun _ => ?_
  refine readsRow_u32.bind fun _ => readsRow_u32.bind fun _ => readsRow_u32.bind fun _ => ?_
  refine readsRow_u32.bind fun _ => readsRow_u32.bind fun _ => readsRow_u32.bind fun _ => ?_
  refine readsRow_u32.bind fun _ => ?_
  cases width with
  | bits32 => exact readsRow_pure _
  | bits64 => exact readsRow_u32.bind_pure

theorem readsRow_symtab (width : Width) : ReadsRow (Tag.symtab.row width) Symtab.decode :=
  readsRow_u32.bind fun _ => readsRow_u32.bind fun _ => readsRow_u32.bind fun _ =>
    readsRow_u32.bind_pure

theorem readsRow_indirectSymbols (width : Width) :
    ReadsRow (Tag.dysymtab.row width) IndirectSymbols.decode :=
  (readsRow_u32.repeated 12).bind fun _ => readsRow_u32.bind fun _ => readsRow_u32.bind fun _ =>
    (readsRow_u32.repeated 4).bind_pure

theorem readsRow_minimumVersion (platform : String) :
    ReadsRow (List.replicate 2 (.number 4)) (MinimumVersion.decode platform) :=
  readsRow_u32.bind fun _ => readsRow_u32.bind_pure

theorem readsRow_buildVersion (width : Width) :
    ReadsRow (Tag.buildVersion.row width) MinimumVersion.decodeBuild :=
  readsRow_u32.bind fun _ => (readsRow_minimumVersion _).bind fun _ => readsRow_u32.bind_pure

theorem readsRow_entryPoint (width : Width) : ReadsRow (Tag.main.row width) EntryPoint.decode :=
  readsRow_u64.bind fun _ => readsRow_u64.bind_pure

theorem readsRow_linkEdit (width : Width) (kind : LinkEditKind) :
    ReadsRow ((Tag.linkEdit kind).row width) (LoadCommand.decodeLinkEdit kind) :=
  readsRow_u32.bind fun _ => readsRow_u32.bind_pure

theorem readsRow_dataInCode (width : Width) : ReadsRow (Tag.dataInCode.row width) skipDataInCode :=
  readsRow_u32.bind fun _ => readsRow_u16.bind fun _ => readsRow_u16.bind_pure

theorem readsRow_commandHeader : ReadsRow [.number 4, .number 4] CommandHeader.decode :=
  readsRow_position.bind fun _ => readsRow_u32.bind fun _ => readsRow_u32.bind_pure

/-! ### Segments -/

/-- Reads the fields of a segment, without the headers of its sections. -/
def SegmentCommand.decodeFields (frame : Frame) : Decoder Segment := do
  let name ← Decoder.name16
  let address ← Decoder.word frame.width
  let vmSize ← Decoder.word frame.width
  let fileOffset ← Decoder.word frame.width
  let fileSize ← Decoder.word frame.width
  let maxProtection ← Decoder.u32
  let initialProtection ← Decoder.u32
  let sectionCount ← Decoder.u32
  let flags ← Decoder.u32
  return { name, address := ⟨address⟩, vmSize
           fileOffset := frame.fileOffset fileOffset.toNat, fileSize
           maxProtection := ⟨maxProtection⟩, initialProtection := ⟨initialProtection⟩
           sectionCount, flags }

theorem SegmentCommand.decode_eq (frame : Frame) :
    decode frame = do
      let segment ← decodeFields frame
      let sections ← repeated segment.sectionCount.toNat (SectionHeader.decode frame.width)
      return { segment, sections } := by
  unfold decode decodeFields
  simp only [bind_assoc, pure_bind]

theorem readsRow_segmentFields (frame : Frame) (tagWidth : Width) :
    ReadsRow ((Tag.segment tagWidth).row frame.width) (SegmentCommand.decodeFields frame) := by
  refine readsRow_name16.bind fun _ => (readsRow_word _).bind fun _ => ?_
  refine (readsRow_word _).bind fun _ => (readsRow_word _).bind fun _ => ?_
  refine (readsRow_word _).bind fun _ => readsRow_u32.bind fun _ => ?_
  refine readsRow_u32.bind fun _ => readsRow_u32.bind fun _ => ?_
  exact readsRow_u32.bind_pure

section alike

variable {a b : Input} {frame : Frame} {c : Cursor} {offset : ℕ}

/-- The sections of a segment are counted behind its other fields but one. -/
theorem SegmentCommand.u32?_of_decodeFields {order : ByteOrder} {segment : Segment} {c' : Cursor}
    (h : decodeFields frame a ⟨offset + 8, order⟩ = .ok segment c') :
    a.u32? order (offset + sectionCountOffset frame.width) = some segment.sectionCount := by
  unfold decodeFields at h
  obtain ⟨name, -, h⟩ := takes_name16.bind_eq_ok h
  obtain ⟨address, -, h⟩ := (takes_word frame.width).bind_eq_ok h
  obtain ⟨vmSize, -, h⟩ := (takes_word frame.width).bind_eq_ok h
  obtain ⟨fileOffset, -, h⟩ := (takes_word frame.width).bind_eq_ok h
  obtain ⟨fileSize, -, h⟩ := (takes_word frame.width).bind_eq_ok h
  obtain ⟨maxProtection, -, h⟩ := takes_u32.bind_eq_ok h
  obtain ⟨initialProtection, -, h⟩ := takes_u32.bind_eq_ok h
  obtain ⟨sectionCount, hcount, h⟩ := bind_u32_eq_ok h
  obtain ⟨flags, -, h⟩ := bind_u32_eq_ok h
  obtain ⟨rfl, -⟩ := pure_eq_ok h
  have hplace : offset + 8 + 16 + frame.width.bytes + frame.width.bytes + frame.width.bytes +
      frame.width.bytes + 4 + 4 = offset + sectionCountOffset frame.width := by
    cases frame.width <;> rfl
  rwa [hplace] at hcount

variable (hsize : b.size = a.size)
include hsize

/-- The headers of the sections stand behind the fields, as many as the fields count. -/
theorem alike_segmentCommand {tagWidth : Width}
    (hrow : Mirrors a b (offset + 8) ((Tag.segment tagWidth).row frame.width))
    (hrest : (Tag.segment tagWidth).MirrorsRest a b frame offset) :
    Alike a b (SegmentCommand.decode frame) ⟨offset + 8, frame.order⟩ := by
  rw [SegmentCommand.decode_eq]
  refine (readsRow_segmentFields frame tagWidth).bind_alike hsize hrow
    fun segment c' hsegment hposition => ?_
  refine Alike.bind_pure (((readsRow_sectionHeader frame.width).repeated _).alike hsize ?_)
  have hcount := SegmentCommand.u32?_of_decodeFields hsegment
  have hplace : c'.position = offset + segmentHeaderSize frame.width := by
    rw [hposition]
    cases frame.width <;> rfl
  rw [hplace]
  exact hrest segment.sectionCount hcount

/-! ### Texts and threads -/

section text

variable {header : CommandHeader}

/-- The text of a command is the same, and one that would start behind its end is not read. -/
theorem alike_decodeText {start : UInt32}
    (h : b.range (header.offset + start.toNat) (header.size.toNat - start.toNat) =
      a.range (header.offset + start.toNat) (header.size.toNat - start.toNat)) (c : Cursor) :
    Alike a b (header.decodeText start) c := by
  unfold CommandHeader.decodeText
  dsimp only
  split
  · exact alike_pure _
  · refine (alike_seek _).bind fun _ c' hseek => Alike.bind_pure (alike_bytes hsize ?_)
    cases hseek
    exact h

variable (htext : ∀ start ∈ a.u32? c.order c.position,
  b.range (header.offset + start.toNat) (header.size.toNat - start.toNat) =
    a.range (header.offset + start.toNat) (header.size.toNat - start.toNat))
include htext

theorem alike_path (hrow : Mirrors a b c.position [.number 4]) (kind : PathKind) :
    Alike a b (do let start ← u32; return LoadCommand.path kind (← header.decodeText start)) c :=
  readsRow_u32.bind_alike hsize hrow fun start c' hstart _ =>
    (alike_decodeText hsize (htext start (u32_eq_ok hstart).1) c').bind_pure

theorem alike_dylib (hrow : Mirrors a b c.position (List.replicate 4 (.number 4)))
    (kind : DylibKind) : Alike a b (Dylib.decode header kind) c := by
  obtain ⟨hfirst, hversions⟩ := hrow
  refine readsRow_u32.bind_alike hsize ⟨hfirst, trivial⟩ fun start c₁ hstart hposition => ?_
  have hpath : ∀ c, Alike a b (header.decodeText start) c :=
    alike_decodeText hsize (htext start (u32_eq_ok hstart).1)
  refine readsRow_u32.bind_of_mirrors hsize (fun timestamp => ?_) c₁ (hposition ▸ hversions)
  refine readsRow_u32.bind_of_mirrors hsize fun current => ?_
  exact readsRow_u32.bind_of_mirrors hsize fun compatibility c _ => (hpath c).bind_pure

end text

theorem alike_skipThread (header : CommandHeader) (c : Cursor)
    (hrow : Mirrors a b c.position (List.replicate 2 (.number 4))) :
    Alike a b (skipThread header) c := by
  refine readsRow_u32.bind_of_mirrors hsize (fun flavor => ?_) c hrow
  exact readsRow_u32.bind_of_mirrors hsize fun count c _ => alike_skip hsize _ _

/-! ### All commands -/

/-- What follows tag and size is read alike: by its tag a command has the fields of a row, and
behind them what stands in both files. -/
theorem LoadCommand.alike_content {header : CommandHeader}
    (h : MirrorsCommand a b frame header.offset)
    (htag : a.u32? frame.order header.offset = some header.tag)
    (hlength : a.u32? frame.order (header.offset + 4) = some header.size) :
    Alike a b (decodeContent frame header) ⟨header.offset + 8, frame.order⟩ := by
  unfold decodeContent
  cases hmeaning : Tag.ofRaw? header.tag with
  | none => exact alike_pure _
  | some tag =>
      have hmem : tag ∈ (a.u32? frame.order header.offset).bind Tag.ofRaw? := by
        rw [htag]
        exact hmeaning
      have hrow := h.row tag hmem
      have hrest := h.rest tag hmem
      have hfields {α : Type} {m : Decoder α} {f : α → LoadCommand}
          (hm : ReadsRow (tag.row frame.width) m) :
          Alike a b (m >>= fun v => pure (f v)) ⟨header.offset + 8, frame.order⟩ :=
        (hm.alike hsize hrow).bind_pure
      have htext (h : MirrorsText a b frame.order header.offset) (start : UInt32)
          (hstart : start ∈ a.u32? frame.order (header.offset + 8)) :
          b.range (header.offset + start.toNat) (header.size.toNat - start.toNat) =
            a.range (header.offset + start.toNat) (header.size.toNat - start.toNat) :=
        h start hstart header.size hlength
      cases tag with
      | segment width => exact (alike_segmentCommand hsize hrow hrest).bind_pure
      | symtab => exact hfields (readsRow_symtab _)
      | dysymtab => exact hfields (readsRow_indirectSymbols _)
      | dyldInfo => exact hfields (readsRow_u32.repeated 10)
      | dyldInfoOnly => exact hfields (readsRow_u32.repeated 10)
      | dylib kind => exact (alike_dylib hsize (htext hrest) hrow kind).bind_pure
      | path kind => exact alike_path hsize (htext hrest) hrow kind
      | uuid => exact hfields (readsRow_bytes 16)
      | versionMinMacos => exact hfields (readsRow_minimumVersion _)
      | versionMinIos => exact hfields (readsRow_minimumVersion _)
      | versionMinTvos => exact hfields (readsRow_minimumVersion _)
      | versionMinWatchos => exact hfields (readsRow_minimumVersion _)
      | buildVersion => exact hfields (readsRow_buildVersion _)
      | sourceVersion => exact hfields readsRow_u64
      | main => exact hfields (readsRow_entryPoint _)
      | linkEdit kind => exact (readsRow_linkEdit _ kind).alike hsize hrow
      | dataInCode => exact hfields (readsRow_dataInCode _)
      | thread => exact (alike_skipThread hsize header _ hrow).bind_pure
      | unixThread => exact (alike_skipThread hsize header _ hrow).bind_pure

theorem LoadCommand.alike_decode (h : MirrorsCommand a b frame offset) :
    Alike a b (decode frame) ⟨offset, frame.order⟩ := by
  rw [decode_eq]
  refine readsRow_commandHeader.bind_alike hsize h.header fun header c' hheader hposition => ?_
  obtain ⟨hoffset, htag, hlength⟩ := CommandHeader.decode_eq_ok hheader
  have horder := inherited_keepsOrder.commandHeader _ _ _ _ hheader
  obtain ⟨position, order⟩ := c'
  subst hoffset hposition horder
  exact (alike_content hsize h htag hlength).bind fun _ _ _ =>
    (alike_seek _).bind fun _ _ _ => alike_pure _

/-- Commands in a row are read alike from files that mirror each other in each of them.  The
induction goes by the number of commands: where the second one starts is read of the first. -/
theorem LoadCommand.alike_commands {count : ℕ} (before : Array (CommandHeader × LoadCommand))
    (h : ∀ k < count, ∀ place ∈ commandOffset? a frame.order offset k,
      MirrorsCommand a b frame place) :
    Alike a b (repeatedFrom (decode frame) before count) ⟨offset, frame.order⟩ := by
  induction count generalizing offset before with
  | zero => exact alike_pure before
  | succ count ih =>
      have hfirst := h 0 (Nat.succ_pos count) offset rfl
      refine (alike_decode hsize hfirst).bind fun read c' hread => ?_
      obtain ⟨-, -, hlength, rfl⟩ := decode_eq_ok hread
      refine ih (before.push read) fun k hk place hplace => ?_
      rw [← commandOffset?_of_size hlength] at hplace
      exact h (k + 1) (Nat.succ_lt_succ hk) place hplace

end alike

end MachImage
