import MachImage.LoadCommand
import MachImage.Proofs.Decoder.Inherited

/-! # Properties that load commands inherit

A load command is read by moving the cursor and fetching bytes alone, whatever its tag, so
that every inherited property holds of reading it (`Inherited.loadCommand`): one step for
each field of a command, and one case for each tag. -/

namespace MachImage.Decoder.Inherited

variable {P : {α : Type} → Decoder α → Prop} (h : Inherited P)
include h

/-! ### Segments -/

theorem sectionHeader (width : Width) : P (SectionHeader.decode width) := by
  unfold SectionHeader.decode
  refine h.bind h.name16 fun _ => h.bind h.name16 fun _ => ?_
  refine h.bind (h.word width) fun _ => h.bind (h.word width) fun _ => ?_
  refine h.bind h.u32 fun _ => h.bind h.u32 fun _ => h.bind h.u32 fun _ => ?_
  refine h.bind h.u32 fun _ => h.bind h.u32 fun _ => h.bind h.u32 fun _ => ?_
  refine h.bind h.u32 fun _ => ?_
  dsimp only
  split
  · exact h.bind h.u32 fun _ => h.pure _
  · exact h.pure _

theorem segmentCommand (frame : Frame) : P (SegmentCommand.decode frame) := by
  unfold SegmentCommand.decode
  refine h.bind h.name16 fun _ => h.bind (h.word _) fun _ => h.bind (h.word _) fun _ => ?_
  refine h.bind (h.word _) fun _ => h.bind (h.word _) fun _ => h.bind h.u32 fun _ => ?_
  refine h.bind h.u32 fun _ => h.bind h.u32 fun count => h.bind h.u32 fun _ => ?_
  exact h.bind (h.repeated (h.sectionHeader frame.width) count.toNat) fun _ => h.pure _

/-! ### Tables, versions and the entry point -/

theorem symtab : P Symtab.decode :=
  h.bind h.u32 fun _ => h.bind h.u32 fun _ => h.bind h.u32 fun _ => h.bind h.u32 fun _ => h.pure _

theorem indirectSymbols : P IndirectSymbols.decode :=
  h.bind (h.repeated h.u32 12) fun _ => h.bind h.u32 fun _ => h.bind h.u32 fun _ =>
    h.bind (h.repeated h.u32 4) fun _ => h.pure _

theorem minimumVersion (platform : String) : P (MinimumVersion.decode platform) :=
  h.bind h.u32 fun _ => h.bind h.u32 fun _ => h.pure _

theorem buildVersion : P MinimumVersion.decodeBuild :=
  h.bind h.u32 fun _ => h.bind (h.minimumVersion _) fun _ => h.bind h.u32 fun _ => h.pure _

theorem entryPoint : P EntryPoint.decode :=
  h.bind h.u64 fun _ => h.bind h.u64 fun _ => h.pure _

/-! ### Commands with a header -/

theorem commandHeader : P CommandHeader.decode :=
  h.bind h.position fun _ => h.bind h.u32 fun _ => h.bind h.u32 fun _ => h.pure _

/-- The cursor is moved to the start of the text first, unless there is none. -/
theorem commandText (header : CommandHeader) (start : UInt32) : P (header.decodeText start) := by
  unfold CommandHeader.decodeText
  dsimp only
  split
  · exact h.pure _
  · exact h.bind (h.seek _) fun _ => h.bind (h.bytes _) fun _ => h.pure _

theorem dylib (header : CommandHeader) (kind : DylibKind) : P (Dylib.decode header kind) :=
  h.bind h.u32 fun start => h.bind h.u32 fun _ => h.bind h.u32 fun _ => h.bind h.u32 fun _ =>
    h.bind (h.commandText header start) fun _ => h.pure _

theorem thread (header : CommandHeader) : P (skipThread header) :=
  h.bind h.u32 fun _ => h.bind h.u32 fun _ => h.bind (h.bytes _) fun _ => h.pure _

theorem dataInCode : P skipDataInCode :=
  h.bind h.u32 fun _ => h.bind h.u16 fun _ => h.bind h.u16 fun _ => h.pure _

/-! ### All commands -/

theorem commandBody (frame : Frame) (header : CommandHeader) (tag : Tag) :
    P (LoadCommand.decodeBody frame header tag) := by
  cases tag with
  | segment width => exact h.bind (h.segmentCommand frame) fun _ => h.pure _
  | symtab => exact h.bind h.symtab fun _ => h.pure _
  | dysymtab => exact h.bind h.indirectSymbols fun _ => h.pure _
  | dyldInfo => exact h.bind (h.repeated h.u32 10) fun _ => h.pure _
  | dyldInfoOnly => exact h.bind (h.repeated h.u32 10) fun _ => h.pure _
  | dylib kind => exact h.bind (h.dylib header kind) fun _ => h.pure _
  | path kind =>
      exact h.bind h.u32 fun start => h.bind (h.commandText header start) fun _ => h.pure _
  | uuid => exact h.bind (h.bytes 16) fun _ => h.pure _
  | versionMinMacos => exact h.bind (h.minimumVersion _) fun _ => h.pure _
  | versionMinIos => exact h.bind (h.minimumVersion _) fun _ => h.pure _
  | versionMinTvos => exact h.bind (h.minimumVersion _) fun _ => h.pure _
  | versionMinWatchos => exact h.bind (h.minimumVersion _) fun _ => h.pure _
  | buildVersion => exact h.bind h.buildVersion fun _ => h.pure _
  | sourceVersion => exact h.bind h.u64 fun _ => h.pure _
  | main => exact h.bind h.entryPoint fun _ => h.pure _
  | linkEdit kind => exact h.bind h.u32 fun _ => h.bind h.u32 fun _ => h.pure _
  | dataInCode => exact h.bind h.dataInCode fun _ => h.pure _
  | thread => exact h.bind (h.thread header) fun _ => h.pure _
  | unixThread => exact h.bind (h.thread header) fun _ => h.pure _

theorem loadCommand (frame : Frame) : P (LoadCommand.decode frame) := by
  unfold LoadCommand.decode
  refine h.bind h.commandHeader fun header => ?_
  have hend : ∀ command : LoadCommand,
      P (do Decoder.seek header.stop; return (header, command)) :=
    fun command => h.bind (h.seek _) fun _ => h.pure _
  cases Tag.ofRaw? header.tag with
  | none => exact h.bind (h.pure _) hend
  | some tag => exact h.bind (h.commandBody frame header tag) hend

end MachImage.Decoder.Inherited
