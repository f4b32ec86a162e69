import MachImage.Layout
import MachImage.Proofs.Decoder.Run
import MachImage.Proofs.Layout.Recorded
import MachImage.Proofs.LoadCommand.Inherited

/-! # Where load commands start

The load commands of a slice stand behind its header, and each one starts where the size of
the one before it says, with a size below eight counted as eight: `commandOffset?` tells so
from the bytes of the file alone.  Reading the commands follows these offsets
(`Layout.commands_of_decode`), whatever the tags are and wherever the decoder of a command
left the cursor, because the last step of reading a command is to go to its stop
(`LoadCommand.decode_eq_ok`). -/

namespace MachImage

open Decoder

/-- Where the load command number `k` starts, when the first one starts at `start` and all
sizes in front are there. -/
def commandOffset? (input : Input) (order : ByteOrder) (start : ℕ) : (k : ℕ) → Option ℕ
  | 0 => some start
  | k + 1 => do
    let offset ← commandOffset? input order start k
    let size ← input.u32? order (offset + 4)
    return offset + max size.toNat 8

/-- Where the load command starts that a diagnostic is about. -/
def Diagnostic.commandOffset? : Diagnostic → Option ℕ
  | unrecognizedCommand _ offset _ => some offset
  | undersizedCommand _ offset _ => some offset
  | unresolvedSymbol .. => none

theorem Diagnostic.commandOffset?_of_mem {header : CommandHeader} {isSmall isUnknown : Prop}
    [Decidable isSmall] [Decidable isUnknown] {d : Diagnostic}
    (h : d ∈ (if isSmall then [undersizedCommand header.tag header.offset header.size] else []) ++
      (if isUnknown then [unrecognizedCommand header.tag header.offset header.size] else [])) :
    d.commandOffset? = some header.offset := by
  simp only [List.mem_append, List.mem_ite_nil_right, List.mem_singleton] at h
  obtain ⟨-, rfl⟩ | ⟨-, rfl⟩ := h <;> rfl

/-- The load command number `k` is read where it starts, with the tag and size that stand
there, and leaves the cursor where the next one starts. -/
structure ReadsCommand (input : Input) (frame : Frame) (start k : ℕ)
    (read : CommandHeader × LoadCommand) : Prop where
  offset_eq : commandOffset? input frame.order start k = some read.1.offset
  tag_eq : input.u32? frame.order read.1.offset = some read.1.tag
  size_eq : input.u32? frame.order (read.1.offset + 4) = some read.1.size
  run : LoadCommand.decode frame input ⟨read.1.offset, frame.order⟩ =
    .ok read ⟨read.1.offset + max read.1.size.toNat 8, frame.order⟩

variable {input : Input} {c c' : Cursor}

/-! ### One command -/

/-- Reads what follows the tag and size of a command, if the tag has a meaning. -/
def LoadCommand.decodeContent (frame : Frame) (header : CommandHeader) : Decoder LoadCommand :=
  match Tag.ofRaw? header.tag with
  | some tag => decodeBody frame header tag
  | none => pure .unrecognized

theorem LoadCommand.decode_eq (frame : Frame) :
    decode frame = do
      let header ← CommandHeader.decode
      let command ← decodeContent frame header
      seek header.stop
      return (header, command) := by
  unfold decode decodeContent
  congr
  funext header
  cases Tag.ofRaw? header.tag <;> rfl

/-- A command has no meaning when its tag has none, and a segment is what was read as one. -/
theorem LoadCommand.decodeContent_eq_ok {frame : Frame} {header : CommandHeader}
    {command : LoadCommand} (h : decodeContent frame header input c = .ok command c') :
    (command = .unrecognized ↔ Tag.ofRaw? header.tag = none) ∧
      ∀ s, command = .segment s → SegmentCommand.decode frame input c = .ok s c' := by
  unfold decodeContent at h
  cases htag : Tag.ofRaw? header.tag with
  | none =>
      rw [htag] at h
      obtain ⟨rfl, -⟩ := pure_eq_ok h
      exact ⟨⟨fun _ => rfl, fun _ => rfl⟩, nofun⟩
  | some tag =>
      rw [htag] at h
      suffices hmeaning : command ≠ .unrecognized ∧
          ∀ s, command = .segment s → SegmentCommand.decode frame input c = .ok s c' from
        ⟨⟨fun hnone => absurd hnone hmeaning.1, nofun⟩, hmeaning.2⟩
      cases tag with
      | segment width =>
          obtain ⟨s, c₁, hs, hpure⟩ := bind_eq_ok.mp h
          obtain ⟨rfl, rfl⟩ := pure_eq_ok hpure
          refine ⟨nofun, ?_⟩
          rintro _ ⟨⟩
          exact hs
      | path kind =>
          obtain ⟨start, c₁, -, h⟩ := bind_eq_ok.mp h
          obtain ⟨text, c₂, -, h⟩ := bind_eq_ok.mp h
          obtain ⟨rfl, -⟩ := pure_eq_ok h
          exact ⟨nofun, nofun⟩
      | linkEdit kind =>
          obtain ⟨offset, c₁, -, h⟩ := bind_eq_ok.mp h
          obtain ⟨size, c₂, -, h⟩ := bind_eq_ok.mp h
          obtain ⟨rfl, -⟩ := pure_eq_ok h
          exact ⟨nofun, nofun⟩
      | _ =>
          obtain ⟨value, c₁, -, h⟩ := bind_eq_ok.mp h
          obtain ⟨rfl, -⟩ := pure_eq_ok h
          exact ⟨nofun, nofun⟩

theorem CommandHeader.decode_eq_ok {header : CommandHeader}
    (h : decode input c = .ok header c') :
    header.offset = c.position ∧ input.u32? c.order c.position = some header.tag ∧
      input.u32? c.order (c.position + 4) = some header.size := by
  unfold decode at h
  rw [bind_of_ok (position_apply input c)] at h
  obtain ⟨tag, htag, h⟩ := bind_u32_eq_ok h
  obtain ⟨size, hsize, h⟩ := bind_u32_eq_ok h
  obtain ⟨rfl, -⟩ := pure_eq_ok h
  exact ⟨rfl, htag, hsize⟩

theorem CommandHeader.decode_of_u32? {header : CommandHeader} {order : ByteOrder}
    (htag : input.u32? order header.offset = some header.tag)
    (hsize : input.u32? order (header.offset + 4) = some header.size) :
    decode input ⟨header.offset, order⟩ = .ok header ⟨header.offset + 8, order⟩ := by
  have htag' : u32 input ⟨header.offset, order⟩ =
      .ok header.tag ⟨header.offset + 4, order⟩ := by
    rw [u32_apply, htag]
  have hsize' : u32 input ⟨header.offset + 4, order⟩ =
      .ok header.size ⟨header.offset + 4 + 4, order⟩ := by
    rw [u32_apply, hsize]
  unfold decode
  rw [bind_of_ok (position_apply input _), bind_of_ok htag', bind_of_ok hsize']
  rfl

/-- The cursor is taken to the stop of the command, whatever reading its content did to it, and
keeps its byte order. -/
theorem LoadCommand.decode_eq_ok {frame : Frame} {read : CommandHeader × LoadCommand}
    (h : decode frame input c = .ok read c') :
    read.1.offset = c.position ∧ input.u32? c.order c.position = some read.1.tag ∧
      input.u32? c.order (c.position + 4) = some read.1.size ∧
      c' = ⟨c.position + max read.1.size.toNat 8, c.order⟩ := by
  have horder := inherited_keepsOrder.loadCommand frame input c read c' h
  rw [decode_eq] at h
  obtain ⟨header, c₁, hheader, h⟩ := bind_eq_ok.mp h
  obtain ⟨command, c₂, -, h⟩ := bind_eq_ok.mp h
  rw [bind_of_ok (seek_apply input c₂ header.stop)] at h
  obtain ⟨rfl, rfl⟩ := pure_eq_ok h
  obtain ⟨hoffset, htag, hsize⟩ := CommandHeader.decode_eq_ok hheader
  refine ⟨hoffset, htag, hsize, ?_⟩
  rw [← hoffset, ← horder]
  rfl

theorem LoadCommand.content_of_decode {frame : Frame} {read : CommandHeader × LoadCommand}
    (h : decode frame input c = .ok read c') :
    (read.2 = .unrecognized ↔ Tag.ofRaw? read.1.tag = none) ∧
      ∀ s, read.2 = .segment s → ∃ c₁ c₂, SegmentCommand.decode frame input c₁ = .ok s c₂ := by
  rw [decode_eq] at h
  obtain ⟨header, c₁, -, h⟩ := bind_eq_ok.mp h
  obtain ⟨command, c₂, hcommand, h⟩ := bind_eq_ok.mp h
  rw [bind_of_ok (seek_apply input c₂ header.stop)] at h
  obtain ⟨rfl, -⟩ := pure_eq_ok h
  obtain ⟨hmeaning, hsegment⟩ := decodeContent_eq_ok hcommand
  exact ⟨hmeaning, fun s hs => ⟨c₁, c₂, hsegment s hs⟩⟩

/-! ### All commands -/

section commands

variable {order : ByteOrder} {start : ℕ}

/-- The offsets behind the first command are those of a row that starts at the second one. -/
theorem commandOffset?_of_size {size : UInt32} (h : input.u32? order (start + 4) = some size)
    (k : ℕ) :
    commandOffset? input order start (k + 1) =
      commandOffset? input order (start + max size.toNat 8) k := by
  induction k with
  | zero => simp [commandOffset?, h]
  | succ k ih => rw [commandOffset?, ih, commandOffset?]

variable {frame : Frame} {commands : List (CommandHeader × LoadCommand)}

/-- Commands in a row end where the next one would start. -/
theorem commandOffset?_of_runs (h : Runs (LoadCommand.decode frame) input c commands c') :
    commandOffset? input c.order c.position commands.length = some c'.position ∧
      c'.order = c.order := by
  induction h with
  | nil c => exact ⟨rfl, rfl⟩
  | cons hfirst _ ih =>
      obtain ⟨-, -, hsize, rfl⟩ := LoadCommand.decode_eq_ok hfirst
      rw [List.length_cons, commandOffset?_of_size hsize]
      exact ih

theorem readsCommand_of_runs (h : Runs (LoadCommand.decode frame) input c commands c')
    (horder : c.order = frame.order) (k : ℕ) (hk : k < commands.length) :
    ReadsCommand input frame c.position k commands[k] := by
  induction h generalizing k with
  | nil c => cases hk
  | @cons c c₁ c₂ read rest hfirst _ ih =>
      obtain ⟨hoffset, htag, hsize, rfl⟩ := LoadCommand.decode_eq_ok hfirst
      cases k with
      | zero =>
          obtain ⟨position, order⟩ := c
          subst hoffset horder
          exact ⟨rfl, htag, hsize, hfirst⟩
      | succ k =>
          -- The rest is a row that starts where this command ends; its offsets count from there.
          have hrest := ih horder k (Nat.lt_of_succ_lt_succ hk)
          refine { hrest with offset_eq := ?_ }
          rw [← horder, commandOffset?_of_size hsize, horder]
          exact hrest.offset_eq

theorem ReadsCommand.le_size {k : ℕ} {read : CommandHeader × LoadCommand}
    (h : ReadsCommand input frame start k read) {offset : ℕ}
    (hoffset : commandOffset? input frame.order start k = some offset) :
    offset + 8 ≤ input.size := by
  have hsize := Input.le_size_of_u32? h.size_eq
  have hsame := Option.some.inj (hoffset.symm.trans h.offset_eq)
  omega

end commands

/-! ### Headers -/

/-- The magic number tells the frame; the load commands are counted behind four more fields and
start where the header ends. -/
theorem Header.decode_eq_ok {base : ℕ} {frame : Frame} {header : Header}
    (h : decode base input c = .ok (frame, header) c') :
    ∃ magic, input.u32? .little base = some magic ∧ Frame.ofMagic? magic base = some frame ∧
      input.u32? frame.order (base + 16) = some header.commandCount ∧
      c' = ⟨base + frame.headerSize, frame.order⟩ := by
  unfold decode at h
  rw [bind_of_ok (seek_apply input c base), bind_of_ok (setOrder_apply input _ .little)] at h
  obtain ⟨magic, hmagic, h⟩ := bind_u32_eq_ok h
  cases hframe : Frame.ofMagic? magic base with
  | none =>
      rw [hframe] at h
      cases h
  | some frame' =>
      rw [hframe] at h
      dsimp only at h
      rw [bind_of_ok (setOrder_apply input _ frame'.order)] at h
      obtain ⟨cpuType, -, h⟩ := bind_u32_eq_ok h
      obtain ⟨subtype, -, h⟩ := bind_u32_eq_ok h
      obtain ⟨fileType, -, h⟩ := bind_u32_eq_ok h
      obtain ⟨count, hcount, h⟩ := bind_u32_eq_ok h
      obtain ⟨commandsSize, -, h⟩ := bind_u32_eq_ok h
      obtain ⟨flags, -, h⟩ := bind_u32_eq_ok h
      split at h
      · next hwidth =>
        obtain ⟨reserved, -, h⟩ := bind_u32_eq_ok h
        cases h
        exact ⟨magic, hmagic, hframe, hcount, by simp [Frame.headerSize, hwidth]⟩
      · next hwidth =>
        cases h
        refine ⟨magic, hmagic, hframe, hcount, ?_⟩
        cases hw : frame.width with
        | bits32 => simp [Frame.headerSize, hw]
        | bits64 => exact absurd hw hwidth

/-- The magic number of a slice with this frame stands at `base`. -/
def Input.StartsSlice (input : Input) (base : ℕ) (frame : Frame) : Prop :=
  ∃ magic, input.u32? .little base = some magic ∧ Frame.ofMagic? magic base = some frame

theorem Input.StartsSlice.eq {base : ℕ} {frame frame' : Frame} (h : input.StartsSlice base frame)
    (h' : input.StartsSlice base frame') : frame = frame' := by
  obtain ⟨magic, hmagic, hframe⟩ := h
  obtain ⟨magic', hmagic', hframe'⟩ := h'
  obtain rfl := Option.some.inj (hmagic.symm.trans hmagic')
  exact Option.some.inj (hframe.symm.trans hframe')

theorem Header.startsSlice_of_decode {base : ℕ} {frame : Frame} {header : Header}
    (h : decode base input c = .ok (frame, header) c') : input.StartsSlice base frame := by
  obtain ⟨magic, hmagic, hframe, -⟩ := decode_eq_ok h
  exact ⟨magic, hmagic, hframe⟩

/-! ### Layouts -/

/-- **Load commands are visited one behind the other.**  A layout that is decoded is put
together of as many commands as the header counts.  The first one starts behind the header,
28 or 32 bytes from the start of the slice, and each of the others where the size of the one
before says, at least eight bytes on; each is read where it starts, with the tag and size that
stand there in the byte order of the slice; and the cursor ends where one more would start, in
that order.  Tag and size of every command are in the file. -/
theorem Layout.commands_of_decode {base : ℕ} {layout : Layout}
    (h : decode base input c = .ok layout c') :
    ∃ (magic : UInt32) (commands : List (CommandHeader × LoadCommand)),
      input.u32? .little base = some magic ∧ Frame.ofMagic? magic base = some layout.frame ∧
      input.u32? layout.frame.order (base + 16) = some layout.header.commandCount ∧
      commands.length = layout.header.commandCount.toNat ∧
      layout = commands.foldl record { frame := layout.frame, header := layout.header } ∧
      (∀ k (hk : k < commands.length),
        ReadsCommand input layout.frame (base + layout.frame.headerSize) k commands[k] ∧
        ∀ offset, commandOffset? input layout.frame.order (base + layout.frame.headerSize) k =
          some offset → offset + 8 ≤ input.size) ∧
      commandOffset? input layout.frame.order (base + layout.frame.headerSize)
        commands.length = some c'.position ∧
      c'.order = layout.frame.order := by
  obtain ⟨⟨frame, header⟩, c₁, hheader, h⟩ := bind_eq_ok.mp h
  obtain ⟨commands, c₂, hcommands, h⟩ := bind_eq_ok.mp h
  obtain ⟨rfl, rfl⟩ := pure_eq_ok h
  obtain ⟨magic, hmagic, hframe, hcount, rfl⟩ := Header.decode_eq_ok hheader
  obtain ⟨hsize, hruns⟩ := runs_of_repeated hcommands
  obtain ⟨hstop, horder⟩ := commandOffset?_of_runs hruns
  have hreads := readsCommand_of_runs hruns rfl
  rw [← Array.foldl_toList]
  have hlayout := foldl_record frame header commands.toList
  have hframe' : (commands.toList.foldl record { frame, header }).frame = frame := by
    rw [hlayout]
    rfl
  have hheader' : (commands.toList.foldl record { frame, header }).header = header := by
    rw [hlayout]
    rfl
  rw [hframe', hheader']
  exact ⟨magic, commands.toList, hmagic, hframe, hcount, by rw [Array.length_toList, hsize], rfl,
    fun k hk => ⟨hreads k hk, fun _ => (hreads k hk).le_size⟩, hstop, horder⟩

/-- An unknown command of four bytes counts as eight, one of eight bytes is read sixteen bytes
on into the next, and still the next ones are found where the sizes say. -/
theorem Layout.commands_of_decode_odd :
    let file : Input := #[0xCE, 0xFA, 0xED, 0xFE, 7, 0, 0, 0, 3, 0, 0, 0, 2, 0, 0, 0, 3, 0, 0, 0,
      32, 0, 0, 0, 0, 0, 0, 0,
      0x99, 0, 0, 0, 4, 0, 0, 0, 0x1B, 0, 0, 0, 8, 0, 0, 0,
      0x2A, 0, 0, 0, 16, 0, 0, 0, 0, 0, 0, 0, 0, 1, 0, 0]
    ∃ layout c', decode 0 file {} = .ok layout c' ∧ c' = ⟨60, .little⟩ ∧
      (List.range 4).map (commandOffset? file .little 28) =
        [some 28, some 36, some 44, some 60] ∧
      ∃ commands : List (CommandHeader × LoadCommand), commands.length = 3 ∧
        layout = commands.foldl record { frame := layout.frame, header := layout.header } ∧
        ∀ k (hk : k < commands.length),
          ReadsCommand file { width := .bits32, order := .little, base := 0 } 28 k commands[k] := by
  intro file
  have hread : ((decode 0).answer file {}).toOption.map
      (fun layout => (layout.frame, layout.header.commandCount)) =
        some ({ width := .bits32, order := .little, base := 0 }, 3) := by
    decide +kernel
  obtain ⟨layout, hanswer, hlayout⟩ := exists_of_toOption_map hread
  obtain ⟨hframe, hcount⟩ := Prod.mk.inj hlayout
  obtain ⟨⟨position, order⟩, hrun⟩ := exists_of_answer_ok hanswer
  have hoffsets : (List.range 4).map (commandOffset? file .little 28) =
      [some 28, some 36, some 44, some 60] := by decide
  obtain ⟨magic, commands, -, -, -, hlength, hfold, hreads, hstop, horder⟩ :=
    commands_of_decode hrun
  rw [hcount] at hlength
  rw [hframe] at hreads hstop horder
  rw [hlength] at hstop
  have hposition : some 60 = some position := .trans (by decide) hstop
  cases hposition
  cases horder
  exact ⟨layout, _, hrun, rfl, hoffsets, commands, hlength, hfold, fun k hk => (hreads k hk).1⟩

end MachImage
