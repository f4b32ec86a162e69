import Mathlib.Data.Nat.Notation
import Mathlib.Data.List.Forall2
import MachImage.Proofs.Layout.Declared

/-! # Layouts a distance further on

`Layout.moved d` is the layout of the same slice when it starts `d` bytes further on in the
file.  Positions in the file grow by `d`, those of segments at most to the largest one;
addresses, sizes and all that counts from the start of the slice stay.  Recording a command
commutes with moving (`record_moved`), as long as no section is moved past the largest
position (`Frame.Movable`). -/

namespace MachImage

variable {d : ℕ}

/-! ### Positions -/

/-- The frame of the same slice `d` bytes further on. -/
def Frame.moved (d : ℕ) (frame : Frame) : Frame := { frame with base := frame.base + d }

/-- No offset of 32 bits is moved past the largest position. -/
def Frame.Movable (d : ℕ) (frame : Frame) : Prop :=
  d = 0 ∨ frame.base + d + UInt32.size ≤ UInt64.size

@[simp] theorem Frame.moved_width (frame : Frame) : (frame.moved d).width = frame.width := rfl

@[simp] theorem Frame.moved_zero (frame : Frame) : frame.moved 0 = frame := rfl

theorem addPositions_le (a b : ℕ) : addPositions a b ≤ maxPosition :=
  Nat.min_le_right _ _

/-- A file position grows by the distance, at most to the largest one. -/
theorem Frame.fileOffset_moved (frame : Frame) (relative : ℕ) :
    (frame.moved d).fileOffset relative = addPositions (frame.fileOffset relative) d := by
  simp only [Frame.fileOffset, Frame.moved, addPositions]
  omega

theorem Frame.Movable.fileOffset {frame : Frame} (h : frame.Movable d) (relative : UInt32) :
    (frame.moved d).fileOffset relative.toNat = frame.fileOffset relative.toNat + d := by
  rcases h with rfl | h
  · rfl
  · have hr : relative.toNat < UInt32.size := relative.toNat_lt
    simp only [Frame.fileOffset, Frame.moved, addPositions, maxPosition]
    omega

/-! ### Sections, segments and diagnostics -/

def Section.moved (d : ℕ) (s : Section) : Section := { s with offset := s.offset + d }

def Segment.moved (d : ℕ) (s : Segment) : Segment :=
  { s with fileOffset := addPositions s.fileOffset d }

def Segment.InRange (s : Segment) : Prop := s.fileOffset ≤ maxPosition

/-- The diagnostic with the command that it is about `d` bytes further on. -/
def Diagnostic.moved (d : ℕ) : Diagnostic → Diagnostic
  | unrecognizedCommand tag offset size => unrecognizedCommand tag (offset + d) size
  | undersizedCommand tag offset size => undersizedCommand tag (offset + d) size
  | unresolvedSymbol table position index => unresolvedSymbol table position index

@[simp] theorem Section.moved_address (s : Section) : (s.moved d).address = s.address := rfl

theorem Section.moved_zero : Section.moved 0 = id := rfl

theorem Segment.moved_zero {s : Segment} (h : s.InRange) : s.moved 0 = s := by
  simp only [Segment.moved, addPositions, Nat.add_zero, Nat.min_eq_left h]

theorem Diagnostic.moved_zero : Diagnostic.moved 0 = id := by
  funext diagnostic
  cases diagnostic <;> rfl

/-! ### Commands -/

/-- The tag and size of the same command `d` bytes further on. -/
def CommandHeader.moved (d : ℕ) (h : CommandHeader) : CommandHeader :=
  { h with offset := h.offset + d }

def LoadCommand.moved (d : ℕ) : LoadCommand → LoadCommand
  | segment command => segment { command with segment := command.segment.moved d }
  | command => command

/-- If the command declares a segment, its position is one of 64 bits. -/
def LoadCommand.InRange : LoadCommand → Prop
  | segment command => command.segment.InRange
  | _ => True

@[simp] theorem CommandHeader.moved_tag (h : CommandHeader) : (h.moved d).tag = h.tag := rfl

@[simp] theorem CommandHeader.moved_size (h : CommandHeader) : (h.moved d).size = h.size := rfl

@[simp] theorem CommandHeader.moved_isUndersized (h : CommandHeader) :
    (h.moved d).isUndersized = h.isUndersized := rfl

@[simp] theorem CommandHeader.moved_offset (h : CommandHeader) :
    (h.moved d).offset = h.offset + d := rfl

theorem CommandHeader.stop_moved (h : CommandHeader) : (h.moved d).stop = h.stop + d := by
  simp only [CommandHeader.stop, CommandHeader.moved, CommandHeader.effectiveSize]
  omega

theorem LoadCommand.moved_eq_unrecognized (command : LoadCommand) :
    command.moved d = .unrecognized ↔ command = .unrecognized := by
  cases command <;> simp [LoadCommand.moved]

theorem LoadCommand.diagnostics_moved_header (h : CommandHeader) (command : LoadCommand) :
    command.diagnostics (h.moved d) = (command.diagnostics h).map (Diagnostic.moved d) := by
  by_cases hs : h.isUndersized = true <;> by_cases hc : command = .unrecognized <;>
    simp [LoadCommand.diagnostics, hs, hc, Diagnostic.moved]

theorem LoadCommand.diagnostics_moved (h : CommandHeader) (command : LoadCommand) :
    (command.moved d).diagnostics (h.moved d) =
      (command.diagnostics h).map (Diagnostic.moved d) := by
  have hsame : (command.moved d).diagnostics (h.moved d) = command.diagnostics (h.moved d) := by
    simp only [LoadCommand.diagnostics, LoadCommand.moved_eq_unrecognized]
  rw [hsame, LoadCommand.diagnostics_moved_header]

/-! ### Layouts -/

def Layout.moved (d : ℕ) (layout : Layout) : Layout :=
  { layout with
    frame := layout.frame.moved d
    sections := layout.sections.map (Section.moved d)
    segments := layout.segments.map (Segment.moved d)
    diagnostics := layout.diagnostics.map (Diagnostic.moved d) }

/-- The positions of all segments are of 64 bits. -/
def Layout.InRange (layout : Layout) : Prop := ∀ s ∈ layout.segments, s.InRange

namespace Layout

variable {layout : Layout}

theorem addSection_moved (h : layout.frame.Movable d) (header : SectionHeader) :
    (layout.moved d).addSection header = (layout.addSection header).moved d := by
  unfold addSection
  cases SectionRule.for? header with
  | none => rfl
  | some rule =>
      have ho := h.fileOffset header.offset
      simp only [moved, Array.map_push, Section.moved, ho]

@[simp] theorem addSection_frame (layout : Layout) (header : SectionHeader) :
    (layout.addSection header).frame = layout.frame := by
  unfold addSection
  cases SectionRule.for? header <;> rfl

theorem foldl_addSection_moved (h : layout.frame.Movable d) (headers : List SectionHeader) :
    headers.foldl addSection (layout.moved d) = (headers.foldl addSection layout).moved d := by
  induction headers generalizing layout with
  | nil => rfl
  | cons header rest ih =>
      simp only [List.foldl_cons, addSection_moved h]
      exact ih (by rwa [addSection_frame])

@[simp] theorem foldl_addSection_frame (layout : Layout) (headers : List SectionHeader) :
    (headers.foldl addSection layout).frame = layout.frame := by
  rw [foldl_addSection]

@[simp] theorem foldl_addSection_segments (layout : Layout) (headers : List SectionHeader) :
    (headers.foldl addSection layout).segments = layout.segments := by
  rw [foldl_addSection]

theorem addLinkEdit_moved (h : layout.frame.Movable d) (kind : SectionKind) (label : String)
    (offset size : UInt32) :
    (layout.moved d).addLinkEdit kind label offset size =
      (layout.addLinkEdit kind label offset size).moved d := by
  have ho := h.fileOffset offset
  simp only [addLinkEdit, moved, Array.map_push, Section.moved, ho]

theorem addSegment_moved (h : layout.frame.Movable d) (command : SegmentCommand) :
    (layout.moved d).addSegment { command with segment := command.segment.moved d } =
      (layout.addSegment command).moved d := by
  simp only [addSegment, ← Array.foldl_toList, foldl_addSection_moved h]
  simp only [moved, Array.map_push]

theorem apply_moved (h : layout.frame.Movable d) (command : LoadCommand) :
    (layout.moved d).apply (command.moved d) = (layout.apply command).moved d := by
  cases command with
  | segment command => exact addSegment_moved h command
  | symtab symtab =>
      simp only [LoadCommand.moved, apply, addLinkEdit_moved h]
      rfl
  | linkEdit kind offset size =>
      cases kind <;> first | exact addLinkEdit_moved h _ _ _ _ | rfl
  | path kind path => cases kind <;> rfl
  | _ => rfl

theorem apply_frame (layout : Layout) (command : LoadCommand) :
    (layout.apply command).frame = layout.frame := by
  cases command with
  | segment command => simp only [apply, addSegment, ← Array.foldl_toList, foldl_addSection_frame]
  | linkEdit kind offset size => cases kind <;> rfl
  | _ => rfl

theorem InRange.apply (h : layout.InRange) {command : LoadCommand} (hc : command.InRange) :
    (layout.apply command).InRange := by
  cases command with
  | segment command =>
      intro s hs
      simp only [Layout.apply, addSegment, ← Array.foldl_toList, foldl_addSection_segments,
        Array.mem_push] at hs
      rcases hs with hs | rfl
      · exact h s hs
      · exact hc
  | linkEdit kind offset size => cases kind <;> exact h
  | _ => exact h

@[simp] theorem record_frame (layout : Layout) (read : CommandHeader × LoadCommand) :
    (layout.record read).frame = layout.frame :=
  apply_frame _ _

theorem InRange.record (h : layout.InRange) (header : CommandHeader) {command : LoadCommand}
    (hc : command.InRange) : (layout.record (header, command)).InRange := by
  have h' : Layout.InRange
      { layout with diagnostics := layout.diagnostics ++ command.diagnostics header } := h
  exact h'.apply hc

theorem record_moved (h : layout.frame.Movable d) (header : CommandHeader)
    (command : LoadCommand) :
    (layout.moved d).record (header.moved d, command.moved d) =
      (layout.record (header, command)).moved d := by
  have happly := @apply_moved d
    { layout with diagnostics := layout.diagnostics ++ command.diagnostics header } h command
  have hdiagnostics : (layout.moved d).diagnostics ++ (command.diagnostics header).map
      (Diagnostic.moved d) = (layout.diagnostics ++ command.diagnostics header).map
        (Diagnostic.moved d) := by
    apply Array.toList_inj.mp
    simp [moved]
  simp only [record, ← happly, LoadCommand.diagnostics_moved, hdiagnostics]
  rfl

end Layout

end MachImage
