import MachImage.Proofs.LoadCommand.OwnBytes
import MachImage.Proofs.Symbol.Resolution

/-! # Texts in load commands

References to libraries and paths hold a text.  A number in front of it says where in the
command it starts, and this can be any number at all: one that points at the fields of the
command, so that these are read as text, or one that points past its end.  All commands of
this kind are read alike, first the fields (`Tag.textFields`) and then the text.

The text is made of the command's own bytes and of nothing else (`CommandHeader.IsTextFrom`).
A command that ends past the end of the file is not read at all, so that no text is cut short
by the end of the file (`LoadCommand.text_of_decode`). -/

namespace MachImage

open Decoder Text

/-! ### Commands that hold a text -/

/-- Commands with this tag hold a text. -/
def Tag.HoldsText : Tag → Prop
  | .dylib _ | .path _ => True
  | _ => False

/-- The command is one of this tag with this text in it. -/
def LoadCommand.Records (tag : Tag) (text : String) : LoadCommand → Prop
  | .dylib reference => tag = .dylib reference.kind ∧ reference.path = text
  | .path kind recorded => tag = .path kind ∧ recorded = text
  | _ => False

namespace CommandHeader

/-- A command that holds a text stands in the file, and its text starts at its byte `start`. -/
structure HoldsText (header : CommandHeader) (input : Input) (order : ByteOrder) (tag : Tag)
    (start : UInt32) : Prop where
  tag_eq : input.u32? order header.offset = some header.tag
  size_eq : input.u32? order (header.offset + 4) = some header.size
  start_eq : input.u32? order (header.offset + 8) = some start
  ofRaw?_eq : Tag.ofRaw? header.tag = some tag
  holdsText : tag.HoldsText

/-- The bytes of a command, as far as they are in the file. -/
def own (header : CommandHeader) (input : Input) : Array UInt8 :=
  input.extract header.offset (header.offset + header.size.toNat)

/-- What a command holds as its text from its byte `start` on. -/
structure IsTextFrom (header : CommandHeader) (input : Input) (start : ℕ) (text : String) :
    Prop where
  /-- There is no text behind the end of the command. -/
  eq_empty : header.size.toNat ≤ start → text = ""
  /-- All bytes of the command are there, and they are read up to the first NUL among them. -/
  lossy : start < header.size.toNat → header.offset + header.size.toNat ≤ input.size ∧
    ∃ stop, NameEndsAt (header.own input) start stop ∧
      Utf8.Lossy ((header.own input).extract start stop).toList text.toList

variable {header : CommandHeader} {input : Input} {start : UInt32} {c c' : Cursor}

/-! ### Texts -/

theorem size_own (h : header.offset + header.size.toNat ≤ input.size) :
    (header.own input).size = header.size.toNat := by
  rw [own, Array.size_extract]
  omega

theorem window?_rest (h : header.offset + header.size.toNat ≤ input.size)
    (hlt : start.toNat < header.size.toNat) :
    input.window? (header.offset + start.toNat) (header.size.toNat - start.toNat) =
      some ((header.own input).extract start.toNat header.size.toNat) := by
  have hstop : header.offset + start.toNat + (header.size.toNat - start.toNat) =
      header.offset + header.size.toNat := by omega
  rw [Input.window?, hstop, if_pos h, own, Array.extract_extract, Nat.min_self]

theorem decodeText_of_le (h : header.size.toNat ≤ start.toNat) :
    header.decodeText start input c = .ok "" c := by
  have hnone : header.remainingFrom start.toNat = 0 := Nat.sub_eq_zero_of_le h
  unfold decodeText
  rw [hnone]
  rfl

theorem decodeText_of_lt (h : start.toNat < header.size.toNat) :
    header.decodeText start input c =
      match input.window? (header.offset + start.toNat) (header.size.toNat - start.toNat) with
      | some w => .ok (upToNul w.toList) { c with
          position := header.offset + start.toNat + (header.size.toNat - start.toNat) }
      | none => .error (.truncated (header.offset + start.toNat)
          (header.size.toNat - start.toNat)) { c with
            position := max (header.offset + start.toNat) input.size } := by
  have hsome : header.size.toNat - start.toNat ≠ 0 := Nat.sub_ne_zero_of_lt h
  have hread : header.decodeText start = do
      seek (header.offset + start.toNat)
      return upToNul (← bytes (header.size.toNat - start.toNat)).toList := if_neg hsome
  rw [hread, bind_of_ok (seek_apply input c _), bind_apply, bytes_apply _ _ hsome]
  cases input.window? (header.offset + start.toNat) (header.size.toNat - start.toNat) <;> rfl

theorem isTextFrom_of_decodeText {text : String}
    (h : header.decodeText start input c = .ok text c') :
    header.IsTextFrom input start.toNat text := by
  rcases Nat.lt_or_ge start.toNat header.size.toNat with hlt | hle
  · rw [decodeText_of_lt hlt] at h
    split at h <;> cases h
    next w hw =>
      have hinside : header.offset + header.size.toNat ≤ input.size := by
        have hle := (Input.window?_eq_some hw).1
        omega
      have hsize := size_own hinside
      obtain rfl := Option.some.inj ((window?_rest hinside hlt).symm.trans hw)
      have hend := NameEndsAt.nulPosition (header.own input) start.toNat
        (header.size.toNat - start.toNat) (by omega)
      have hname := hend.nameAt?_eq_some (by omega)
      have hrest : ((header.own input).extract start.toNat header.size.toNat).toList =
          (header.own input).toList.drop start.toNat := by
        rw [Array.toList_extract, List.extract_eq_take_drop, List.take_of_length_le]
        rw [List.length_drop, Array.length_toList]
        omega
      rw [nameAt?_eq, if_pos (by omega), ← hrest] at hname
      refine ⟨fun hle => absurd hlt (Nat.not_lt.mpr hle), fun _ => ⟨hinside, _, hend, ?_⟩⟩
      rw [Option.some.inj hname, String.toList_ofList]
      exact Utf8.decode_eq_iff_lossy.mp rfl
  · rw [decodeText_of_le hle] at h
    cases h
    exact ⟨fun _ => rfl, fun hlt => absurd hlt (Nat.not_lt.mpr hle)⟩

/-- A text is read unless the command ends past the end of the file. -/
theorem exists_decodeText_iff :
    (∃ text c', header.decodeText start input c = .ok text c') ↔
      (start.toNat < header.size.toNat → header.offset + header.size.toNat ≤ input.size) := by
  constructor
  · rintro ⟨text, c', h⟩ hlt
    exact ((isTextFrom_of_decodeText h).lossy hlt).1
  · intro hinside
    rcases Nat.lt_or_ge start.toNat header.size.toNat with hlt | hle
    · rw [decodeText_of_lt hlt, window?_rest (hinside hlt) hlt]
      exact ⟨_, _, rfl⟩
    · exact ⟨_, _, decodeText_of_le hle⟩

end CommandHeader

/-! ### The fields in front of a text -/

/-- Reads the fields of a command that holds a text: where the text starts, and what the
command is once the text is known. -/
def Tag.textFields : Tag → Decoder (UInt32 × (String → LoadCommand))
  | .dylib kind => do
    let start ← u32
    let timestamp ← u32
    let current ← u32
    let compatibility ← u32
    return (start, fun path => .dylib { kind, path, timestamp, current := ⟨current⟩
                                        compatibility := ⟨compatibility⟩ })
  | .path kind => do
    let start ← u32
    return (start, .path kind)
  | _ => return (0, fun _ => .unrecognized)

namespace LoadCommand

variable {header : CommandHeader} {input : Input} {frame : Frame} {order : ByteOrder} {tag : Tag}
  {start : UInt32} {c c' : Cursor}

/-- All commands that hold a text are read alike. -/
theorem decodeContent_of_holdsText (htag : Tag.ofRaw? header.tag = some tag)
    (htext : tag.HoldsText) :
    decodeContent frame header = do
      let fields ← tag.textFields
      return fields.2 (← header.decodeText fields.1) := by
  unfold decodeContent
  rw [htag]
  cases tag with
  | dylib kind => simp only [decodeBody, Dylib.decode, Tag.textFields, bind_assoc, pure_bind]
  | path kind => simp only [decodeBody, Tag.textFields, bind_assoc, pure_bind]
  | _ => exact htext.elim

theorem takes_textFields (htext : tag.HoldsText) (width : Width) :
    Takes order tag.textFields (tag.fixedSize width - 8) := by
  cases tag with
  | dylib kind =>
      exact (takes_u32.bind fun _ => takes_u32.bind fun _ => takes_u32.bind fun _ =>
        takes_u32.bind_pure).of_eq rfl
  | path kind => exact takes_u32.bind_pure
  | _ => exact htext.elim

/-- The start of the text is the first field, and the text becomes that of the command. -/
theorem textFields_eq_ok (htext : tag.HoldsText) {fields : UInt32 × (String → LoadCommand)}
    (h : tag.textFields input c = .ok fields c') :
    input.u32? c.order c.position = some fields.1 ∧
      ∀ text, (fields.2 text).Records tag text := by
  cases tag with
  | dylib kind =>
      obtain ⟨start, hstart, h⟩ := bind_u32_eq_ok h
      obtain ⟨timestamp, -, h⟩ := bind_u32_eq_ok h
      obtain ⟨current, -, h⟩ := bind_u32_eq_ok h
      obtain ⟨compatibility, -, h⟩ := bind_u32_eq_ok h
      obtain ⟨rfl, -⟩ := pure_eq_ok h
      exact ⟨hstart, fun _ => ⟨rfl, rfl⟩⟩
  | path kind =>
      obtain ⟨start, hstart, h⟩ := bind_u32_eq_ok h
      obtain ⟨rfl, -⟩ := pure_eq_ok h
      exact ⟨hstart, fun _ => ⟨rfl, rfl⟩⟩
  | _ => exact htext.elim

/-! ### Whole commands -/

theorem content_of_holdsText (h : header.HoldsText input order tag start) {command : LoadCommand}
    (hrun : decodeContent frame header input ⟨header.offset + 8, order⟩ = .ok command c') :
    header.offset + tag.fixedSize frame.width ≤ input.size ∧
      ∃ text, command.Records tag text ∧ header.IsTextFrom input start.toNat text := by
  rw [decodeContent_of_holdsText h.ofRaw?_eq h.holdsText] at hrun
  have htakes : Takes order tag.textFields (tag.fixedSize frame.width - 8) :=
    takes_textFields h.holdsText frame.width
  obtain ⟨fields, hfields, hrun⟩ := htakes.bind_eq_ok hrun
  obtain ⟨text, c₂, htext, hrun⟩ := bind_eq_ok.mp hrun
  obtain ⟨rfl, -⟩ := pure_eq_ok hrun
  obtain ⟨hstart, hrecords⟩ := textFields_eq_ok h.holdsText hfields
  obtain rfl := Option.some.inj (h.start_eq.symm.trans hstart)
  have hsize := (htakes.le_size hfields).2
  have hstarts := Input.le_size_of_u32? h.start_eq
  exact ⟨by omega, text, hrecords text, CommandHeader.isTextFrom_of_decodeText htext⟩

theorem exists_content_of_holdsText (h : header.HoldsText input order tag start)
    (hfixed : header.offset + tag.fixedSize frame.width ≤ input.size)
    (hinside : start.toNat < header.size.toNat → header.offset + header.size.toNat ≤ input.size) :
    ∃ command c',
      decodeContent frame header input ⟨header.offset + 8, order⟩ = .ok command c' := by
  have htakes : Takes order tag.textFields (tag.fixedSize frame.width - 8) :=
    takes_textFields h.holdsText frame.width
  have hstarts := Input.le_size_of_u32? h.start_eq
  have hwhole : 0 + input.size ≤ input.size := (Nat.zero_add _).le
  have hfields : header.offset + 8 + (tag.fixedSize frame.width - 8) ≤ 0 + input.size := by omega
  obtain ⟨fields, hfields⟩ :=
    htakes.exists_settled hwhole (by omega) (Nat.zero_le _) hfields
  obtain ⟨hstart, -⟩ := textFields_eq_ok h.holdsText (hfields input rfl)
  obtain rfl := Option.some.inj (h.start_eq.symm.trans hstart)
  obtain ⟨text, c₁, htext⟩ := CommandHeader.exists_decodeText_iff.mpr hinside
  rw [decodeContent_of_holdsText h.ofRaw?_eq h.holdsText, bind_of_ok (hfields input rfl),
    bind_of_ok htext]
  exact ⟨_, _, rfl⟩

theorem decode_of_holdsText (h : header.HoldsText input order tag start) (frame : Frame) :
    decode frame input ⟨header.offset, order⟩ =
      (do
        let command ← decodeContent frame header
        seek header.stop
        return (header, command)) input ⟨header.offset + 8, order⟩ := by
  rw [decode_eq, bind_of_ok (CommandHeader.decode_of_u32? h.tag_eq h.size_eq)]

/-- What a command holds that was read, and that its fields are in the file. -/
theorem read_of_holdsText (h : header.HoldsText input order tag start)
    {read : CommandHeader × LoadCommand}
    (hok : (decode frame).answer input ⟨header.offset, order⟩ = .ok read) :
    header.offset + tag.fixedSize frame.width ≤ input.size ∧ read.1 = header ∧
      ∃ text, read.2.Records tag text ∧ header.IsTextFrom input start.toNat text := by
  obtain ⟨c₁, hrun⟩ := exists_of_answer_ok hok
  rw [decode_of_holdsText h] at hrun
  obtain ⟨command, c₂, hcontent, hrun⟩ := bind_eq_ok.mp hrun
  rw [bind_of_ok (seek_apply input c₂ header.stop)] at hrun
  obtain ⟨rfl, -⟩ := pure_eq_ok hrun
  obtain ⟨hfixed, text, hrecords, htext⟩ := content_of_holdsText h hcontent
  exact ⟨hfixed, rfl, text, hrecords, htext⟩

/-- A command whose fields are in the file is read unless its text needs bytes that are not. -/
theorem exists_read_iff (h : header.HoldsText input order tag start) (frame : Frame) :
    (∃ read, (decode frame).answer input ⟨header.offset, order⟩ = .ok read) ↔
      header.offset + tag.fixedSize frame.width ≤ input.size ∧
        (start.toNat < header.size.toNat →
          header.offset + header.size.toNat ≤ input.size) := by
  constructor
  · rintro ⟨read, hok⟩
    obtain ⟨hfixed, -, text, -, htext⟩ := read_of_holdsText h hok
    exact ⟨hfixed, fun hlt => (htext.lossy hlt).1⟩
  · rintro ⟨hfixed, hwhole⟩
    obtain ⟨command, c₁, hcontent⟩ := exists_content_of_holdsText h hfixed hwhole
    have hrun : decode frame input ⟨header.offset, order⟩ =
        .ok (header, command) { c₁ with position := header.stop } := by
      rw [decode_of_holdsText h, bind_of_ok hcontent,
        bind_of_ok (seek_apply input c₁ header.stop)]
      rfl
    exact ⟨_, answer_of_ok hrun⟩

/-- **Texts are made of the bytes of their command.**  When a command that holds a text is read,
its text is empty if it would start at the end of the command or behind it.  Otherwise it is
what the bytes of the command say from there up to the first NUL among them, and it is read
only if all bytes of the command are in the file; if they are not, bytes are missing.  A
command is read whenever its fields are there and this is so. -/
theorem text_of_decode (h : header.HoldsText input order tag start) (frame : Frame) :
    (∀ read, (decode frame).answer input ⟨header.offset, order⟩ = .ok read →
      read.1 = header ∧
        ∃ text, read.2.Records tag text ∧ header.IsTextFrom input start.toNat text) ∧
    (start.toNat < header.size.toNat → input.size < header.offset + header.size.toNat →
      ∃ offset wanted, input.size < offset + wanted ∧
        (decode frame).answer input ⟨header.offset, order⟩ =
          .error (.truncated offset wanted)) ∧
    ((∃ read, (decode frame).answer input ⟨header.offset, order⟩ = .ok read) ↔
      header.offset + tag.fixedSize frame.width ≤ input.size ∧
        (start.toNat < header.size.toNat →
          header.offset + header.size.toNat ≤ input.size)) := by
  have hiff := exists_read_iff h frame
  refine ⟨fun read hok => (read_of_holdsText h hok).2, fun hlt hcut => ?_, hiff⟩
  cases hanswer : (decode frame).answer input ⟨header.offset, order⟩ with
  | ok read => exact absurd ((hiff.mp ⟨read, hanswer⟩).2 hlt) (Nat.not_le.mpr hcut)
  | error e =>
      obtain ⟨c₁, hrun⟩ := exists_of_answer_error hanswer
      have hshort := (inherited_failsShort.loadCommand frame).isShort hrun
      cases e with
      | truncated offset wanted => exact ⟨offset, wanted, hshort, rfl⟩
      | unsupportedMagic magic => exact hshort.elim
      | unreadable reason => exact hshort.elim

/-- A path that ends with its command, without a NUL and with a byte that is no UTF-8: what
stands behind the command is not part of it.  When the command says that it is two bytes
longer it ends past the file, and it is not read. -/
theorem text_of_decode_weak :
    let frame : Frame := { width := .bits64, order := .big, base := 0 }
    let header (size : UInt32) : CommandHeader := { tag := 0x80000018, size, offset := 2 }
    let file (size : UInt8) : Input := #[0xAA, 0xBB, 0x80, 0, 0, 0x18, 0, 0, 0, size, 0, 0, 0, 24,
      0, 0, 0, 2, 0, 1, 0, 0, 0, 1, 0, 0, 0x61, 0xFF, 0x62, 0x63]
    (header 27).HoldsText (file 27) .big (.dylib .weak) 24 ∧
      (header 29).HoldsText (file 29) .big (.dylib .weak) 24 ∧
      (header 27).IsTextFrom (file 27) 24 "a\uFFFDb" ∧
      (file 29).size < (header 29).offset + (header 29).size.toNat ∧
      ∃ offset wanted,
        (decode frame).answer (file 29) ⟨2, .big⟩ = .error (.truncated offset wanted) := by
  intro frame header file
  have hshort : (header 27).HoldsText (file 27) .big (.dylib .weak) 24 := {
    tag_eq := by decide
    size_eq := by decide
    start_eq := by decide
    ofRaw?_eq := by decide
    holdsText := trivial }
  have hlong : (header 29).HoldsText (file 29) .big (.dylib .weak) 24 := {
    tag_eq := by decide
    size_eq := by decide
    start_eq := by decide
    ofRaw?_eq := by decide
    holdsText := trivial }
  have hpath : ((decode frame).answer (file 27) ⟨2, .big⟩).toOption.map (·.2) =
      some (.dylib { kind := .weak, path := "a\uFFFDb", timestamp := 2, current := ⟨0x10000⟩
                     compatibility := ⟨0x10000⟩ }) := by
    decide
  obtain ⟨⟨_, command⟩, hread, rfl⟩ := exists_of_toOption_map hpath
  obtain ⟨-, text, ⟨-, rfl⟩, htext⟩ := (text_of_decode hshort frame).1 _ hread
  obtain ⟨offset, wanted, -, hcut⟩ :=
    (text_of_decode hlong frame).2.1 (by decide) (by decide)
  exact ⟨hshort, hlong, htext, by decide, offset, wanted, hcut⟩

end LoadCommand

end MachImage
