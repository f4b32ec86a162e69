import MachImage.Proofs.Layout.Moved
import MachImage.Proofs.Layout.RoundTrip
import MachImage.Proofs.LoadCommand.OwnBytes
import MachImage.Proofs.LoadCommand.Relocation

/-! # Commands without a meaning

A command with an unknown tag can be put between the load commands of a slice without any
effect but a diagnostic of its own (`Layout.decode_insert_unrecognized`).  The commands are
there with all their bytes, and each with the bytes that its tag asks for
(`LoadCommand.IsComplete`); what they say is left open.

Such a command is read from its own bytes, so it is read wherever they stand in the slice, and
as the same command (`IsComplete.exists_readsAll`).  `LoadCommand.ReadsAll` says so of several
commands in a row, with offsets that count from the first byte of the row: rows are put
together, and what comes later is moved by what stands in front (`ReadsAll.append`). -/

namespace MachImage

open Decoder

/-! ### Commands by their bytes -/

namespace LoadCommand

/-- The bytes are one load command: as many as its size says, with room for what its tag asks
for. -/
def IsComplete (width : Width) (order : ByteOrder) (bytes : List UInt8) : Prop :=
  ∃ header : CommandHeader, header.offset = 0 ∧ header.size.toNat = bytes.length ∧
    header.WellSized bytes.toArray width order

/-- Whether bytes are one load command, by the numbers that stand in them. -/
def checkComplete (width : Width) (order : ByteOrder) (bytes : List UInt8) : Bool :=
  let input : Input := bytes.toArray
  (input.u32? order 0).any fun tag => (input.u32? order 4).any fun size =>
    size.toNat = bytes.length && 8 ≤ size.toNat && (Tag.ofRaw? tag).all fun known =>
      known.fixedSize width ≤ size.toNat &&
        match known with
        | .segment _ => (input.u32? order (sectionCountOffset width)).all fun count =>
            segmentHeaderSize width + count.toNat * sectionHeaderSize width ≤ size.toNat
        | _ => true

theorem isComplete_of_check {width : Width} {order : ByteOrder} {bytes : List UInt8}
    (h : checkComplete width order bytes) : IsComplete width order bytes := by
  simp only [checkComplete, Option.any_eq_true, Option.all_eq_true, Bool.and_eq_true,
    decide_eq_true_eq] at h
  obtain ⟨tag, htag, size, hsize, ⟨hlength, height⟩, hknown⟩ := h
  refine ⟨{ tag, size, offset := 0 }, rfl, hlength, ?_⟩
  constructor
  case tag_eq => exact htag
  case size_eq => exact hsize
  case inside =>
    rw [List.size_toArray, hlength]
    exact Nat.le_of_eq (Nat.zero_add _)
  case eight_le => exact height
  case fixed_le => exact fun known hk => (hknown known hk).1
  case sections_le =>
    intro tagWidth count hsegment hcount
    rw [Nat.zero_add] at hcount
    have hsections := (hknown _ hsegment).2
    simp only [Option.all_eq_true, decide_eq_true_eq] at hsections
    exact hsections count hcount

/-- What was read of a command, for the same command some bytes further on. -/
def movedRead (d : ℕ) (read : CommandHeader × LoadCommand) : CommandHeader × LoadCommand :=
  (read.1.moved d, read.2)

theorem map_movedRead_map (d e : ℕ) (reads : List (CommandHeader × LoadCommand)) :
    (reads.map (movedRead d)).map (movedRead e) = reads.map (movedRead (d + e)) := by
  rw [List.map_map]
  congr 1
  funext read
  simp only [Function.comp_apply, movedRead, CommandHeader.moved, Nat.add_assoc]

theorem map_snd_movedRead (d : ℕ) (reads : List (CommandHeader × LoadCommand)) :
    (reads.map (movedRead d)).map Prod.snd = reads.map Prod.snd := by
  rw [List.map_map]
  rfl

/-- Wherever the bytes stand in a slice they are read as these commands, whose offsets count
from the first byte. -/
structure ReadsAll (frame : Frame) (bytes : List UInt8)
    (reads : List (CommandHeader × LoadCommand)) : Prop where
  runs : ∀ (input : Input) (offset : ℕ), input.HoldsAt offset bytes →
    Runs (decode frame) input ⟨offset, frame.order⟩ (reads.map (movedRead offset))
      ⟨offset + bytes.length, frame.order⟩
  offset_lt : ∀ read ∈ reads, read.1.offset < bytes.length

namespace ReadsAll

variable {frame : Frame} {xs ys : List UInt8} {reads more : List (CommandHeader × LoadCommand)}

theorem nil (frame : Frame) : ReadsAll frame [] [] where
  runs _ _ _ := .nil _
  offset_lt _ h := by cases h

theorem append (hxs : ReadsAll frame xs reads) (hys : ReadsAll frame ys more) :
    ReadsAll frame (xs ++ ys) (reads ++ more.map (movedRead xs.length)) where
  runs input offset h := by
    have hlater := hys.runs input (offset + xs.length) h.right
    rw [Nat.add_assoc, ← List.length_append, Nat.add_comm offset xs.length,
      ← map_movedRead_map, Nat.add_comm xs.length offset] at hlater
    rw [List.map_append]
    exact (hxs.runs input offset h.left).append hlater
  offset_lt read hread := by
    rw [List.length_append]
    rcases List.mem_append.mp hread with hfirst | hlater
    · have hlt := hxs.offset_lt read hfirst
      omega
    · obtain ⟨read', hread', rfl⟩ := List.mem_map.mp hlater
      have hlt : read'.1.offset < ys.length := hys.offset_lt read' hread'
      show read'.1.offset + xs.length < xs.length + ys.length
      omega

end ReadsAll

variable {width : Width} {order : ByteOrder} {base : ℕ}

theorem IsComplete.exists_readsAll {bytes : List UInt8} (h : IsComplete width order bytes) :
    ∃ read, ReadsAll ⟨width, order, base⟩ bytes [read] := by
  obtain ⟨header, hoffset, hsize, hsized⟩ := h
  let frame : Frame := ⟨width, order, base⟩
  have hwell : header.WellSized bytes.toArray frame.width order := hsized
  have height := hwell.eight_le
  have hheader : CommandHeader.decode bytes.toArray ⟨header.offset, order⟩ =
      .ok header ⟨header.offset + 8, order⟩ := hwell.decode_header rfl
  obtain ⟨command, hsettled⟩ := hwell.settled_content
  obtain ⟨q, hcommand⟩ := hsettled bytes.toArray rfl
  have hstop : header.stop = bytes.length := by
    unfold CommandHeader.stop CommandHeader.effectiveSize
    rw [hoffset, hsize, Nat.zero_add, Nat.max_eq_left (by omega)]
  have hown : decode frame bytes.toArray ⟨0, order⟩ =
      .ok (header, command) ⟨bytes.length, order⟩ := by
    rw [hoffset] at hheader hcommand
    rw [decode_eq, bind_of_ok hheader, bind_of_ok hcommand, bind_of_ok (seek_apply _ _ header.stop),
      hstop]
    rfl
  refine ⟨(header, command), ?_, ?_⟩
  case refine_1 =>
    rintro input _ ⟨before, after, rfl, rfl⟩
    have hfollows := @relocates_decode_inPlace before after frame bytes.toArray ⟨0, order⟩
    rw [hown] at hfollows
    obtain ⟨read, hread, hmoved, hsame⟩ := hfollows
    have hstart : Cursor.moved before.size ⟨0, order⟩ = ⟨before.size, order⟩ := by
      rw [Cursor.moved, Nat.zero_add]
    have hend : Cursor.moved before.size ⟨bytes.length, order⟩ =
        ⟨before.size + bytes.length, order⟩ := by
      rw [Cursor.moved, Nat.add_comm]
    have hvalue : read = movedRead before.size (header, command) := Prod.ext hmoved hsame
    rw [hstart, hend, hvalue] at hread
    exact .cons hread (.nil _)
  case refine_2 =>
    intro read hread
    obtain rfl := List.mem_singleton.mp hread
    show header.offset < bytes.length
    omega

theorem exists_readsAll {commands : List (List UInt8)}
    (h : ∀ bytes ∈ commands, IsComplete width order bytes) :
    ∃ reads, reads.length = commands.length ∧
      ReadsAll ⟨width, order, base⟩ commands.flatten reads := by
  induction commands with
  | nil => exact ⟨[], rfl, .nil _⟩
  | cons bytes rest ih =>
      obtain ⟨read, hread⟩ := (h bytes List.mem_cons_self).exists_readsAll
      obtain ⟨reads, hlength, hreads⟩ := ih fun xs hxs => h xs (List.mem_cons_of_mem bytes hxs)
      refine ⟨read :: reads.map (movedRead bytes.length), by simp [hlength], ?_⟩
      rw [List.flatten_cons]
      exact hread.append hreads

/-! ### A command without a meaning -/

/-- A tag and a size, and what stands behind them. -/
def rawBytes (order : ByteOrder) (tag size : UInt32) (body : List UInt8) : List UInt8 :=
  Written.words order [tag, size] ++ body

variable {tag size : UInt32} {body : List UInt8}

theorem length_rawBytes (hsize : size.toNat = 8 + body.length) :
    (rawBytes order tag size body).length = size.toNat := by
  rw [rawBytes, List.length_append, Written.length_words, hsize]
  rfl

/-- Of a command without a meaning the tag and size are read, and its body is passed over. -/
theorem readsAll_unrecognized (frame : Frame) (htag : Tag.ofRaw? tag = none)
    (hsize : size.toNat = 8 + body.length) :
    ReadsAll frame (rawBytes frame.order tag size body)
      [({ tag, size, offset := 0 }, .unrecognized)] where
  runs input offset h := by
    have hheader : CommandHeader.decode input ⟨offset, frame.order⟩ =
        .ok { tag, size, offset } ⟨offset + 8, frame.order⟩ := by
      have hwords : Reads frame.order
          (do let tag ← u32; let size ← u32; return { tag, size, offset : CommandHeader })
          (Written.words frame.order [tag, size]) { tag, size, offset } :=
        (reads_u32 tag).bind <| (reads_u32 size).bind <| reads_pure _
      have hread := hwords input offset h.left
      rw [Written.length_words] at hread
      unfold CommandHeader.decode
      rw [bind_of_ok (position_apply input _)]
      exact hread
    have hstop : CommandHeader.stop { tag, size, offset } =
        offset + (rawBytes frame.order tag size body).length := by
      show offset + max size.toNat 8 = _
      rw [length_rawBytes hsize, Nat.max_eq_left (by omega)]
    have hmoved : movedRead offset ({ tag, size, offset := 0 }, .unrecognized) =
        ({ tag, size, offset }, .unrecognized) := by
      simp only [movedRead, CommandHeader.moved, Nat.zero_add]
    rw [List.map_cons, List.map_nil, hmoved]
    refine .cons ?_ (.nil _)
    unfold decode
    rw [bind_of_ok hheader]
    simp only [htag]
    rw [bind_of_ok (pure_apply input _ _), bind_of_ok (seek_apply input _ _), hstop]
    rfl
  offset_lt read hread := by
    obtain rfl := List.mem_singleton.mp hread
    rw [length_rawBytes hsize, hsize]
    show 0 < 8 + body.length
    omega

/-- Put into a row of commands, it moves those behind it. -/
theorem ReadsAll.insert_unrecognized {frame : Frame} {xs ys : List UInt8}
    {first second : List (CommandHeader × LoadCommand)} (hfirst : ReadsAll frame xs first)
    (hsecond : ReadsAll frame ys second) (htag : Tag.ofRaw? tag = none)
    (hsize : size.toNat = 8 + body.length) :
    ReadsAll frame (xs ++ (rawBytes frame.order tag size body ++ ys))
      (first ++ (({ tag, size, offset := 0 }, .unrecognized) ::
        second.map (movedRead size.toNat)).map (movedRead xs.length)) := by
  have hrest := (readsAll_unrecognized frame htag hsize).append hsecond
  rw [length_rawBytes hsize] at hrest
  exact hfirst.append hrest

/-! ### What is odd about commands in a row -/

/-- What is odd about some commands, in their order. -/
def diagnosticsOf (reads : List (CommandHeader × LoadCommand)) : List Diagnostic :=
  reads.flatMap fun read => read.2.diagnostics read.1

theorem diagnosticsOf_append (reads more : List (CommandHeader × LoadCommand)) :
    diagnosticsOf (reads ++ more) = diagnosticsOf reads ++ diagnosticsOf more :=
  List.flatMap_append

theorem diagnosticsOf_movedRead (d : ℕ) (reads : List (CommandHeader × LoadCommand)) :
    diagnosticsOf (reads.map (movedRead d)) = (diagnosticsOf reads).map (Diagnostic.moved d) := by
  rw [diagnosticsOf, diagnosticsOf, List.flatMap_map, List.map_flatMap]
  congr 1
  funext read
  exact read.2.diagnostics_moved_header read.1

theorem diagnosticsOf_append_movedRead (first second : List (CommandHeader × LoadCommand))
    (start skipped : ℕ) :
    diagnosticsOf ((first ++ second.map (movedRead skipped)).map (movedRead start)) =
      diagnosticsOf (first.map (movedRead start)) ++
        diagnosticsOf (second.map (movedRead (start + skipped))) := by
  rw [List.map_append, diagnosticsOf_append, map_movedRead_map, Nat.add_comm skipped start]

/-- Of an unrecognized command that is not undersized, only that is odd. -/
theorem diagnostics_unrecognized {tag size : UInt32} (h : 8 ≤ size.toNat) (offset : ℕ) :
    unrecognized.diagnostics { tag, size, offset } = [.unrecognizedCommand tag offset size] := by
  have hfits : CommandHeader.isUndersized { tag, size, offset } = false := by
    rw [CommandHeader.isUndersized, decide_eq_false_iff_not, UInt32.lt_iff_toNat_lt]
    exact Nat.not_lt.mpr h
  rw [diagnostics, hfits, if_pos rfl]
  rfl

/-- Between other commands it adds what is odd about it, and moves what is odd about those
behind it. -/
theorem diagnosticsOf_insert {tag size : UInt32} (h : 8 ≤ size.toNat)
    (first second : List (CommandHeader × LoadCommand)) (start skipped : ℕ) :
    diagnosticsOf ((first ++ (({ tag, size, offset := 0 }, .unrecognized) ::
        second.map (movedRead size.toNat)).map (movedRead skipped)).map (movedRead start)) =
      diagnosticsOf (first.map (movedRead start)) ++
        .unrecognizedCommand tag (start + skipped) size ::
          (diagnosticsOf (second.map (movedRead (start + skipped)))).map
            (Diagnostic.moved size.toNat) := by
  have hplace : movedRead (start + skipped) ({ tag, size, offset := 0 }, .unrecognized) =
      ({ tag, size, offset := start + skipped }, .unrecognized) := by
    simp only [movedRead, CommandHeader.moved, Nat.zero_add]
  have hcons (read : CommandHeader × LoadCommand) (reads : List (CommandHeader × LoadCommand)) :
      diagnosticsOf (read :: reads) = read.2.diagnostics read.1 ++ diagnosticsOf reads :=
    List.flatMap_cons
  rw [diagnosticsOf_append_movedRead, List.map_cons, hplace, hcons, diagnostics_unrecognized h,
    map_movedRead_map, ← diagnosticsOf_movedRead, map_movedRead_map, List.singleton_append,
    Nat.add_comm size.toNat]

/-- A diagnostic of commands in a row is about one of them. -/
theorem ReadsAll.exists_of_mem_diagnosticsOf {frame : Frame} {bytes : List UInt8}
    {reads : List (CommandHeader × LoadCommand)} (h : ReadsAll frame bytes reads) {start : ℕ}
    {diagnostic : Diagnostic}
    (hmem : diagnostic ∈ diagnosticsOf (reads.map (movedRead start))) :
    ∃ offset ∈ diagnostic.commandOffset?, start ≤ offset ∧ offset < start + bytes.length := by
  obtain ⟨_, hmoved, hdiagnostic⟩ := List.mem_flatMap.mp hmem
  obtain ⟨read, hread, rfl⟩ := List.mem_map.mp hmoved
  have hlt := h.offset_lt read hread
  refine ⟨read.1.offset + start, Diagnostic.commandOffset?_of_mem hdiagnostic, ?_⟩
  omega

end LoadCommand

/-! ### Slices of complete commands -/

namespace Written.HeaderFields

variable (fields : HeaderFields)

/-- A slice of this header and some load commands. -/
def sliceBytes (commands : List (List UInt8)) : List UInt8 :=
  fields.magicBytes ++ (fields.fieldBytes (UInt32.ofNat commands.length) ++ commands.flatten)

/-- Where the load commands of a slice start. -/
def commandsStart (base : ℕ) : ℕ := base + (fields.frame base).headerSize

theorem length_bytes (count : UInt32) (base : ℕ) :
    base + fields.magicBytes.length + (fields.fieldBytes count).length =
      fields.commandsStart base := by
  unfold magicBytes fieldBytes commandsStart Frame.headerSize
  rw [ByteOrder.length_bytes, List.length_append, length_words]
  cases hwidth : fields.width <;> simp [frame, hwidth, Nat.add_assoc]

/-- A slice of commands that are read one by one is read as what they declare. -/
theorem decode_sliceBytes {input : Input} {base : ℕ} {commands : List (List UInt8)}
    {reads : List (CommandHeader × LoadCommand)}
    (h : input.HoldsAt base (fields.sliceBytes commands)) (hlength : reads.length = commands.length)
    (hfits : commands.length < UInt32.size)
    (hreads : LoadCommand.ReadsAll (fields.frame base) commands.flatten reads) (c : Cursor) :
    Layout.decode base input c =
      .ok { Layout.declared (fields.frame base) (fields.value (UInt32.ofNat commands.length))
              (reads.map Prod.snd) with
            diagnostics := (LoadCommand.diagnosticsOf
              (reads.map (LoadCommand.movedRead (fields.commandsStart base)))).toArray }
        ⟨fields.commandsStart base + commands.flatten.length, fields.order⟩ := by
  have hcount : (UInt32.ofNat commands.length).toNat = commands.length :=
    UInt32.toNat_ofNat_of_lt' hfits
  unfold sliceBytes at h
  generalize UInt32.ofNat commands.length = count at h hcount ⊢
  have hheader := fields.decode_bytes count h.left h.right.left c
  have hloop := (hreads.runs _ _ h.right.right).repeated
  rw [List.length_map, hlength, ← hcount] at hloop
  rw [fields.length_bytes] at hheader hloop
  unfold Layout.decode
  refine (bind_of_ok hheader _).trans ((bind_of_ok hloop _).trans ?_)
  rw [pure_apply, List.foldl_toArray, Layout.foldl_record, LoadCommand.map_snd_movedRead]
  rfl

end Written.HeaderFields

/-! ### Insertion -/

namespace Layout

theorem declared_insert_unrecognized (frame : Frame) (header : Header)
    (front back : List LoadCommand) :
    declared frame header (front ++ .unrecognized :: back) =
      declared frame header (front ++ back) := by
  simp [declared, LoadInfo.declared, List.filterMap_cons]

variable {fields : Written.HeaderFields} {front back : List (List UInt8)} {tag size : UInt32}
  {body : List UInt8}

/-- **Commands without a meaning are inert.**  Put a command with an unknown tag and any body
between the complete commands of a slice, and count one command more.  Both slices are read,
and what they declare is the same.  The second one has one diagnostic more, about the new
command and in its place: behind those about commands in front of it, and in front of those
about commands behind it, which are as many bytes further on as the new command has. -/
theorem decode_insert_unrecognized
    (hcomplete : ∀ bytes ∈ front ++ back,
      LoadCommand.IsComplete fields.width fields.order bytes)
    (htag : Tag.ofRaw? tag = none) (hsize : size.toNat = 8 + body.length)
    (hfits : (front ++ back).length + 1 < UInt32.size) (before after : Input) (c : Cursor) :
    let place := fields.commandsStart before.size + front.flatten.length
    let inserted := LoadCommand.rawBytes fields.order tag size body
    ∃ (layout : Layout) (earlier later : List Diagnostic),
      (decode before.size).answer
          (before ++ (fields.sliceBytes (front ++ back)).toArray ++ after) c = .ok layout ∧
      layout.diagnostics = (earlier ++ later).toArray ∧
      (decode before.size).answer
          (before ++ (fields.sliceBytes (front ++ inserted :: back)).toArray ++ after) c =
        .ok { layout with
              header := { layout.header with commandCount := layout.header.commandCount + 1 }
              diagnostics := (earlier ++ .unrecognizedCommand tag place size ::
                later.map (Diagnostic.moved size.toNat)).toArray } ∧
      (∀ diagnostic ∈ earlier, ∃ offset ∈ diagnostic.commandOffset?, offset < place) ∧
      ∀ diagnostic ∈ later, ∃ offset ∈ diagnostic.commandOffset?, place ≤ offset := by
  intro place inserted
  let frame := fields.frame before.size
  let start := fields.commandsStart before.size
  obtain ⟨first, hfirstLength, hfirst⟩ := @LoadCommand.exists_readsAll _ _ before.size front
    fun bytes h => hcomplete bytes (List.mem_append_left back h)
  obtain ⟨second, hsecondLength, hsecond⟩ := @LoadCommand.exists_readsAll _ _ before.size back
    fun bytes h => hcomplete bytes (List.mem_append_right front h)
  -- both slices are rows of commands, without the new one and with it
  have hplain : LoadCommand.ReadsAll frame (front ++ back).flatten
      (first ++ second.map (LoadCommand.movedRead front.flatten.length)) := by
    rw [List.flatten_append]
    exact hfirst.append hsecond
  have hmore : LoadCommand.ReadsAll frame (front ++ inserted :: back).flatten
      (first ++ (({ tag, size, offset := 0 }, .unrecognized) ::
        second.map (LoadCommand.movedRead size.toNat)).map
          (LoadCommand.movedRead front.flatten.length)) := by
    rw [List.flatten_append, List.flatten_cons]
    exact hfirst.insert_unrecognized hsecond htag hsize
  have hlength : (front ++ inserted :: back).length = (front ++ back).length + 1 := by
    rw [List.length_append, List.length_append, List.length_cons, Nat.add_assoc]
  have hrun := fields.decode_sliceBytes ⟨before, after, rfl, rfl⟩
    (by simp [hfirstLength, hsecondLength]) (by omega) hplain c
  have hrun' := fields.decode_sliceBytes ⟨before, after, rfl, rfl⟩
    (by simp [hfirstLength, hsecondLength]) (by omega) hmore c
  rw [List.map_append, LoadCommand.map_snd_movedRead,
    LoadCommand.diagnosticsOf_append_movedRead] at hrun
  rw [List.map_append, LoadCommand.map_snd_movedRead, List.map_cons, LoadCommand.map_snd_movedRead,
    declared_insert_unrecognized, LoadCommand.diagnosticsOf_insert (by omega), hlength,
    UInt32.ofNat_add] at hrun'
  refine ⟨_, LoadCommand.diagnosticsOf (first.map (LoadCommand.movedRead start)),
    LoadCommand.diagnosticsOf (second.map (LoadCommand.movedRead place)),
    answer_of_ok hrun, rfl, answer_of_ok hrun', ?_, ?_⟩
  case refine_1 =>
    intro diagnostic hmem
    obtain ⟨offset, hoffset, -, hlt⟩ := hfirst.exists_of_mem_diagnosticsOf hmem
    exact ⟨offset, hoffset, hlt⟩
  case refine_2 =>
    intro diagnostic hmem
    obtain ⟨offset, hoffset, hle, -⟩ := hsecond.exists_of_mem_diagnosticsOf hmem
    exact ⟨offset, hoffset, hle⟩

/-- The header of a slice of the larger width with the highest byte first. -/
def bigHeader : Written.HeaderFields where
  width := .bits64
  order := .big
  cpuType := 0x01000007
  cpuSubtype := 3
  fileType := 6
  commandsSize := 0
  flags := 0
  reserved := 0

/-- Between two unknown commands, the first of them behind a piece of the linker's data, stands
a third one, whose body looks like a command. -/
theorem decode_insert_unrecognized_third :
    let front : List (List UInt8) :=
      [[0, 0, 0, 0x26, 0, 0, 0, 16, 0, 0, 1, 0, 0, 0, 0, 7], [0, 0, 0, 0x99, 0, 0, 0, 8]]
    let back : List (List UInt8) := [[0, 0, 0, 0x98, 0, 0, 0, 9, 0xFF]]
    let body : List UInt8 := [0, 0, 0, 0x1B, 0, 0, 0, 24]
    let inserted := LoadCommand.rawBytes bigHeader.order 0x97 16 body
    let file (commands : List (List UInt8)) : Input :=
      #[1] ++ (bigHeader.sliceBytes commands).toArray ++ #[2, 3]
    (∀ bytes ∈ front ++ back, LoadCommand.IsComplete bigHeader.width bigHeader.order bytes) ∧
    Tag.ofRaw? 0x97 = none ∧ (16 : UInt32).toNat = 8 + body.length ∧
    (front ++ back).length + 1 < UInt32.size ∧
    ((decode 1).answer (file (front ++ inserted :: back)) {}).toOption.map Layout.diagnostics =
      some #[.unrecognizedCommand 0x99 49 8, .unrecognizedCommand 0x97 57 16,
        .unrecognizedCommand 0x98 73 9] ∧
    ∃ (layout : Layout) (earlier later : List Diagnostic),
      (decode 1).answer (file (front ++ back)) {} = .ok layout ∧
      layout.diagnostics = (earlier ++ later).toArray ∧
      (decode 1).answer (file (front ++ inserted :: back)) {} =
        .ok { layout with
              header := { layout.header with commandCount := layout.header.commandCount + 1 }
              diagnostics := (earlier ++ .unrecognizedCommand 0x97 57 16 ::
                later.map (Diagnostic.moved 16)).toArray } ∧
      (∀ diagnostic ∈ earlier, ∃ offset ∈ diagnostic.commandOffset?, offset < 57) ∧
      ∀ diagnostic ∈ later, ∃ offset ∈ diagnostic.commandOffset?, 57 ≤ offset := by
  intro front back body inserted file
  have hcheck : ∀ bytes ∈ front ++ back,
      LoadCommand.checkComplete bigHeader.width bigHeader.order bytes := by decide
  have hcomplete := fun bytes h => LoadCommand.isComplete_of_check (hcheck bytes h)
  have htag : Tag.ofRaw? 0x97 = none := by decide
  have hsize : (16 : UInt32).toNat = 8 + body.length := by decide
  have hfits : (front ++ back).length + 1 < UInt32.size := by decide
  exact ⟨hcomplete, htag, hsize, hfits, by decide +kernel,
    decode_insert_unrecognized hcomplete htag hsize hfits #[1] #[2, 3] {}⟩

end Layout

end MachImage
