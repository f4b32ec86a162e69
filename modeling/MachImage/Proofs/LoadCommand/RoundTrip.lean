import MachImage.Proofs.LoadCommand.Written

/-! # Load commands are read back

Every load command that is written is read back (`Command.decode_bytes`), and so is a list
of them, one behind the other (`repeatedFrom_commands`).  What a command's decoder leaves unread
makes no difference, as its size leads to the next command. -/

namespace MachImage

/-! ### Tags -/

namespace Tag

theorem map_raw_all :
    all.map raw =
      [0x01, 0x02, 0x04, 0x05, 0x0B, 0x0C, 0x0D, 0x0E, 0x80000018, 0x19, 0x1B, 0x8000001C, 0x1D,
        0x1E, 0x8000001F, 0x20, 0x22, 0x80000022, 0x80000023, 0x24, 0x25, 0x26, 0x27, 0x80000028,
        0x29, 0x2A, 0x2B, 0x2F, 0x30, 0x32, 0x80000033, 0x80000034] := by
  decide

/-- The numbers of the commands that have a meaning. -/
theorem isSome_ofRaw?_iff {number : UInt32} :
    (ofRaw? number).isSome ↔ number ∈
      [0x01, 0x02, 0x04, 0x05, 0x0B, 0x0C, 0x0D, 0x0E, 0x80000018, 0x19, 0x1B, 0x8000001C, 0x1D,
        0x1E, 0x8000001F, 0x20, 0x22, 0x80000022, 0x80000023, 0x24, 0x25, 0x26, 0x27, 0x80000028,
        0x29, 0x2A, 0x2B, 0x2F, 0x30, 0x32, 0x80000033, 0x80000034] := by
  rw [ofRaw?, List.find?_isSome, ← map_raw_all, List.mem_map]
  simp only [decide_eq_true_eq]

end Tag

namespace Written

open Decoder

variable {order : ByteOrder} {frame : Frame} {input : Input}

theorem ofRaw?_raw (tag : Tag) : Tag.ofRaw? tag.raw = some tag := by
  cases tag with
  | segment width => cases width <;> rfl
  | dylib kind => cases kind <;> rfl
  | path kind => cases kind <;> rfl
  | linkEdit kind => cases kind <;> rfl
  | _ => rfl

/-! ### Bodies -/

theorem reads_symtab (table : Symtab) :
    Reads order Symtab.decode
      (words order [table.symbolOffset, table.symbolCount, table.stringOffset, table.stringSize])
      table :=
  (reads_u32 _).bind <| (reads_u32 _).bind <| (reads_u32 _).bind <| (reads_u32 _).bind <|
    reads_pure _

theorem reads_indirect (front : Vector UInt32 12) (table : IndirectSymbols)
    (behind : Vector UInt32 4) :
    Reads order IndirectSymbols.decode
      (words order front.toList ++ words order [table.offset, table.count] ++
        words order behind.toList) table := by
  have hfront := @reads_words order front.toList
  have hbehind := @reads_words order behind.toList
  rw [Vector.length_toList] at hfront hbehind
  unfold IndirectSymbols.decode
  simp only [words_cons, words_nil, List.append_assoc, List.nil_append]
  exact hfront.bind <| (reads_u32 _).bind <| (reads_u32 _).bind <| hbehind.bind_pure

theorem reads_minimum (platform : String) (version sdk : UInt32) :
    Reads order (MinimumVersion.decode platform) (words order [version, sdk])
      { platform, version := ⟨version⟩, sdk := ⟨sdk⟩ } :=
  (reads_u32 _).bind <| (reads_u32 _).bind <| reads_pure _

theorem reads_build (platform version sdk tools : UInt32) :
    Reads order MinimumVersion.decodeBuild (words order [platform, version, sdk, tools])
      { platform := platformName platform, version := ⟨version⟩, sdk := ⟨sdk⟩ } := by
  have hwords : words order [platform, version, sdk, tools] =
      order.bytes 4 platform.toNat ++ (words order [version, sdk] ++ words order [tools]) := by
    simp only [words_cons, words_nil, List.append_assoc, List.nil_append]
  rw [hwords]
  refine (reads_u32 platform).bind ((reads_minimum _ version sdk).bind ?_)
  exact (reads_u32 tools).bind (reads_pure _)

theorem reads_entry (entry : EntryPoint) :
    Reads order EntryPoint.decode
      (order.bytes 8 entry.fileOffset.toNat ++ order.bytes 8 entry.stackSize.toNat) entry :=
  (reads_u64 _).bind <| (reads_u64 _).bind_pure

theorem reads_linkEdit (kind : LinkEditKind) (offset size : UInt32) :
    Reads order (LoadCommand.decodeLinkEdit kind) (words order [offset, size])
      (.linkEdit kind offset size) :=
  (reads_u32 _).bind <| (reads_u32 _).bind <| reads_pure _

theorem reads_dataInCode (offset : UInt32) (length kind : UInt16) :
    Reads order skipDataInCode
      (words order [offset] ++ order.bytes 2 length.toNat ++ order.bytes 2 kind.toNat) () := by
  simp only [words_cons, words_nil, List.append_assoc, List.nil_append]
  exact (reads_u32 _).bind <| (reads_u16 _).bind <| (reads_u16 _).bind_pure

/-- The state of a thread is passed over, and what stands behind it does not count. -/
theorem reads_thread {header : CommandHeader} (flavor : UInt32) (state : List UInt32)
    (others : List UInt8) (hcount : state.length < UInt32.size)
    (hsize : header.size.toNat = 16 + 4 * state.length + others.length) :
    Reads order (skipThread header)
      (words order [flavor, UInt32.ofNat state.length] ++ words order state) () := by
  have hstate := @reads_bytes order (words order state)
  have hlength : min ((UInt32.ofNat state.length).toNat * 4) (header.remainingFrom 16) =
      (words order state).length := by
    rw [UInt32.toNat_ofNat_of_lt' hcount, length_words]
    unfold CommandHeader.remainingFrom
    omega
  rw [← hlength] at hstate
  simp only [words_cons, words_nil, List.append_assoc, List.nil_append]
  exact (reads_u32 _).bind <| (reads_u32 _).bind hstate.bind_pure

theorem yields_dylib {header : CommandHeader} (kind : DylibKind)
    (timestamp current compatibility : UInt32) (p : Path)
    (hsize : header.size.toNat = 24 + p.bytes.length)
    (h : input.HoldsAt (header.offset + 8)
      (words order [UInt32.ofNat (24 + p.gap.length), timestamp, current, compatibility] ++
        p.bytes)) :
    Yields order (Dylib.decode header kind) input (header.offset + 8)
      { kind, path := p.text, timestamp, current := ⟨current⟩
        compatibility := ⟨compatibility⟩ } := by
  have hpath := h.right
  rw [length_words] at hpath
  simp only [words_cons, words_nil, List.append_assoc, List.nil_append] at h
  unfold Dylib.decode
  refine (reads_u32 _).bind_yields h ?_
  refine (reads_u32 _).bind_yields h.right ?_
  refine (reads_u32 _).bind_yields h.right.right ?_
  refine (reads_u32 _).bind_yields h.right.right.right ?_
  exact (p.decodeText_filled hsize hpath _).bind_pure

namespace Command

theorem length_sections_le {width : Width} (fields : SegmentFields width) :
    fields.sections.length ≤ (fields.bytes order).length := by
  have hsections : ∀ sections : List (SectionFields width),
      sections.length ≤ (sections.flatMap (SectionFields.bytes order)).length := by
    intro sections
    induction sections with
    | nil => exact Nat.le_refl 0
    | cons s rest ih =>
        rw [List.flatMap_cons, List.length_append, List.length_cons]
        have hs : 16 ≤ (s.bytes order).length := by
          simp only [SectionFields.bytes, List.length_append, Name.length_bytes]
          omega
        omega
  have hall := hsections fields.sections
  unfold SegmentFields.bytes
  rw [List.length_append]
  omega

theorem decodeBody_body (c : Command frame.width) {header : CommandHeader}
    (hsize : header.size.toNat = c.size order)
    (h : input.HoldsAt (header.offset + 8) (c.body order)) :
    Yields order (LoadCommand.decodeBody frame header c.tag) input (header.offset + 8)
      (c.value frame) := by
  have hlt : c.size order < UInt32.size := hsize ▸ header.size.toNat_lt
  unfold Command.size at hsize hlt
  rw [← List.append_nil (c.body order)] at h
  cases c with
  | segment tagWidth fields =>
      have hcount : fields.sections.length ≤ (body order (.segment tagWidth fields)).length :=
        length_sections_le fields
      exact (fields.reads_decode (by omega)).bind_pure.yields h
  | symtab table => exact (reads_symtab table).bind_pure.yields h
  | dysymtab front table behind => exact (reads_indirect front table behind).bind_pure.yields h
  | dyldInfo only tables =>
      have htables := @reads_words order tables.toList
      rw [Vector.length_toList] at htables
      cases only <;> exact htables.bind_pure.yields h
  | dylib kind timestamp current compatibility p =>
      rw [List.append_nil] at h
      have hbytes : header.size.toNat = 24 + p.bytes.length := by
        rw [hsize, body, List.length_append, length_words]
        simp only [List.length_cons, List.length_nil]
        omega
      exact (yields_dylib kind timestamp current compatibility p hbytes h).bind_pure
  | path kind p =>
      rw [List.append_nil] at h
      have hbytes : header.size.toNat = 12 + p.bytes.length := by
        rw [hsize, body, List.length_append, length_words]
        simp only [List.length_cons, List.length_nil]
        omega
      have hpath := h.right
      rw [length_words] at hpath
      exact (reads_u32 _).bind_yields h.left (p.decodeText_filled hbytes hpath _).bind_pure
  | uuid mark =>
      have hmark := @reads_bytes order mark.toList
      rw [Vector.length_toList] at hmark
      exact hmark.bind_pure.yields h
  | minimum system version sdk =>
      cases system <;> exact (reads_minimum _ version sdk).bind_pure.yields h
  | buildVersion platform version sdk tools =>
      rw [List.append_nil] at h
      exact (reads_build platform version sdk _).bind_pure.yields h
  | sourceVersion version => exact (reads_u64 _).bind_pure.yields h
  | main entry => exact (reads_entry entry).bind_pure.yields h
  | linkEdit kind offset size => exact (reads_linkEdit kind offset size).yields h
  | dataInCode offset length kind => exact (reads_dataInCode offset length kind).bind_pure.yields h
  | thread unix flavor state others =>
      rw [List.append_nil] at h
      have hbytes : header.size.toNat = 16 + 4 * state.length + others.length := by
        rw [hsize, body, List.length_append, List.length_append, length_words, length_words]
        simp only [List.length_cons, List.length_nil]
        omega
      have hcount : state.length < UInt32.size := by omega
      have hstate := @reads_thread order header flavor state others hcount hbytes
      cases unix <;> exact hstate.bind_pure.yields h

/-! ### Whole commands -/

/-- The tag and size of a command that starts at a position. -/
def header (order : ByteOrder) (c : Command frame.width) (offset : ℕ) : CommandHeader :=
  { tag := c.tag.raw, size := UInt32.ofNat (c.size order), offset }

theorem size_header (c : Command frame.width) (hsize : c.size order < UInt32.size) (offset : ℕ) :
    (c.header order offset).size.toNat = c.size order :=
  UInt32.toNat_ofNat_of_lt' hsize

theorem length_bytes {width : Width} (c : Command width) :
    (c.bytes order).length = c.size order := by
  rw [bytes, List.length_append, length_words]
  rfl

theorem reads_header (c : Command frame.width) {offset : ℕ}
    (h : input.HoldsAt offset (c.bytes order)) :
    CommandHeader.decode input ⟨offset, order⟩ =
      .ok (c.header order offset) ⟨offset + 8, order⟩ := by
  have hwords : Reads order (do let tag ← u32; let size ← u32; return ⟨tag, size, offset⟩)
      (words order [c.tag.raw, UInt32.ofNat (c.size order)]) (c.header order offset) :=
    (reads_u32 _).bind <| (reads_u32 _).bind <| reads_pure _
  have hread := hwords input offset h.left
  rw [length_words] at hread
  unfold CommandHeader.decode
  rw [bind_of_ok (position_apply input _)]
  exact hread

theorem decode_bytes (c : Command frame.width) {offset : ℕ} (hsize : c.size order < UInt32.size)
    (h : input.HoldsAt offset (c.bytes order)) :
    LoadCommand.decode frame input ⟨offset, order⟩ =
      .ok (c.header order offset, c.value frame) ⟨offset + (c.bytes order).length, order⟩ := by
  have hbody := h.right
  rw [length_words] at hbody
  obtain ⟨q, hq⟩ : Yields order (LoadCommand.decodeBody frame (c.header order offset) c.tag) input
      (offset + 8) (c.value frame) :=
    c.decodeBody_body (c.size_header hsize offset) hbody
  have hstop : (c.header order offset).stop = offset + (c.bytes order).length := by
    have height : 8 ≤ c.size order := Nat.le_add_right _ _
    unfold CommandHeader.stop CommandHeader.effectiveSize
    rw [c.size_header hsize, length_bytes, Nat.max_eq_left height]
    rfl
  have htag : Tag.ofRaw? (c.header order offset).tag = some c.tag := ofRaw?_raw c.tag
  unfold LoadCommand.decode
  rw [bind_of_ok (c.reads_header h)]
  simp only [htag]
  refine (bind_of_ok hq _).trans ?_
  rw [bind_of_ok (seek_apply input _ _), hstop]
  rfl

end Command

end Written

end MachImage
