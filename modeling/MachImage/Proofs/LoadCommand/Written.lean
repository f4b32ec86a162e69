import MachImage.LoadCommand
import MachImage.Proofs.Decoder.Reading

/-! # Load commands as they are written

`Written.Command width` is a load command of any kind that has a meaning, with all its
fields; what no decoder keeps is there too.  `Command.bytes` writes it in a byte order, with
a size that counts the bytes written, and `Command.value` is what has to be read of it.
Names and paths are texts without NUL.  A name is filled up with NULs to sixteen bytes; a
path stands behind the fixed fields, with a gap that its offset accounts for, and is filled
up to the end of its command.

That the commands are read back is proved field by field (`reads_name16`,
`SectionFields.reads_decode`, `SegmentFields.reads_decode`), for every kind
(`Command.decodeBody_body`) and for a command as a whole (`Command.decode_bytes`). -/

namespace MachImage.Written

open Decoder Text

variable {order : ByteOrder} {width : Width}

/-! ### Numbers and names -/

/-- A number that an address-sized field can hold. -/
structure Word (width : Width) where
  value : UInt64
  fits : value.toNat < 256 ^ width.bytes

def Word.bytes (order : ByteOrder) (w : Word width) : List UInt8 :=
  order.bytes width.bytes w.value.toNat

/-- Numbers of four bytes each. -/
def words (order : ByteOrder) (ns : List UInt32) : List UInt8 :=
  ns.flatMap fun n => order.bytes 4 n.toNat

@[simp] theorem words_nil : words order [] = [] := rfl

@[simp] theorem words_cons (n : UInt32) (ns : List UInt32) :
    words order (n :: ns) = order.bytes 4 n.toNat ++ words order ns := rfl

@[simp] theorem length_words (ns : List UInt32) : (words order ns).length = 4 * ns.length := by
  induction ns with
  | nil => rfl
  | cons n rest ih =>
      rw [words_cons, List.length_append, ByteOrder.length_bytes, ih, List.length_cons]
      omega

theorem reads_words (ns : List UInt32) :
    Reads order (repeated ns.length u32) (words order ns) ns.toArray :=
  (reads_repeated ns fun n _ => reads_u32 n).of_eq rfl (by rw [List.map_id'])

/-- A name for a field of sixteen bytes. -/
structure Name where
  text : String
  noNul : '\x00' ∉ text.toList
  fits : (Utf8.encode text.toList).length ≤ 16

def Name.bytes (name : Name) : List UInt8 :=
  Utf8.encode name.text.toList ++ List.replicate (16 - (Utf8.encode name.text.toList).length) 0

@[simp] theorem Name.length_bytes (name : Name) : name.bytes.length = 16 := by
  have hfits := name.fits
  rw [bytes, List.length_append, List.length_replicate]
  omega

/-- Nothing but NULs stands behind a text that is filled up. -/
theorem replicate_zero_starts (n : ℕ) :
    List.replicate n (0 : UInt8) = [] ∨ (List.replicate n (0 : UInt8)).head? = some 0 := by
  cases n with
  | zero => exact .inl rfl
  | succ n => exact .inr rfl

theorem reads_name16 (name : Name) : Reads order name16 name.bytes name.text := by
  have hfield : Reads order (field 16) name.bytes name.bytes := by
    rw [← name.length_bytes]
    exact reads_field name.bytes
  exact hfield.bind_pure.of_eq rfl
    (upToNul_encode_append name.text name.noNul (replicate_zero_starts _))

/-! ### Segments -/

/-- The header of a section.  The last field is written for the larger width only. -/
structure SectionFields (width : Width) where
  sectionName : Name
  segmentName : Name
  address : Word width
  size : Word width
  offset : UInt32
  align : UInt32
  relocOffset : UInt32
  relocCount : UInt32
  flags : UInt32
  reserved1 : UInt32
  reserved2 : UInt32
  reserved3 : UInt32

namespace SectionFields

def bytes (order : ByteOrder) (s : SectionFields width) : List UInt8 :=
  s.sectionName.bytes ++ s.segmentName.bytes ++ s.address.bytes order ++ s.size.bytes order ++
    words order [s.offset, s.align, s.relocOffset, s.relocCount, s.flags, s.reserved1,
      s.reserved2] ++
    if width = .bits64 then words order [s.reserved3] else []

def value (s : SectionFields width) : SectionHeader where
  sectionName := s.sectionName.text
  segmentName := s.segmentName.text
  address := s.address.value
  size := s.size.value
  offset := s.offset
  align := s.align
  relocOffset := s.relocOffset
  relocCount := s.relocCount
  flags := s.flags
  reserved1 := s.reserved1
  reserved2 := s.reserved2

theorem reads_decode (s : SectionFields width) :
    Reads order (SectionHeader.decode width) (s.bytes order) s.value := by
  unfold SectionHeader.decode bytes
  simp only [List.append_assoc, words_cons, words_nil, List.nil_append]
  refine (reads_name16 _).bind ((reads_name16 _).bind ?_)
  refine (reads_word s.address.fits).bind ((reads_word s.size.fits).bind ?_)
  refine (reads_u32 _).bind ((reads_u32 _).bind ((reads_u32 _).bind ((reads_u32 _).bind ?_)))
  refine (reads_u32 _).bind ((reads_u32 _).bind ((reads_u32 _).bind ?_))
  cases width with
  | bits32 => exact reads_pure _
  | bits64 => exact (reads_u32 _).bind (reads_pure _)

end SectionFields

/-- A segment and the headers of its sections. -/
structure SegmentFields (width : Width) where
  name : Name
  address : Word width
  vmSize : Word width
  fileOffset : Word width
  fileSize : Word width
  maxProtection : UInt32
  initialProtection : UInt32
  flags : UInt32
  sections : List (SectionFields width)

namespace SegmentFields

/-- The segment as it is written behind its tag and size. -/
def bytes (order : ByteOrder) (s : SegmentFields width) : List UInt8 :=
  s.name.bytes ++ s.address.bytes order ++ s.vmSize.bytes order ++ s.fileOffset.bytes order ++
    s.fileSize.bytes order ++
    words order [s.maxProtection, s.initialProtection, UInt32.ofNat s.sections.length, s.flags] ++
    s.sections.flatMap (SectionFields.bytes order)

def value (frame : Frame) (s : SegmentFields width) : SegmentCommand where
  segment :=
    { name := s.name.text
      address := ⟨s.address.value⟩
      vmSize := s.vmSize.value
      fileOffset := frame.fileOffset s.fileOffset.value.toNat
      fileSize := s.fileSize.value
      maxProtection := ⟨s.maxProtection⟩
      initialProtection := ⟨s.initialProtection⟩
      sectionCount := UInt32.ofNat s.sections.length
      flags := s.flags }
  sections := (s.sections.map SectionFields.value).toArray

theorem reads_decode {frame : Frame} (s : SegmentFields frame.width)
    (hcount : s.sections.length < UInt32.size) :
    Reads order (SegmentCommand.decode frame) (s.bytes order) (s.value frame) := by
  unfold SegmentCommand.decode bytes
  simp only [List.append_assoc, words_cons, words_nil, List.nil_append]
  refine (reads_name16 _).bind ((reads_word s.address.fits).bind ?_)
  refine (reads_word s.vmSize.fits).bind ((reads_word s.fileOffset.fits).bind ?_)
  refine (reads_word s.fileSize.fits).bind ?_
  refine (reads_u32 _).bind ((reads_u32 _).bind ((reads_u32 _).bind ((reads_u32 _).bind ?_)))
  rw [UInt32.toNat_ofNat_of_lt' hcount]
  exact (reads_repeated s.sections fun s _ => s.reads_decode).bind_pure

end SegmentFields

/-! ### Paths -/

/-- A path behind the fixed fields of a command: the bytes between, the text, and the number
of NULs that fill up the command. -/
structure Path where
  gap : List UInt8
  text : String
  noNul : '\x00' ∉ text.toList
  padding : ℕ

namespace Path

def filled (p : Path) : List UInt8 :=
  Utf8.encode p.text.toList ++ List.replicate p.padding 0

/-- All bytes behind the fixed fields. -/
def bytes (p : Path) : List UInt8 := p.gap ++ p.filled

theorem upToNul_filled (p : Path) : upToNul p.filled = p.text :=
  upToNul_encode_append p.text p.noNul (replicate_zero_starts _)

/-- The path of a command with `fixed` bytes of fields is found where its offset says,
wherever the cursor stands. -/
theorem decodeText_filled (p : Path) {header : CommandHeader} {input : Input} {fixed : ℕ}
    (hsize : header.size.toNat = fixed + p.bytes.length)
    (h : input.HoldsAt (header.offset + fixed) p.bytes) (position : ℕ) :
    Yields order (header.decodeText (UInt32.ofNat (fixed + p.gap.length))) input position
      p.text := by
  have hlength : p.bytes.length = p.gap.length + p.filled.length := List.length_append
  have hlt : fixed + p.gap.length < UInt32.size := by
    have htop : header.size.toNat < UInt32.size := header.size.toNat_lt
    omega
  have hstart : (UInt32.ofNat (fixed + p.gap.length)).toNat = fixed + p.gap.length :=
    UInt32.toNat_ofNat_of_lt' hlt
  have hremaining : header.remainingFrom (fixed + p.gap.length) = p.filled.length := by
    unfold CommandHeader.remainingFrom
    omega
  unfold Yields CommandHeader.decodeText
  rw [hstart, hremaining]
  by_cases hempty : p.filled.length = 0
  · have htext : p.text = "" := by
      rw [← p.upToNul_filled, List.length_eq_zero_iff.mp hempty]
      rfl
    exact ⟨position, by rw [if_pos hempty, htext]; rfl⟩
  · have hfilled := (@reads_bytes order p.filled).bind_pure
      (f := fun bytes => upToNul bytes.toList) input _ h.right
    rw [p.upToNul_filled, Nat.add_assoc] at hfilled
    rw [if_neg hempty]
    exact ⟨_, hfilled⟩

end Path

/-! ### Commands -/

/-- A system that has a command of its own for its oldest version. -/
inductive System where
  | macos
  | ios
  | tvos
  | watchos

def System.tag : System → Tag
  | macos => .versionMinMacos
  | ios => .versionMinIos
  | tvos => .versionMinTvos
  | watchos => .versionMinWatchos

def System.name : System → String
  | macos => "macos"
  | ios => "ios"
  | tvos => "tvos"
  | watchos => "watchos"

/-- A load command with all its fields but the size. -/
inductive Command (width : Width) where
  /-- A segment, under the tag of either width. -/
  | segment (tagWidth : Width) (fields : SegmentFields width)
  | symtab (table : Symtab)
  | dysymtab (front : Vector UInt32 12) (table : IndirectSymbols) (behind : Vector UInt32 4)
  /-- Where the linker's tables are, under either of two tags. -/
  | dyldInfo (only : Bool) (tables : Vector UInt32 10)
  | dylib (kind : DylibKind) (timestamp current compatibility : UInt32) (path : Path)
  | path (kind : PathKind) (path : Path)
  | uuid (mark : Vector UInt8 16)
  | minimum (system : System) (version sdk : UInt32)
  /-- A platform and its versions, and the tools used, each with its version. -/
  | buildVersion (platform version sdk : UInt32) (tools : List (UInt32 × UInt32))
  | sourceVersion (version : SourceVersion)
  | main (entry : EntryPoint)
  | linkEdit (kind : LinkEditKind) (offset size : UInt32)
  | dataInCode (offset : UInt32) (length kind : UInt16)
  /-- The state of a thread, under either of two tags, and its states of other kinds. -/
  | thread (unix : Bool) (flavor : UInt32) (state : List UInt32) (others : List UInt8)

namespace Command

def tag : Command width → Tag
  | segment tagWidth _ => .segment tagWidth
  | symtab _ => .symtab
  | dysymtab .. => .dysymtab
  | dyldInfo only _ => if only then .dyldInfoOnly else .dyldInfo
  | dylib kind .. => .dylib kind
  | path kind _ => .path kind
  | uuid _ => .uuid
  | minimum system .. => system.tag
  | buildVersion .. => .buildVersion
  | sourceVersion _ => .sourceVersion
  | main _ => .main
  | linkEdit kind .. => .linkEdit kind
  | dataInCode .. => .dataInCode
  | thread unix .. => if unix then .unixThread else .thread

/-- The command as it is written behind its tag and size.  The offset of a path counts from
the start of the command. -/
def body (order : ByteOrder) : Command width → List UInt8
  | segment _ fields => fields.bytes order
  | symtab table =>
    words order [table.symbolOffset, table.symbolCount, table.stringOffset, table.stringSize]
  | dysymtab front table behind =>
    words order front.toList ++ words order [table.offset, table.count] ++
      words order behind.toList
  | dyldInfo _ tables => words order tables.toList
  | dylib _ timestamp current compatibility p =>
    words order [UInt32.ofNat (24 + p.gap.length), timestamp, current, compatibility] ++ p.bytes
  | path _ p => words order [UInt32.ofNat (12 + p.gap.length)] ++ p.bytes
  | uuid mark => mark.toList
  | minimum _ version sdk => words order [version, sdk]
  | buildVersion platform version sdk tools =>
    words order [platform, version, sdk, UInt32.ofNat tools.length] ++
      tools.flatMap fun (tool, version) => words order [tool, version]
  | sourceVersion version => order.bytes 8 version.packed.toNat
  | main entry => order.bytes 8 entry.fileOffset.toNat ++ order.bytes 8 entry.stackSize.toNat
  | linkEdit _ offset size => words order [offset, size]
  | dataInCode offset length kind =>
    words order [offset] ++ order.bytes 2 length.toNat ++ order.bytes 2 kind.toNat
  | thread _ flavor state others =>
    words order [flavor, UInt32.ofNat state.length] ++ words order state ++ others

def value (frame : Frame) : Command width → LoadCommand
  | segment _ fields => .segment (fields.value frame)
  | symtab table => .symtab table
  | dysymtab _ table _ => .dysymtab table
  | dyldInfo .. => .consumed
  | dylib kind timestamp current compatibility p =>
    .dylib { kind, path := p.text, timestamp, current := ⟨current⟩
             compatibility := ⟨compatibility⟩ }
  | path kind p => .path kind p.text
  | uuid mark => .uuid ⟨mark.toList⟩
  | minimum system version sdk =>
    .minimum { platform := system.name, version := ⟨version⟩, sdk := ⟨sdk⟩ }
  | buildVersion platform version sdk _ =>
    .minimum { platform := platformName platform, version := ⟨version⟩, sdk := ⟨sdk⟩ }
  | sourceVersion version => .source version
  | main entry => .main entry
  | linkEdit kind offset size => .linkEdit kind offset size
  | dataInCode .. => .consumed
  | thread .. => .consumed

def size (order : ByteOrder) (c : Command width) : ℕ := 8 + (c.body order).length

def bytes (order : ByteOrder) (c : Command width) : List UInt8 :=
  words order [c.tag.raw, UInt32.ofNat (c.size order)] ++ c.body order

end Command

end MachImage.Written
