import MachImage.Architecture
import MachImage.Decoder

/-!
# Headers

An image starts with a magic number, which also tells its width and byte order, and a
header of fixed size.  The number is read with its lowest byte first.  A `Frame` is what
the rest of a slice needs to know of it: the width, the order, and where the slice starts
in the file.  `Header.decode` reads both.

Sums of file positions stop at the largest 64-bit number.
-/

namespace MachImage

/-- The largest position in a file. -/
def maxPosition : Nat := UInt64.size - 1

/-- The sum of two positions, at most the largest one. -/
def addPositions (a b : Nat) : Nat := min (a + b) maxPosition

/-- The width and byte order of a slice, and where it starts in the file. -/
structure Frame where
  width : Width
  order : ByteOrder
  base : Nat
  deriving DecidableEq, Repr

namespace Frame

/-- The frame of a slice that starts with a magic number at `base`. -/
def ofMagic? (magic : UInt32) (base : Nat) : Option Frame :=
  if magic = 0xFEEDFACE then some { width := .bits32, order := .little, base }
  else if magic = 0xFEEDFACF then some { width := .bits64, order := .little, base }
  else if magic = 0xECAFDEEF then some { width := .bits32, order := .big, base }
  else if magic = 0xFCAFDEEF then some { width := .bits64, order := .big, base }
  else none

/-- The position in the file of a position in the slice. -/
def fileOffset (frame : Frame) (relative : Nat) : Nat := addPositions frame.base relative

/-- The bytes of the header, the magic number among them. -/
def headerSize (frame : Frame) : Nat :=
  match frame.width with
  | .bits32 => 28
  | .bits64 => 32

end Frame

/-- Whether a magic number starts a container of several slices. -/
def isUniversalMagic (magic : UInt32) : Bool := magic = 0xCAFEBABE || magic = 0xBEBAFECA

/-- Whether a file may start with a magic number. -/
def isMagic (magic : UInt32) : Bool :=
  (Frame.ofMagic? magic 0).isSome || isUniversalMagic magic

/-- The header of a slice. -/
structure Header where
  magic : UInt32
  cpuType : CpuType
  cpuSubtype : CpuSubtype
  fileType : FileType
  /-- The number of load commands. -/
  commandCount : UInt32
  /-- The bytes that all load commands are said to take. -/
  commandsSize : UInt32
  flags : UInt32
  deriving DecidableEq, Repr

namespace Header

/-- Where the load commands are said to end. -/
def commandsEnd (header : Header) (frame : Frame) : Nat :=
  frame.fileOffset (frame.headerSize + header.commandsSize.toNat)

/-- The number of a variant without the capabilities in its highest byte, which only 64-bit
headers have. -/
def subtypeBits (width : Width) (raw : UInt32) : UInt32 :=
  match width with
  | .bits32 => raw
  | .bits64 => raw &&& 0x00FFFFFF

/-- Reads the header of the slice at `base`, and goes on in its byte order at its first
load command. -/
def decode (base : Nat) : Decoder (Frame × Header) := do
  Decoder.seek base
  Decoder.setOrder .little
  let magic ← Decoder.u32
  match Frame.ofMagic? magic base with
  | none => throw (.unsupportedMagic magic)
  | some frame =>
    Decoder.setOrder frame.order
    let cpuType := CpuType.ofRaw (← Decoder.u32)
    let subtype ← Decoder.u32
    let fileType := FileType.ofRaw (← Decoder.u32)
    let commandCount ← Decoder.u32
    let commandsSize ← Decoder.u32
    let flags ← Decoder.u32
    -- a 64-bit header has one more field, which is reserved
    if frame.width = .bits64 then let _ ← Decoder.u32
    let cpuSubtype := CpuSubtype.ofRaw cpuType (subtypeBits frame.width subtype)
    return (frame,
      { magic, cpuType, cpuSubtype, fileType, commandCount, commandsSize, flags })

end Header

end MachImage
