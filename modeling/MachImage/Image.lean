import MachImage.Slice

/-!
# Images

A file is a single slice or a universal container of several.  A container holds one image for
each of several processors: behind its magic number stands a directory, always with the highest
byte of a number first, that tells where each slice starts.  Of an entry only the start matters
for decoding, since a slice tells its processor and extent itself.

`Image.detect` looks at the first four bytes and tells whether a file can be one of the two;
`Image.parse` decodes all slices, in the order of the directory, or fails with the error of the
first one that cannot be decoded.  Both start at the first byte, wherever the cursor stands.
-/

namespace MachImage

/-! ### Directories -/

/-- An entry of the directory of a universal file. -/
structure DirectoryEntry where
  offset : UInt32
  size : UInt32
  /-- The slice should start at a multiple of this power of two. -/
  align : UInt32
  deriving DecidableEq, Repr

namespace DirectoryEntry

/-- Whether the slice starts where its alignment asks for; a power beyond 32 bits cannot be
honoured. -/
def isAligned (entry : DirectoryEntry) : Bool :=
  entry.align < 32 && entry.offset.toNat % (1 <<< entry.align.toNat) = 0

def decode : Decoder DirectoryEntry := do
  let _cpuType ← Decoder.u32
  let _cpuSubtype ← Decoder.u32
  let offset ← Decoder.u32
  let size ← Decoder.u32
  let align ← Decoder.u32
  return { offset, size, align }

end DirectoryEntry

/-- Reads the directory of a universal file, from its count of entries on. -/
def decodeDirectory : Decoder (Array DirectoryEntry) := do
  Decoder.setOrder .big
  let count ← Decoder.u32
  Decoder.repeated count.toNat DirectoryEntry.decode

/-! ### Files -/

namespace Image

def decodeMagic : Decoder UInt32 := do
  Decoder.seek 0
  Decoder.setOrder .little
  Decoder.u32

/-- Reads all slices of a file. -/
def parse (stubSize : StubSize) : Decoder (Array Slice) := do
  let magic ← decodeMagic
  if isUniversalMagic magic then
    let directory ← decodeDirectory
    directory.mapM fun entry => Slice.decode stubSize entry.offset.toNat
  else if isMagic magic then
    return #[← Slice.decode stubSize 0]
  else throw (.unsupportedMagic magic)

/-- Whether a file starts with a magic number; the byte order stays as it was. -/
def detect : Decoder Bool := do
  let order ← Decoder.order
  let detected ← try pure (isMagic (← decodeMagic)) catch _ => pure false
  Decoder.setOrder order
  return detected

end Image

end MachImage
