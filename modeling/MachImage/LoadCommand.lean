import MachImage.Header
import MachImage.LoadCommand.Tag
import MachImage.Memory

/-!
# Load commands

Behind the header stands a list of load commands, each with its tag and size in front.
`LoadCommand.decode` reads the one at the cursor.  However much of it has a meaning, the
cursor then stands where its size says that the next one starts, so that an unknown or
oversized command shifts nothing.  A size below that of tag and size themselves counts as
eight bytes.
-/

namespace MachImage

open Text

/-- The tag and size of a load command, and where it starts in the file. -/
structure CommandHeader where
  tag : UInt32
  size : UInt32
  offset : Nat
  deriving DecidableEq, Repr

namespace CommandHeader

/-- The bytes up to the next command. -/
def effectiveSize (h : CommandHeader) : Nat := max h.size.toNat 8

/-- Whether the size leaves no room for tag and size. -/
def isUndersized (h : CommandHeader) : Bool := h.size < 8

/-- Where the next command starts. -/
def stop (h : CommandHeader) : Nat := h.offset + h.effectiveSize

/-- Where the next command starts, as a position of 64 bits. -/
def nextOffset (h : CommandHeader) : Nat := addPositions h.offset h.effectiveSize

/-- The bytes of the command from the byte `start` of it on. -/
def remainingFrom (h : CommandHeader) (start : Nat) : Nat := h.size.toNat - start

def decode : Decoder CommandHeader := do
  let offset ← Decoder.position
  let tag ← Decoder.u32
  let size ← Decoder.u32
  return { tag, size, offset }

end CommandHeader

/-- A section as its segment declares it.  The offset counts from the start of the slice. -/
structure SectionHeader where
  sectionName : String
  segmentName : String
  address : UInt64
  size : UInt64
  offset : UInt32
  align : UInt32
  relocOffset : UInt32
  relocCount : UInt32
  flags : UInt32
  reserved1 : UInt32
  /-- The size of a stub, for a section of stubs. -/
  reserved2 : UInt32
  deriving DecidableEq, Repr

/-- A segment and the headers of its sections. -/
structure SegmentCommand where
  segment : Segment
  sections : Array SectionHeader
  deriving DecidableEq, Repr

/-- Where the symbols and their names are, counted from the start of the slice. -/
structure Symtab where
  symbolOffset : UInt32
  symbolCount : UInt32
  stringOffset : UInt32
  stringSize : UInt32
  deriving DecidableEq, Repr

/-- Where the indirect symbols are, counted from the start of the slice. -/
structure IndirectSymbols where
  offset : UInt32
  count : UInt32
  deriving DecidableEq, Repr

inductive LoadCommand where
  | segment (command : SegmentCommand)
  | symtab (symtab : Symtab)
  | dysymtab (indirect : IndirectSymbols)
  | dylib (dylib : Dylib)
  | path (kind : PathKind) (path : String)
  | uuid (uuid : Uuid)
  | minimum (minimum : MinimumVersion)
  | source (version : SourceVersion)
  | main (entry : EntryPoint)
  | linkEdit (kind : LinkEditKind) (offset size : UInt32)
  /-- A command whose fields are read and not kept. -/
  | consumed
  /-- A command without a meaning. -/
  | unrecognized
  deriving DecidableEq, Repr

/-! ### Segments -/

def SectionHeader.decode (width : Width) : Decoder SectionHeader := do
  let sectionName ← Decoder.name16
  let segmentName ← Decoder.name16
  let address ← Decoder.word width
  let size ← Decoder.word width
  let offset ← Decoder.u32
  let align ← Decoder.u32
  let relocOffset ← Decoder.u32
  let relocCount ← Decoder.u32
  let flags ← Decoder.u32
  let reserved1 ← Decoder.u32
  let reserved2 ← Decoder.u32
  -- a 64-bit header has one more reserved field
  if width = .bits64 then let _ ← Decoder.u32
  return { sectionName, segmentName, address, size, offset, align, relocOffset, relocCount,
           flags, reserved1, reserved2 }

/-- Reads the fields of a segment behind its tag and size, and the headers of its sections. -/
def SegmentCommand.decode (frame : Frame) : Decoder SegmentCommand := do
  let name ← Decoder.name16
  let address ← Decoder.word frame.width
  let vmSize ← Decoder.word frame.width
  let fileOffset ← Decoder.word frame.width
  let fileSize ← Decoder.word frame.width
  let maxProtection ← Decoder.u32
  let initialProtection ← Decoder.u32
  let sectionCount ← Decoder.u32
  let flags ← Decoder.u32
  let sections ← Decoder.repeated sectionCount.toNat (SectionHeader.decode frame.width)
  let segment : Segment :=
    { name, address := ⟨address⟩, vmSize
      fileOffset := frame.fileOffset fileOffset.toNat, fileSize
      maxProtection := ⟨maxProtection⟩, initialProtection := ⟨initialProtection⟩
      sectionCount, flags }
  return { segment, sections }

/-! ### Tables -/

def Symtab.decode : Decoder Symtab := do
  let symbolOffset ← Decoder.u32
  let symbolCount ← Decoder.u32
  let stringOffset ← Decoder.u32
  let stringSize ← Decoder.u32
  return { symbolOffset, symbolCount, stringOffset, stringSize }

/-- Reads where the indirect symbols are; twelve fields stand in front and four behind. -/
def IndirectSymbols.decode : Decoder IndirectSymbols := do
  let _ ← Decoder.repeated 12 Decoder.u32
  let offset ← Decoder.u32
  let count ← Decoder.u32
  let _ ← Decoder.repeated 4 Decoder.u32
  return { offset, count }

/-! ### Paths -/

/-- The text from the byte `start` of a command to its end or its first NUL.  A start
behind the end leaves no text. -/
def CommandHeader.decodeText (header : CommandHeader) (start : UInt32) : Decoder String := do
  let length := header.remainingFrom start.toNat
  if length = 0 then return ""
  Decoder.seek (header.offset + start.toNat)
  return upToNul (← Decoder.bytes length).toList

def Dylib.decode (header : CommandHeader) (kind : DylibKind) : Decoder Dylib := do
  let start ← Decoder.u32
  let timestamp ← Decoder.u32
  let current ← Decoder.u32
  let compatibility ← Decoder.u32
  let path ← header.decodeText start
  return { kind, path, timestamp, current := ⟨current⟩, compatibility := ⟨compatibility⟩ }

/-! ### Versions and the entry point -/

/-- Reads the oldest version of a platform and the version of its development kit. -/
def MinimumVersion.decode (platform : String) : Decoder MinimumVersion := do
  let version ← Decoder.u32
  let sdk ← Decoder.u32
  return { platform, version := ⟨version⟩, sdk := ⟨sdk⟩ }

/-- Reads a platform and its versions; the tools listed behind are not read. -/
def MinimumVersion.decodeBuild : Decoder MinimumVersion := do
  let platform ← Decoder.u32
  let minimum ← MinimumVersion.decode (platformName platform)
  let _toolCount ← Decoder.u32
  return minimum

def EntryPoint.decode : Decoder EntryPoint := do
  let fileOffset ← Decoder.u64
  let stackSize ← Decoder.u64
  return { fileOffset, stackSize }

/-! ### Commands whose content is not kept -/

/-- Passes over the state of a thread: its kind, a count of 32-bit words, and the words, as
far as the command reaches. -/
def skipThread (header : CommandHeader) : Decoder Unit := do
  let _flavor ← Decoder.u32
  let count ← Decoder.u32
  let _ ← Decoder.bytes (min (count.toNat * 4) (header.remainingFrom 16))

/-- Passes over the offset, length and kind of data between code. -/
def skipDataInCode : Decoder Unit := do
  let _offset ← Decoder.u32
  let _length ← Decoder.u16
  let _kind ← Decoder.u16

namespace LoadCommand

def decodeLinkEdit (kind : LinkEditKind) : Decoder LoadCommand := do
  let offset ← Decoder.u32
  let size ← Decoder.u32
  return .linkEdit kind offset size

/-- Reads what follows the tag and size of a command. -/
def decodeBody (frame : Frame) (header : CommandHeader) (tag : Tag) : Decoder LoadCommand := do
  match tag with
  | .segment _ => return .segment (← SegmentCommand.decode frame)
  | .symtab => return .symtab (← Symtab.decode)
  | .dysymtab => return .dysymtab (← IndirectSymbols.decode)
  | .dyldInfo | .dyldInfoOnly =>
    let _ ← Decoder.repeated 10 Decoder.u32
    return .consumed
  | .dylib kind => return .dylib (← Dylib.decode header kind)
  | .path kind =>
    let start ← Decoder.u32
    return .path kind (← header.decodeText start)
  | .uuid => return .uuid ⟨(← Decoder.bytes 16).toList⟩
  | .versionMinMacos => return .minimum (← MinimumVersion.decode "macos")
  | .versionMinIos => return .minimum (← MinimumVersion.decode "ios")
  | .versionMinTvos => return .minimum (← MinimumVersion.decode "tvos")
  | .versionMinWatchos => return .minimum (← MinimumVersion.decode "watchos")
  | .buildVersion => return .minimum (← MinimumVersion.decodeBuild)
  | .sourceVersion => return .source ⟨← Decoder.u64⟩
  | .main => return .main (← EntryPoint.decode)
  | .linkEdit kind => decodeLinkEdit kind
  | .dataInCode =>
    skipDataInCode
    return .consumed
  | .thread | .unixThread =>
    skipThread header
    return .consumed

/-- Reads the command at the cursor, and goes on where the next one starts. -/
def decode (frame : Frame) : Decoder (CommandHeader × LoadCommand) := do
  let header ← CommandHeader.decode
  let command ← match Tag.ofRaw? header.tag with
    | some tag => decodeBody frame header tag
    | none => pure .unrecognized
  Decoder.seek header.stop
  return (header, command)

end LoadCommand

end MachImage
