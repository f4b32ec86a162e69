import MachImage.Slice

/-!
# Reports

What is shown of a slice, as lines of text: `info` gives an overview, `sections` lists the
sections, with their bytes if wanted, and `symbols` lists one of the symbol tables.  Every
report opens with the line `title`.  `HexRow` is a line of a hexadecimal dump: an address,
up to sixteen bytes as digits, and the same bytes as characters.
-/

namespace MachImage.Report

open Text

/-- The first line of a report on the slice at `position` among its file's slices. -/
def title (position : Nat) (slice : Slice) : String :=
  let cpu := s!"{slice.cpuType.text} ({slice.cpuSubtype.text})"
  s!"== slice {position}: {cpu} at 0x{hex slice.frame.base} =="

/-! ### Overview -/

/-- A labelled line; all labels have one width. -/
def entry (label value : String) : String := "  " ++ padRight 14 (label ++ ":") ++ value

def dylib (d : Dylib) : String :=
  s!"{d.path} [{d.kind.name}] {d.current.text}"

def minimum (m : MinimumVersion) : String :=
  s!"{m.platform} {m.version.text} (SDK {m.sdk.text})"

def segment (s : Segment) : String :=
  let permissions := s!"{s.initialProtection.text}/{s.maxProtection.text}"
  s!"    {padRight 16 s.name} {s.address.text} size 0x{hex s.vmSize.toNat} {permissions}"

/-- The segments under their heading, if there are any. -/
def segments (slice : Slice) : List String :=
  if slice.segments.isEmpty then []
  else "  Segments:" :: slice.segments.toList.map segment

def loadInfo (info : LoadInfo) : List String :=
  (info.uuid?.map (entry "UUID" ·.text)).toList ++
  (info.minimum?.map (entry "Minimum OS" <| minimum ·)).toList ++
  (info.source?.map (entry "Source" ·.text)).toList ++
  (info.entry?.map fun e => entry "Entry offset" ("0x" ++ hex e.fileOffset.toNat)).toList ++
  (info.dylinker?.map (entry "Dylinker")).toList ++
  info.dylibs.toList.map (entry "Dylib" <| dylib ·) ++
  info.rpaths.toList.map (entry "Rpath")

def info (position : Nat) (slice : Slice) : List String :=
  [title position slice,
    entry "Format" (slice.frame.width.name ++ " " ++ slice.frame.order.name),
    entry "File type" slice.fileType.text,
    entry "Flags" ("0x" ++ hexPadded 8 slice.flags.toNat),
    entry "Sections" (toString slice.sections.size),
    entry "Symbols" (toString slice.symbols.size),
    entry "Dynamic" (toString slice.dynamicSymbols.size)] ++
  loadInfo slice.loadInfo ++ segments slice ++
  slice.diagnostics.toList.map ("  warning: " ++ ·.message)

/-! ### Sections -/

/-- A row of a hexadecimal dump: the address of its first byte, and at most sixteen bytes. -/
structure HexRow where
  address : Address
  bytes : List UInt8
  deriving DecidableEq, Repr

namespace HexRow

def size : Nat := 16

/-- The rows of some bytes that start at an address. -/
def ofBytes (start : Address) (bytes : Array UInt8) : List HexRow :=
  (List.range ((bytes.size + size - 1) / size)).map fun row =>
    { address := start.advance (UInt64.ofNat (size * row))
      bytes := (bytes.extract (size * row) (size * row + size)).toList }

/-- The character that stands for a byte: its own if it is visible ASCII or the blank. -/
def shown (b : UInt8) : Char := if 0x20 ≤ b ∧ b ≤ 0x7E then Char.ofNat b.toNat else '.'

/-- The bytes as digits, with blanks between them. -/
def digits (row : HexRow) : String := " ".intercalate (row.bytes.map hexByte)

def characters (row : HexRow) : String := String.ofList (row.bytes.map shown)

def line (row : HexRow) : String :=
  s!"    {hexPadded 16 row.address.value.toNat}  {padRight 47 row.digits}  {row.characters}"

end HexRow

def sectionLine (s : Section) : String :=
  let names := s!"{padRight 22 s.label} {padRight 20 s.kind.name}"
  s!"  {names} addr {s.address.text} size 0x{padRight 8 (hex s.size)} offset 0x{hex s.offset}"

def dump (s : Section) : List String := (HexRow.ofBytes s.address s.data).map HexRow.line

/-- The sections of a slice, with their bytes or without. -/
def sections (withBytes : Bool) (position : Nat) (slice : Slice) : List String :=
  title position slice :: slice.sections.toList.flatMap fun s =>
    sectionLine s :: if withBytes then dump s else []

/-! ### Symbols -/

/-- A symbol as it is listed, with its name or with the path that the name stands for. -/
def symbol [Demangler] (demangle : Bool) (s : Symbol) : String :=
  let name := if demangle then s.text else s.name
  s!"  0x{hexPadded 16 s.value.toNat}  {padLeft (Char.ofNat 32) 6 (toString s.index)}  {name}"

def symbols [Demangler] (kind : SymbolTableKind) (demangle : Bool) (position : Nat)
    (slice : Slice) : List String :=
  let table := slice.symbolTable kind
  title position slice ::
    if table.isEmpty then ["  no " ++ kind.name]
    else table.symbols.toList.map (symbol demangle)

end MachImage.Report
