import MachImage.Image

/-!
# Readers that keep the file

A `Reader` of a file carries more than a cursor.  When the bytes of a section are first asked
for, it reads the file as a whole and keeps it, and takes these and all later sections out of
what it keeps, so that their bytes are there once.  A `Session` is what is done with a reader;
`Session.parse` decodes a file with one.
-/

namespace MachImage

/-- A cursor and, from the first section on, the bytes of the file. -/
structure Reader where
  cursor : Cursor := {}
  image? : Option Input := none
  deriving DecidableEq, Repr, Inhabited

/-- What is done with the reader of a file. -/
abbrev Session := ReaderT Input (EStateM DecodeError Reader)

/-- All bytes from the cursor on.  The cursor goes to the end of the input, unless it stands
there or further on already. -/
def Decoder.rest : Decoder Input := do
  let input ← read
  let offset ← position
  seek (max offset input.size)
  return input.extract offset input.size

namespace Session

/-- A decoder that works with the cursor of the reader. -/
def ofDecoder {α : Type} (m : Decoder α) : Session α := fun input reader =>
  match m input reader.cursor with
  | .ok a cursor => .ok a { reader with cursor }
  | .error e cursor => .error e { reader with cursor }

/-- The bytes of the file, read on first use and kept from then on. -/
def image : Session Input := do
  match (← get).image? with
  | some image => return image
  | none =>
    let position ← ofDecoder Decoder.position
    ofDecoder (Decoder.seek 0)
    let image ← ofDecoder Decoder.rest
    ofDecoder (Decoder.seek position)
    modify ({ · with image? := some image })
    return image

/-- The `length` bytes from `offset` on of the file that is kept. -/
def shared (offset length : Nat) : Session (Array UInt8) := do
  match (← image).window? offset length with
  | some bytes => return bytes
  | none => throw (.truncated offset length)

/-- Takes the bytes of a section out of the file that is kept. -/
def loadSection (s : Section) : Session Section :=
  return { s with data := ← shared s.offset s.size }

/-- Reads all that a layout declares. -/
def load (stubSize : StubSize) (layout : Layout) : Session Slice := do
  let symbols ← ofDecoder (Slice.readSymbols layout)
  let dynamicSymbols ← ofDecoder (Slice.readIndirect layout)
  let sections ← (Slice.described layout).mapM loadSection
  return Slice.assemble stubSize layout sections symbols dynamicSymbols

def decode (stubSize : StubSize) (base : Nat) : Session Slice := do
  load stubSize (← ofDecoder (Layout.decode base))

def parse (stubSize : StubSize) : Session (Array Slice) := do
  let magic ← ofDecoder Image.decodeMagic
  if isUniversalMagic magic then
    let directory ← ofDecoder decodeDirectory
    directory.mapM fun entry => decode stubSize entry.offset.toNat
  else if isMagic magic then
    return #[← decode stubSize 0]
  else throw (.unsupportedMagic magic)

def detect : Session Bool := ofDecoder Image.detect

/-- Decodes a file that starts with a magic number, with the reader that looked for it. -/
def decodeDetected (stubSize : StubSize) : Session (Option (Array Slice)) := do
  if ← detect then return some (← parse stubSize) else return none

/-- What a session gives on an input. -/
def answer {α : Type} (s : Session α) (input : Input) (reader : Reader) : Except DecodeError α :=
  match s input reader with
  | .ok a _ => .ok a
  | .error e _ => .error e

end Session

end MachImage
