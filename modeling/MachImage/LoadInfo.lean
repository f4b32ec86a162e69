import MachImage.Text.Basic

/-!
# What the loader is told

Some load commands point at no bytes of the file but tell the dynamic loader what an image
needs: libraries, search paths, versions, where to start.  `LoadInfo` collects them.

Versions are packed into one number.  `Version` has three components in 32 bits, 16, 8 and 8
of them; `SourceVersion` has five in 64 bits, 24 and four times 10.
-/

namespace MachImage

open Text

/-! ### Packed versions -/

/-- A version of three components, packed into 32 bits. -/
structure Version where
  packed : UInt32
  deriving DecidableEq, Repr

namespace Version

def major (v : Version) : Nat := v.packed.toNat / 0x10000

def minor (v : Version) : Nat := v.packed.toNat / 0x100 % 0x100

def patch (v : Version) : Nat := v.packed.toNat % 0x100

/-- The components with points between them. -/
def text (v : Version) : String :=
  ".".intercalate ([v.major, v.minor, v.patch].map toString)

end Version

/-- A version of five components, packed into 64 bits. -/
structure SourceVersion where
  packed : UInt64
  deriving DecidableEq, Repr

namespace SourceVersion

/-- The five components, the most significant one first. -/
def components (v : SourceVersion) : List Nat :=
  let n := v.packed.toNat
  [n / 0x10000000000, n / 0x40000000 % 0x400, n / 0x100000 % 0x400, n / 0x400 % 0x400,
    n % 0x400]

/-- The components with points between them. -/
def text (v : SourceVersion) : String := ".".intercalate (v.components.map toString)

end SourceVersion

/-! ### Load information -/

/-- How a library is referred to. -/
inductive DylibKind where
  /-- The library is needed. -/
  | load
  /-- The image is this library. -/
  | id
  /-- The library may be missing. -/
  | weak
  /-- The library's symbols are passed on. -/
  | reexport
  /-- The library is loaded on first use. -/
  | lazy
  /-- The library needs this image too. -/
  | upward
  deriving DecidableEq, Repr

def DylibKind.name : DylibKind → String
  | load => "load"
  | id => "id"
  | weak => "weak"
  | reexport => "reexport"
  | lazy => "lazy"
  | upward => "upward"

/-- A library that an image refers to. -/
structure Dylib where
  kind : DylibKind
  path : String
  timestamp : UInt32
  current : Version
  compatibility : Version
  deriving DecidableEq, Repr

/-- The oldest system that an image runs on. -/
structure MinimumVersion where
  platform : String
  version : Version
  sdk : Version
  deriving DecidableEq, Repr

/-- Where an image starts, and how much stack it asks for. -/
structure EntryPoint where
  /-- The distance from the start of the code's segment. -/
  fileOffset : UInt64
  stackSize : UInt64
  deriving DecidableEq, Repr

/-- The sixteen bytes that identify a build. -/
structure Uuid where
  bytes : List UInt8
  deriving DecidableEq, Repr

/-- The bytes as capital hexadecimal digits, in groups of 4, 2, 2, 2 and 6 bytes. -/
def Uuid.text (u : Uuid) : String :=
  let group (start length : Nat) : String :=
    (String.join (((u.bytes.drop start).take length).map hexByte)).map Char.toUpper
  "-".intercalate [group 0 4, group 4 2, group 6 2, group 8 2, group 10 6]

/-- What the load commands of an image tell the loader. -/
structure LoadInfo where
  dylibs : Array Dylib := #[]
  dylinker? : Option String := none
  environment : Array String := #[]
  rpaths : Array String := #[]
  uuid? : Option Uuid := none
  minimum? : Option MinimumVersion := none
  source? : Option SourceVersion := none
  entry? : Option EntryPoint := none
  deriving DecidableEq, Repr

end MachImage
