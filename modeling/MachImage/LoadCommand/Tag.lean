import MachImage.LoadInfo
import MachImage.ByteOrder

/-!
# Tags of load commands

Every load command starts with a tag.  `Tag` lists the commands that have a meaning here,
`Tag.raw` gives their numbers, and `Tag.ofRaw?` reads a number.  Tags with bit 31 set mark
commands that the dynamic loader has to understand.
-/

namespace MachImage

/-- What a path in a load command is for. -/
inductive PathKind where
  /-- The dynamic linker to use. -/
  | dylinker
  /-- A setting of the dynamic linker's environment. -/
  | environment
  /-- A directory to search for libraries. -/
  | rpath
  deriving DecidableEq, Repr

/-- What a piece of the linker's data is for. -/
inductive LinkEditKind where
  | codeSignature
  | segmentSplitInfo
  | functionStarts
  | codeSignDrs
  | exportsTrie
  | chainedFixups
  deriving DecidableEq, Repr

/-- A load command that has a meaning. -/
inductive Tag where
  /-- A segment; the tag's width is not the width of its fields. -/
  | segment (width : Width)
  | symtab
  | dysymtab
  | dyldInfo
  | dyldInfoOnly
  | dylib (kind : DylibKind)
  | path (kind : PathKind)
  | uuid
  | versionMinMacos
  | versionMinIos
  | versionMinTvos
  | versionMinWatchos
  | buildVersion
  | sourceVersion
  | main
  | linkEdit (kind : LinkEditKind)
  | dataInCode
  | thread
  | unixThread
  deriving DecidableEq, Repr

namespace Tag

/-- All commands that have a meaning. -/
def all : List Tag := [
  segment .bits32, symtab, thread, unixThread, dysymtab, dylib .load, dylib .id,
  path .dylinker, dylib .weak, segment .bits64, uuid, path .rpath, linkEdit .codeSignature,
  linkEdit .segmentSplitInfo, dylib .reexport, dylib .lazy, dyldInfo, dyldInfoOnly,
  dylib .upward, versionMinMacos, versionMinIos, linkEdit .functionStarts,
  path .environment, main, dataInCode, sourceVersion, linkEdit .codeSignDrs, versionMinTvos,
  versionMinWatchos, buildVersion, linkEdit .exportsTrie, linkEdit .chainedFixups]

def raw : Tag → UInt32
  | segment .bits32 => 0x01
  | symtab => 0x02
  | thread => 0x04
  | unixThread => 0x05
  | dysymtab => 0x0B
  | dylib .load => 0x0C
  | dylib .id => 0x0D
  | path .dylinker => 0x0E
  | dylib .weak => 0x80000018
  | segment .bits64 => 0x19
  | uuid => 0x1B
  | path .rpath => 0x8000001C
  | linkEdit .codeSignature => 0x1D
  | linkEdit .segmentSplitInfo => 0x1E
  | dylib .reexport => 0x8000001F
  | dylib .lazy => 0x20
  | dyldInfo => 0x22
  | dyldInfoOnly => 0x80000022
  | dylib .upward => 0x80000023
  | versionMinMacos => 0x24
  | versionMinIos => 0x25
  | linkEdit .functionStarts => 0x26
  | path .environment => 0x27
  | main => 0x80000028
  | dataInCode => 0x29
  | sourceVersion => 0x2A
  | linkEdit .codeSignDrs => 0x2B
  | versionMinTvos => 0x2F
  | versionMinWatchos => 0x30
  | buildVersion => 0x32
  | linkEdit .exportsTrie => 0x80000033
  | linkEdit .chainedFixups => 0x80000034

def ofRaw? (raw : UInt32) : Option Tag := all.find? (·.raw = raw)

def name : Tag → String
  | segment .bits32 => "LC_SEGMENT"
  | symtab => "LC_SYMTAB"
  | thread => "LC_THREAD"
  | unixThread => "LC_UNIXTHREAD"
  | dysymtab => "LC_DYSYMTAB"
  | dylib .load => "LC_LOAD_DYLIB"
  | dylib .id => "LC_ID_DYLIB"
  | path .dylinker => "LC_LOAD_DYLINKER"
  | dylib .weak => "LC_LOAD_WEAK_DYLIB"
  | segment .bits64 => "LC_SEGMENT_64"
  | uuid => "LC_UUID"
  | path .rpath => "LC_RPATH"
  | linkEdit .codeSignature => "LC_CODE_SIGNATURE"
  | linkEdit .segmentSplitInfo => "LC_SEGMENT_SPLIT_INFO"
  | dylib .reexport => "LC_REEXPORT_DYLIB"
  | dylib .lazy => "LC_LAZY_LOAD_DYLIB"
  | dyldInfo => "LC_DYLD_INFO"
  | dyldInfoOnly => "LC_DYLD_INFO_ONLY"
  | dylib .upward => "LC_LOAD_UPWARD_DYLIB"
  | versionMinMacos => "LC_VERSION_MIN_MACOSX"
  | versionMinIos => "LC_VERSION_MIN_IPHONEOS"
  | linkEdit .functionStarts => "LC_FUNCTION_STARTS"
  | path .environment => "LC_DYLD_ENVIRONMENT"
  | main => "LC_MAIN"
  | dataInCode => "LC_DATA_IN_CODE"
  | sourceVersion => "LC_SOURCE_VERSION"
  | linkEdit .codeSignDrs => "LC_DYLIB_CODE_SIGN_DRS"
  | versionMinTvos => "LC_VERSION_MIN_TVOS"
  | versionMinWatchos => "LC_VERSION_MIN_WATCHOS"
  | buildVersion => "LC_BUILD_VERSION"
  | linkEdit .exportsTrie => "LC_DYLD_EXPORTS_TRIE"
  | linkEdit .chainedFixups => "LC_DYLD_CHAINED_FIXUPS"

def nameOfRaw (raw : UInt32) : String := ((ofRaw? raw).map name).getD "LC_UNKNOWN"

end Tag

def platformName (number : UInt32) : String :=
  match number.toNat with
  | 1 => "macos"
  | 2 => "ios"
  | 3 => "tvos"
  | 4 => "watchos"
  | 5 => "bridgeos"
  | 6 => "maccatalyst"
  | 7 => "iossimulator"
  | 8 => "tvossimulator"
  | 9 => "watchossimulator"
  | 10 => "driverkit"
  | 11 => "visionos"
  | 12 => "visionossimulator"
  | other => "platform " ++ toString other

end MachImage
