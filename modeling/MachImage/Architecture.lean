import MachImage.Text.Basic

/-!
# Processors and kinds of files

A header names the processor that its code is for, a variant of it, and what kind of file
it heads.  `CpuType.ofRaw`, `CpuSubtype.ofRaw` and `FileType.ofRaw` read the numbers of a
header; a number with no meaning is kept and never fails.  What a variant's number means
hangs on the processor.
-/

namespace MachImage

open Text

/-- A family of processors. -/
inductive CpuType where
  | x86
  | x86_64
  | hppa
  | arm
  | arm64
  | arm64_32
  | sparc
  | i860
  | powerPc
  | powerPc64
  /-- A number that names no family. -/
  | unknown (raw : UInt32)
  deriving DecidableEq, Repr

namespace CpuType

/-- The family with the number `raw`.  Bit 24 marks a 64-bit family, bit 25 one with
32-bit addresses on a 64-bit processor. -/
def ofRaw (raw : UInt32) : CpuType :=
  match raw.toNat with
  | 7 => x86
  | 0x01000007 => x86_64
  | 11 => hppa
  | 12 => arm
  | 0x0100000C => arm64
  | 0x0200000C => arm64_32
  | 14 => sparc
  | 15 => i860
  | 18 => powerPc
  | 0x01000012 => powerPc64
  | _ => unknown raw

def name : CpuType → String
  | x86 => "x86"
  | x86_64 => "x86_64"
  | hppa => "hppa"
  | arm => "arm"
  | arm64 => "arm64"
  | arm64_32 => "arm64_32"
  | sparc => "sparc"
  | i860 => "i860"
  | powerPc => "ppc"
  | powerPc64 => "ppc64"
  | unknown _ => "unknown"

/-- The name of a family, with its number where it is not known. -/
def text : CpuType → String
  | unknown raw => "unknown (0x" ++ hex raw.toNat ++ ")"
  | cpu => cpu.name

end CpuType

/-- A variant of a processor. -/
inductive CpuSubtype where
  | i386
  | i486
  | i486Sx
  | pentium
  | pentiumPro
  | pentiumIIM3
  | pentiumIIM5
  | celeron
  | celeronMobile
  | pentium3
  | pentium3M
  | pentium3Xeon
  | pentiumM
  | pentium4
  | pentium4M
  | itanium
  | itanium2
  | xeon
  | xeonMp
  | x86_64All
  | x86_64Haswell
  | armAll
  | armV4T
  | armV6
  | armV5Tej
  | armV7
  | armV7S
  | armV7K
  | arm64All
  | arm64V8
  | arm64E
  | powerPcAll
  | powerPc970
  /-- A number that names no variant of its family. -/
  | unknown (raw : UInt32)
  deriving DecidableEq, Repr

namespace CpuSubtype

/-- The variants of 32-bit Intel processors: the family in the low four bits, the model
above them. -/
def ofIntel (raw : UInt32) : CpuSubtype :=
  match raw.toNat with
  | 3 => i386
  | 4 => i486
  | 0x84 => i486Sx
  | 5 => pentium
  | 0x16 => pentiumPro
  | 0x36 => pentiumIIM3
  | 0x56 => pentiumIIM5
  | 0x67 => celeron
  | 0x77 => celeronMobile
  | 8 => pentium3
  | 0x18 => pentium3M
  | 0x28 => pentium3Xeon
  | 9 => pentiumM
  | 10 => pentium4
  | 0x1A => pentium4M
  | 11 => itanium
  | 0x1B => itanium2
  | 12 => xeon
  | 0x1C => xeonMp
  | _ => unknown raw

/-- The variant with the number `raw` of a family. -/
def ofRaw (cpu : CpuType) (raw : UInt32) : CpuSubtype :=
  match cpu with
  | .x86 => ofIntel raw
  | .x86_64 =>
    match raw.toNat with
    | 3 => x86_64All
    | 8 => x86_64Haswell
    | _ => unknown raw
  | .arm =>
    match raw.toNat with
    | 0 => armAll
    | 5 => armV4T
    | 6 => armV6
    | 7 => armV5Tej
    | 9 => armV7
    | 11 => armV7S
    | 12 => armV7K
    | _ => unknown raw
  | .arm64 | .arm64_32 =>
    match raw.toNat with
    | 0 => arm64All
    | 1 => arm64V8
    | 2 => arm64E
    | _ => unknown raw
  | .powerPc | .powerPc64 =>
    match raw.toNat with
    | 0 => powerPcAll
    | 100 => powerPc970
    | _ => unknown raw
  | _ => unknown raw

/-- The name of a variant, or its number where it is not known. -/
def text : CpuSubtype → String
  | i386 => "I386"
  | i486 => "I486"
  | i486Sx => "I486Sx"
  | pentium => "Pentium"
  | pentiumPro => "PentiumPro"
  | pentiumIIM3 => "PentiumIIM3"
  | pentiumIIM5 => "PentiumIIM5"
  | celeron => "Celeron"
  | celeronMobile => "CeleronMobile"
  | pentium3 => "Pentium3"
  | pentium3M => "Pentium3M"
  | pentium3Xeon => "Pentium3Xeon"
  | pentiumM => "PentiumM"
  | pentium4 => "Pentium4"
  | pentium4M => "Pentium4M"
  | itanium => "Itanium"
  | itanium2 => "Itanium2"
  | xeon => "Xeon"
  | xeonMp => "XeonMp"
  | x86_64All => "X86_64All"
  | x86_64Haswell => "X86_64Haswell"
  | armAll => "ArmAll"
  | armV4T => "ArmV4T"
  | armV6 => "ArmV6"
  | armV5Tej => "ArmV5Tej"
  | armV7 => "ArmV7"
  | armV7S => "ArmV7S"
  | armV7K => "ArmV7K"
  | arm64All => "Arm64All"
  | arm64V8 => "Arm64V8"
  | arm64E => "Arm64E"
  | powerPcAll => "PowerPcAll"
  | powerPc970 => "PowerPc970"
  | unknown raw => "unknown (" ++ toString raw.toNat ++ ")"

end CpuSubtype

/-- A kind of object file. -/
inductive FileType where
  /-- An object that is yet to be linked. -/
  | object
  /-- An executable that is paged in on demand. -/
  | execute
  /-- The image of a crashed process. -/
  | core
  /-- An executable that is loaded whole. -/
  | preload
  /-- A dynamic library. -/
  | dylib
  /-- The dynamic linker. -/
  | dylinker
  /-- A bundle to be loaded at run time. -/
  | bundle
  /-- A number that names no kind. -/
  | unknown (raw : UInt32)
  deriving DecidableEq, Repr

namespace FileType

def ofRaw (raw : UInt32) : FileType :=
  match raw.toNat with
  | 1 => object
  | 2 => execute
  | 4 => core
  | 5 => preload
  | 6 => dylib
  | 7 => dylinker
  | 8 => bundle
  | _ => unknown raw

/-- The name of a kind, or its number where it is not known. -/
def text : FileType → String
  | object => "object"
  | execute => "executable"
  | core => "core"
  | preload => "preload"
  | dylib => "dylib"
  | dylinker => "dylinker"
  | bundle => "bundle"
  | unknown raw => "unknown (" ++ toString raw.toNat ++ ")"

end FileType

end MachImage
