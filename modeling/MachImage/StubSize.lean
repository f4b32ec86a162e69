import MachImage.Architecture
import MachImage.Text.Basic

/-!
# The size of a stub

Stubs lie one behind the other, so the address of a stub follows from their size.  How
large they are hangs on the processor; the section of stubs tells it too, and `StubSize`
says whom to believe.  Which size follows is listed case by case in `StubSize.Gives`, and
`resolve` finds it.  A `StubSize` is chosen by a word or a number of bytes (`StubSize.parse`).
-/

namespace MachImage

open Text

/-- How the size of a stub is found. -/
inductive StubSize where
  /-- Six bytes, as on the oldest processors. -/
  | legacy
  /-- A given number of bytes. -/
  | fixed (size : UInt64)
  /-- As the section of stubs declares. -/
  | fromSection
  /-- As is usual on the processor. -/
  | perArchitecture
  deriving DecidableEq, Repr, Inhabited

/-- A text that is neither a word for a stub size nor a number of bytes. -/
structure InvalidStubSize where
  text : String
  deriving DecidableEq, Repr

def InvalidStubSize.message (e : InvalidStubSize) : String :=
  "Invalid stub size '" ++ e.text ++ "': expected legacy, section, arch or a byte count"

namespace StubSize

/-- The size where nothing better is known. -/
def legacySize : UInt64 := 6

/-- The size of a stub for a processor, given what the section of stubs declares. -/
def resolve (choice : StubSize) (cpu : CpuType) (declared? : Option UInt32) : UInt64 :=
  match choice with
  | legacy => legacySize
  | fixed size => size
  | fromSection =>
    match declared? with
    | some declared => if declared = 0 then legacySize else declared.toUInt64
    | none => legacySize
  | perArchitecture =>
    match cpu with
    | .arm | .arm64 | .arm64_32 => 12
    | .powerPc | .powerPc64 => 20
    | _ => legacySize

/-- The size that a choice stands for on a processor, where the section of stubs declares a
size or none: six bytes where nothing else is said, or those that are given, or declared
unless they are none, or usual on the processor. -/
inductive Gives : StubSize → CpuType → Option UInt32 → Nat → Prop
  | legacy (cpu : CpuType) (declared? : Option UInt32) : Gives legacy cpu declared? 6
  | fixed (size : UInt64) (cpu : CpuType) (declared? : Option UInt32) :
      Gives (fixed size) cpu declared? size.toNat
  | declared {size : UInt32} (h : size ≠ 0) (cpu : CpuType) :
      Gives fromSection cpu (some size) size.toNat
  | undeclared {declared? : Option UInt32} (h : declared? = none ∨ declared? = some 0)
      (cpu : CpuType) : Gives fromSection cpu declared? 6
  | arm {cpu : CpuType} (h : cpu ∈ [.arm, .arm64, .arm64_32]) (declared? : Option UInt32) :
      Gives perArchitecture cpu declared? 12
  | powerPc {cpu : CpuType} (h : cpu ∈ [.powerPc, .powerPc64]) (declared? : Option UInt32) :
      Gives perArchitecture cpu declared? 20
  | other {cpu : CpuType} (h : cpu ∉ [.arm, .arm64, .arm64_32, .powerPc, .powerPc64])
      (declared? : Option UInt32) : Gives perArchitecture cpu declared? 6

theorem toNat_resolve_fromSection {size : UInt32} (h : size ≠ 0) (cpu : CpuType) :
    (resolve fromSection cpu (some size)).toNat = size.toNat := by
  have hresolve : resolve fromSection cpu (some size) = size.toUInt64 := if_neg h
  rw [hresolve, UInt32.toNat_toUInt64]

theorem gives_resolve (choice : StubSize) (cpu : CpuType) (declared? : Option UInt32) :
    choice.Gives cpu declared? (choice.resolve cpu declared?).toNat := by
  cases choice with
  | legacy => exact .legacy cpu declared?
  | fixed size => exact .fixed size cpu declared?
  | fromSection =>
    cases declared? with
    | none => exact .undeclared (.inl rfl) cpu
    | some size =>
      by_cases h : size = 0
      · subst h
        exact .undeclared (.inr rfl) cpu
      · rw [toNat_resolve_fromSection h]
        exact .declared h cpu
  | perArchitecture =>
    cases cpu with
    | arm | arm64 | arm64_32 => exact .arm (by decide) declared?
    | powerPc | powerPc64 => exact .powerPc (by decide) declared?
    | x86 | x86_64 | hppa | sparc | i860 | unknown => exact .other (by simp) declared?

/-- A choice stands for one size, and `resolve` finds it. -/
theorem gives_iff {choice : StubSize} {cpu : CpuType} {declared? : Option UInt32} {size : Nat} :
    choice.Gives cpu declared? size ↔ (choice.resolve cpu declared?).toNat = size := by
  constructor
  · intro h
    cases h with
    | legacy | fixed => rfl
    | declared h => exact toNat_resolve_fromSection h cpu
    | undeclared h => obtain rfl | rfl := h <;> rfl
    | arm h | powerPc h | other h => cases cpu <;> first | rfl | exact absurd h (by simp)
  · rintro rfl
    exact gives_resolve choice cpu declared?

/-- The number below 2⁶⁴ that decimal digits write, a plus sign in front allowed. -/
def parseCount? (text : List Char) : Option UInt64 :=
  let digits := match text with
    | '+' :: digits => digits
    | digits => digits
  if digits ≠ [] ∧ digits.all Char.isDigit then
    let n := digits.foldl (fun n d => 10 * n + (d.toNat - '0'.toNat)) 0
    if n < UInt64.size then some (UInt64.ofNat n) else none
  else none

/-- Reads a choice; blanks around it and capitals make no difference. -/
def parse (text : String) : Except InvalidStubSize StubSize :=
  let word := lower (trim text.toList)
  if word = "legacy".toList then .ok legacy
  else if word = "section".toList then .ok fromSection
  else if word = "arch".toList then .ok perArchitecture
  else match parseCount? word with
    | some size => .ok (fixed size)
    | none => .error ⟨text⟩

def text : StubSize → String
  | legacy => "legacy"
  | fixed size => toString size
  | fromSection => "section"
  | perArchitecture => "arch"

end StubSize

end MachImage
