import MachImage.Mangling.Legacy
import MachImage.Mangling.V0.Grammar
import MachImage.Symbol

/-!
# Mangled names

A compiler packs the path of an item into one word, its mangled name.  `demangle?` gives
the path back for names of the two Rust manglings, and fails on all others.  What a linker
adds to a name is no part of the path: the mark of a copy made at link time is dropped, and
any other addition after a point is kept behind the path as it is.

The newer of the two manglings starts with `_R` and a path, `_RNvC3foo3bar` for `foo::bar`;
the first underscore may be missing, or there may be one more.  A second path may follow, of
the crate that asked for the code, and it is not shown.  `V0.read?` accepts a name whose paths
can be read and finds what follows them, and `V0.text` prints the path.
-/

namespace MachImage.Mangling

/-! ### Names with back references -/

namespace V0

/-- A name without the letters that announce this mangling. -/
def body? : List Char → Option (List Char)
  | '_' :: 'R' :: body => some body
  | 'R' :: body => some body
  | '_' :: '_' :: 'R' :: body => some body
  | _ => none

/-- Whether a path can start here: every path starts with a capital. -/
def startsPath (rest : List Char) : Bool := rest.head?.any Char.isUpper

/-- The place behind a path. -/
def skipPath? (body : List Char) (place : Place) : Option Place :=
  match path false body { reading := .ok place, muted := true } with
  | .ok _ s => s.reading.toOption
  | .error _ _ => none

/-- The path of a name with all that follows it, and the part that follows its paths, if
the name is mangled this way. -/
def read? (name : List Char) : Option (List Char × List Char) := do
  let body ← body? name
  if startsPath body && body.all fun c => c.toNat < 0x80 then
    let place ← skipPath? body { rest := body, index := 0 }
    let place ← if startsPath place.rest then skipPath? body place else some place
    return (body, place.rest)
  else none

/-- The path that starts the name's body, as it is read by people. -/
def text (body : List Char) : String :=
  match path true body { reading := .ok { rest := body, index := 0 } } with
  | .ok _ s => s.output.text
  | .error _ s => s.output.text ++ Output.fullMarker

end V0

/-! ### Names of both manglings -/

/-- The mark that stands between a name and the number of a copy made at link time. -/
def copyMark : List Char := ".llvm.".toList

/-- What stands before the first copy mark and behind it. -/
def splitAtCopyMark : List Char → Option (List Char × List Char)
  | [] => none
  | c :: rest =>
    if copyMark.isPrefixOf (c :: rest) then some ([], (c :: rest).drop copyMark.length)
    else (splitAtCopyMark rest).map fun (before, behind) => (c :: before, behind)

/-- Whether a character can occur in the number of a copy. -/
def isCopyDigit (c : Char) : Bool := c.isDigit || ('A' ≤ c && c ≤ 'F') || c = '@'

/-- A name without the mark and number of a copy. -/
def withoutCopyNumber (name : List Char) : List Char :=
  match splitAtCopyMark name with
  | some (before, behind) => if behind.all isCopyDigit then before else name
  | none => name

/-- Whether the rest of a name may stay behind its path: it is empty, or it starts with a
point and consists of visible characters of ASCII. -/
def isSuffix (suffix : List Char) : Bool :=
  suffix.isEmpty ||
    (suffix.head? = some '.' && suffix.all fun c => 0x21 ≤ c.toNat && c.toNat ≤ 0x7E)

/-- A mangled name that could be read: the elements of its path, or a body to be printed. -/
inductive Mangled where
  | legacy (elements : List (List Char))
  | v0 (body : List Char)
  deriving DecidableEq, Repr

/-- The path that was mangled, as people read it. -/
def Mangled.text : Mangled → String
  | .legacy elements => Output.writeAll {} (Legacy.pieces elements)
  | .v0 body => V0.text body

/-- Reads a mangled name and what follows it, in the first of the two ways that fits. -/
def readAny? (name : List Char) : Option (Mangled × List Char) :=
  match Legacy.read? name with
  | some (elements, suffix) => some (.legacy elements, suffix)
  | none => (V0.read? name).map fun (body, suffix) => (.v0 body, suffix)

/-- Reads a mangled name and the part of it that stays behind the path. -/
def read? (name : String) : Option (Mangled × List Char) :=
  (readAny? (withoutCopyNumber name.toList)).filter (isSuffix ·.2)

/-- The path that a mangled name stands for, or nothing for a name that is not mangled. -/
def demangle? (name : String) : Option String :=
  (read? name).map fun (mangled, suffix) => mangled.text ++ String.ofList suffix

instance demangler : Demangler := ⟨demangle?⟩

end MachImage.Mangling
