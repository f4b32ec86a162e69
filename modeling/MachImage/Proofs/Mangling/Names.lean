import Mathlib.Data.List.TakeWhile
import Mathlib.Data.Nat.Notation
import MachImage.Symbol

/-! # Names that are mangled

Rust and C++ both write a path as its identifiers, each with its length in front, between
`__ZN` and `E` (`nestedName`).  `Counts` says how such text is read: the digits in front of an
element are its length, and an `E` in place of a length closes the path.  Text that is written
from identifiers is read in just one way (`Counts.eq_of_identifiers`).

What is known of a `Demangler` is stated here by the form of names alone.  A demangler that
`ReadsNestedNames` knows the older mangling of Rust, which is nothing but such a path;
one that `IgnoresUnderscores` takes a mangled name with one underscore in front, with two or
with none. -/

namespace MachImage

/-! ### Counted elements -/

/-- A letter of ASCII, a digit, or an underscore. -/
def isWordChar (c : Char) : Bool := c.isAlphanum || c = '_'

/-- A word that does not start with a digit. -/
structure IsIdentifier (element : List Char) : Prop where
  isWord : ∀ c ∈ element, isWordChar c
  starts : ∃ first rest, element = first :: rest ∧ first.isDigit = false

theorem isIdentifier_iff {element : List Char} :
    IsIdentifier element ↔
      (element.all isWordChar && element.head?.any fun first => !first.isDigit) = true := by
  rw [Bool.and_eq_true, List.all_eq_true, Option.any_eq_true]
  constructor
  · rintro ⟨hword, first, rest, rfl, hfirst⟩
    exact ⟨hword, first, rfl, by rw [hfirst]; rfl⟩
  · rintro ⟨hword, first, hhead, hfirst⟩
    obtain ⟨rest, rfl⟩ := List.head?_eq_some_iff.mp hhead
    exact ⟨hword, first, rest, rfl, by simpa using hfirst⟩

instance (element : List Char) : Decidable (IsIdentifier element) :=
  decidable_of_iff _ isIdentifier_iff.symm

/-- An element with its length in front. -/
def counted (element : List Char) : List Char := Nat.toDigits 10 element.length ++ element

/-- The text is read as these elements, and the suffix stands behind the letter that closes
them.  All digits in front of an element belong to its length. -/
inductive Counts : List Char → List (List Char) → List Char → Prop
  | close (suffix : List Char) : Counts ('E' :: suffix) [] suffix
  | element {digits element behind : List Char} {elements : List (List Char)} {suffix : List Char}
      (hdigits : digits ≠ [] ∧ ∀ c ∈ digits, c.isDigit)
      (hlength : Nat.ofDigitChars 10 digits 0 = element.length)
      (hend : ∀ c ∈ (element ++ behind).head?, c.isDigit = false)
      (hbehind : Counts behind elements suffix) :
      Counts (digits ++ (element ++ behind)) (element :: elements) suffix

variable {element behind suffix : List Char} {elements : List (List Char)} {c : Char}

theorem isWordChar_of_mem_counted (h : IsIdentifier element) (hc : c ∈ counted element) :
    isWordChar c := by
  rcases List.mem_append.mp hc with hdigit | hword
  · have hdigit := Nat.isDigit_of_mem_toDigits (by decide) (by decide) hdigit
    rw [isWordChar, Char.isAlphanum, hdigit, Bool.or_true, Bool.true_or]
  · exact h.isWord c hword

theorem isWordChar_of_mem_flatMap_counted (h : ∀ element ∈ elements, IsIdentifier element)
    (hc : c ∈ elements.flatMap counted) : isWordChar c := by
  obtain ⟨element, helement, hc⟩ := List.mem_flatMap.mp hc
  exact isWordChar_of_mem_counted (h element helement) hc

theorem ne_of_isWordChar {mark : Char} (h : isWordChar c) (hmark : isWordChar mark = false) :
    c ≠ mark := by
  rintro rfl
  rw [h] at hmark
  cases hmark

theorem isDigit_of_mem_length (element : List Char) :
    Nat.toDigits 10 element.length ≠ [] ∧
      ∀ c ∈ Nat.toDigits 10 element.length, c.isDigit :=
  ⟨Nat.toDigits_ne_nil, fun _ hc => Nat.isDigit_of_mem_toDigits (by decide) (by decide) hc⟩

theorem IsIdentifier.head?_append (h : IsIdentifier element) (behind : List Char) :
    ∀ c ∈ (element ++ behind).head?, c.isDigit = false := by
  obtain ⟨first, rest, rfl, hfirst⟩ := h.starts
  rintro c ⟨⟩
  exact hfirst

theorem counts_flatMap_counted (h : ∀ element ∈ elements, IsIdentifier element)
    (suffix : List Char) : Counts (elements.flatMap counted ++ 'E' :: suffix) elements suffix := by
  induction elements with
  | nil => exact .close suffix
  | cons element rest ih =>
      obtain ⟨helement, hrest⟩ := List.forall_mem_cons.mp h
      rw [List.flatMap_cons, counted, List.append_assoc, List.append_assoc]
      exact .element (isDigit_of_mem_length element) Nat.ofDigitChars_ten_toDigits
        (helement.head?_append _) (ih hrest)

theorem Counts.ne_nil {text : List Char} (h : Counts text elements suffix) : text ≠ [] := by
  induction h with
  | close => exact List.cons_ne_nil _ _
  | element _ _ _ _ ih => simp [ih]

/-- What stands behind the closing letter makes no difference in front of it. -/
theorem Counts.append {text : List Char} (h : Counts text elements suffix) (more : List Char) :
    Counts (text ++ more) elements (suffix ++ more) := by
  induction h with
  | close suffix => exact .close (suffix ++ more)
  | @element digits element behind _ _ hdigits hlength hend hbehind ih =>
      obtain ⟨first, rest, hfirst⟩ : ∃ first rest, element ++ behind = first :: rest :=
        List.exists_cons_of_ne_nil (by simp [hbehind.ne_nil])
      have hsame : (element ++ (behind ++ more)).head? = (element ++ behind).head? := by
        rw [← List.append_assoc, hfirst, List.cons_append, List.head?_cons, List.head?_cons]
      rw [List.append_assoc, List.append_assoc]
      exact .element hdigits hlength (hsame ▸ hend) ih

/-- Digits end where something else starts. -/
theorem digits_append_inj {digits digits' behind behind' : List Char}
    (hdigits : ∀ c ∈ digits, c.isDigit) (hdigits' : ∀ c ∈ digits', c.isDigit)
    (hbehind : ∀ c ∈ behind.head?, c.isDigit = false)
    (hbehind' : ∀ c ∈ behind'.head?, c.isDigit = false)
    (h : digits ++ behind = digits' ++ behind') : digits = digits' ∧ behind = behind' := by
  have htake {digits behind : List Char} (hdigits : ∀ c ∈ digits, c.isDigit)
      (hbehind : ∀ c ∈ behind.head?, c.isDigit = false) :
      (digits ++ behind).takeWhile Char.isDigit = digits := by
    have hnone : behind.takeWhile Char.isDigit = [] := by
      cases behind with
      | nil => rfl
      | cons first rest => exact List.takeWhile_cons_of_neg (by simp [hbehind first rfl])
    rw [List.takeWhile_append_of_pos hdigits, hnone, List.append_nil]
  have hsame : digits = digits' := by
    rw [← htake hdigits hbehind, h, htake hdigits' hbehind']
  subst hsame
  exact ⟨rfl, List.append_cancel_left h⟩

/-- Text that is written from identifiers is read as these and in no other way. -/
theorem Counts.eq_of_identifiers {text : List Char} {read : List (List Char)}
    {behind : List Char} (hread : Counts text read behind)
    (h : ∀ element ∈ elements, IsIdentifier element)
    (htext : text = elements.flatMap counted ++ 'E' :: suffix) :
    read = elements ∧ behind = suffix := by
  -- One element is read after the other, each against the one that was written in its place.
  induction hread generalizing elements with
  | close behind =>
      cases elements with
      | nil => exact ⟨rfl, (List.cons.inj htext).2⟩
      | cons element rest =>
          obtain ⟨digit, digits, hlength⟩ :=
            List.exists_cons_of_ne_nil (isDigit_of_mem_length element).1
          have hdigit := (isDigit_of_mem_length element).2 digit (by simp [hlength])
          rw [List.flatMap_cons, counted, hlength] at htext
          obtain rfl := (List.cons.inj htext).1
          cases hdigit
  | @element digits element behind read suffix' hdigits hlength hend hbehind ih =>
      cases elements with
      | nil =>
          obtain ⟨digit, rest, rfl⟩ := List.exists_cons_of_ne_nil hdigits.1
          obtain rfl := (List.cons.inj htext).1
          cases hdigits.2 _ List.mem_cons_self
      | cons written rest =>
          obtain ⟨hwritten, hrest⟩ := List.forall_mem_cons.mp h
          rw [List.flatMap_cons, counted, List.append_assoc, List.append_assoc] at htext
          obtain ⟨rfl, hrest'⟩ := digits_append_inj hdigits.2 (isDigit_of_mem_length written).2
            hend (hwritten.head?_append _) htext
          have hsize : element.length = written.length := by
            rw [← hlength, Nat.ofDigitChars_ten_toDigits]
          obtain ⟨rfl, hbehind⟩ := List.append_inj hrest' hsize
          obtain ⟨rfl, rfl⟩ := ih hrest hbehind
          exact ⟨rfl, rfl⟩

/-! ### Nested names -/

/-- Counted elements between `__ZN` and `E`, and what stands behind them. -/
def nestedName (elements : List (List Char)) (suffix : List Char) : String :=
  String.ofList ("__ZN".toList ++ (elements.flatMap counted ++ 'E' :: suffix))

theorem toList_nestedName (elements : List (List Char)) (suffix : List Char) :
    (nestedName elements suffix).toList =
      '_' :: '_' :: 'Z' :: 'N' :: (elements.flatMap counted ++ 'E' :: suffix) := by
  unfold nestedName
  exact String.toList_ofList

/-- An element that is the hash of a Rust name: an `h` and sixteen hexadecimal digits. -/
def IsRustHash (element : List Char) : Prop :=
  ∃ digits : List Char, element = 'h' :: digits ∧ digits.length = 16 ∧
    ∀ c ∈ digits, c.isDigit ∨ c ∈ "abcdefABCDEF".toList

/-! ### Demanglers -/

namespace Demangler

/-- The marks in front of the counted elements of a name of Rust. -/
def nestedMarks : List (List Char) := ["_ZN".toList, "ZN".toList, "__ZN".toList]

/-- The demangler knows the older mangling of Rust: the elements of a path, each after its
length, between a mark and an `E`. -/
structure ReadsNestedNames [Demangler] : Prop where
  /-- Every path of identifiers is a mangled name. -/
  accepts : ∀ mark ∈ nestedMarks, ∀ elements : List (List Char),
    (∀ element ∈ elements, IsIdentifier element) →
      (demangle? (String.ofList (mark ++ (elements.flatMap counted ++ ['E'])))).isSome
  /-- Behind a mark stand counted elements, and behind those only words after points. -/
  counts : ∀ mark ∈ nestedMarks, ∀ behind : List Char,
    (demangle? (String.ofList (mark ++ behind))).isSome →
      ∃ elements suffix, Counts behind elements suffix ∧
        (suffix = [] ∨ suffix.head? = some '.')

/-- The letters that a mangled name starts with behind its underscores, of either mangling. -/
def IsBody (body : List Char) : Prop := "ZN".toList <+: body ∨ "R".toList <+: body

theorem IsBody.append {body : List Char} (h : IsBody body) (more : List Char) :
    IsBody (body ++ more) :=
  h.imp (·.trans (List.prefix_append _ _)) (·.trans (List.prefix_append _ _))

/-- The demangler takes a mangled name alike with one underscore in front, with two, and
without. -/
structure IgnoresUnderscores [Demangler] : Prop where
  isBody : ∀ name : String, (demangle? name).isSome →
    ∃ body, IsBody body ∧ name.toList ∈ [body, '_' :: body, '_' :: '_' :: body]
  alike : ∀ body : List Char, IsBody body →
    (demangle? (String.ofList ('_' :: body))).isSome =
        (demangle? (String.ofList body)).isSome ∧
      (demangle? (String.ofList ('_' :: '_' :: body))).isSome =
        (demangle? (String.ofList body)).isSome

end Demangler

end MachImage
