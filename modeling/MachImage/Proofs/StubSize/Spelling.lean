import Mathlib.Data.List.DropRight
import MachImage.StubSize

/-! # How stub sizes are spelled

The size of a stub is chosen by a text.  `StubSize.Spells` tells the words and numbers that
choose one, in small letters and without blanks around them: three keywords, and decimal digits
of a number below 2⁶⁴ with as many zeros in front as one likes and a plus sign if wanted.
`Text.IsTrimOf` tells without a scan what a text is without the blanks around it.

A text is accepted just when it is spelled in this way once it has been trimmed and its letters
are made small, and the choice is the one that is spelled; any other text is refused as it
stands.  What is shown of a choice spells that choice (`StubSize.parse_spelled`). -/

namespace MachImage

namespace Text

/-! ### Blanks around a text -/

variable {word text front behind rest : List Char}

/-- The text is the word with nothing but blanks around it, and the word has no blank at its
two ends. -/
structure IsTrimOf (word text : List Char) : Prop where
  split : ∃ front behind, text = front ++ word ++ behind ∧
    (∀ c ∈ front, isBlank c) ∧ ∀ c ∈ behind, isBlank c
  starts : ∀ c ∈ word.head?, ¬ isBlank c
  ends : ∀ c ∈ word.getLast?, ¬ isBlank c

theorem trim_eq (text : List Char) :
    trim text = (text.dropWhile isBlank).rdropWhile isBlank := rfl

theorem dropWhile_isBlank_append (hfront : ∀ c ∈ front, isBlank c)
    (hrest : ∀ c ∈ rest.head?, ¬ isBlank c) : (front ++ rest).dropWhile isBlank = rest := by
  rw [List.dropWhile_append_of_pos hfront]
  cases rest with
  | nil => rfl
  | cons c rest => exact List.dropWhile_cons_of_neg (hrest c rfl)

theorem rdropWhile_isBlank_append (hbehind : ∀ c ∈ behind, isBlank c)
    (hword : ∀ c ∈ word.getLast?, ¬ isBlank c) : (word ++ behind).rdropWhile isBlank = word := by
  rw [List.rdropWhile, List.reverse_append, dropWhile_isBlank_append, List.reverse_reverse]
  · simpa using hbehind
  · simpa using hword

theorem isTrimOf_trim (text : List Char) : IsTrimOf (trim text) text where
  split := by
    refine ⟨text.takeWhile isBlank, (text.dropWhile isBlank).rtakeWhile isBlank, ?_,
      fun c hc => List.mem_takeWhile_imp hc, fun c hc => List.mem_rtakeWhile_imp hc⟩
    rw [trim_eq, List.append_assoc, List.rdropWhile_append_rtakeWhile,
      List.takeWhile_append_dropWhile]
  starts := by
    intro c hc
    obtain ⟨behind, hbehind⟩ := List.rdropWhile_prefix isBlank (text.dropWhile isBlank)
    have hhead : (text.dropWhile isBlank).head? = some c := by
      rw [← hbehind, List.head?_append, ← trim_eq, hc]
      rfl
    have hnot := List.head?_dropWhile_not isBlank text
    rw [hhead] at hnot
    rw [hnot]
    exact Bool.false_ne_true
  ends := by
    intro c hc
    obtain ⟨hne, rfl⟩ := List.mem_getLast?_eq_getLast hc
    exact List.rdropWhile_last_not isBlank _ hne

theorem isTrimOf_iff : IsTrimOf word text ↔ trim text = word := by
  constructor
  · rintro ⟨⟨front, behind, rfl, hfront, hbehind⟩, hstarts, hends⟩
    cases word with
    | nil =>
        -- Blanks alone are all in front.
        have hall : ∀ c ∈ front ++ [] ++ behind, isBlank c := by
          intro c hc
          rw [List.append_nil] at hc
          exact (List.mem_append.mp hc).elim (hfront c) (hbehind c)
        rw [trim_eq, List.dropWhile_eq_nil_iff.mpr hall]
        rfl
    | cons c word =>
        have hfirst := @dropWhile_isBlank_append front (c :: word ++ behind) hfront hstarts
        rw [trim_eq, List.append_assoc, hfirst, rdropWhile_isBlank_append hbehind hends]
  · rintro rfl
    exact isTrimOf_trim text

theorem isTrimOf_self (h : ∀ c ∈ text, ¬ isBlank c) : IsTrimOf text text where
  split := ⟨[], [], by simp, by simp, by simp⟩
  starts := fun c hc => h c (List.mem_of_head? hc)
  ends := fun c hc => h c (List.mem_of_getLast? hc)

/-! ### Digits -/

theorem toNat_of_isDigit {c : Char} (h : c.isDigit) : 48 ≤ c.toNat ∧ c.toNat ≤ 57 := by
  rw [Char.isDigit, Bool.and_eq_true, decide_eq_true_eq, decide_eq_true_eq] at h
  exact ⟨UInt32.le_iff_toNat_le.mp h.1, UInt32.le_iff_toNat_le.mp h.2⟩

theorem not_isBlank_of_isDigit {c : Char} (h : c.isDigit) : ¬ isBlank c := by
  have hrange := toNat_of_isDigit h
  simp only [isBlank, Bool.or_eq_true, Bool.and_eq_true, decide_eq_true_eq]
  omega

theorem toLower_of_isDigit {c : Char} (h : c.isDigit) : c.toLower = c := by
  have hrange := toNat_of_isDigit h
  unfold Char.toLower
  rw [dif_neg]
  rintro ⟨hlow, -⟩
  have hlow : 65 ≤ c.toNat := UInt32.le_iff_toNat_le.mp hlow
  omega

end Text

namespace StubSize

open Text

variable {word text : List Char} {n : UInt64} {x : StubSize}

/-! ### Numbers of bytes -/

/-- The text is decimal digits of a number, one at least, with a plus sign in front or
without. -/
def IsCount (text : List Char) (n : ℕ) : Prop :=
  ∃ sign digits, text = sign ++ digits ∧ (sign = [] ∨ sign = ['+']) ∧ digits ≠ [] ∧
    (∀ d ∈ digits, d.isDigit) ∧ Nat.ofDigitChars 10 digits 0 = n

/-- What follows the plus sign, or all of the text. -/
def withoutSign : List Char → List Char
  | '+' :: digits => digits
  | digits => digits

theorem withoutSign_of_ne {c : Char} (h : c ≠ '+') (rest : List Char) :
    withoutSign (c :: rest) = c :: rest := by
  unfold withoutSign
  split
  · next heq => exact absurd (List.cons.inj heq).1 h
  · rfl

theorem exists_sign (text : List Char) :
    ∃ sign, text = sign ++ withoutSign text ∧ (sign = [] ∨ sign = ['+']) := by
  unfold withoutSign
  split
  · exact ⟨['+'], rfl, .inr rfl⟩
  · exact ⟨[], rfl, .inl rfl⟩

/-- A plus sign is no digit, so there is one way to take it off. -/
theorem isCount_iff {n : ℕ} :
    IsCount text n ↔ withoutSign text ≠ [] ∧ (∀ d ∈ withoutSign text, d.isDigit) ∧
      Nat.ofDigitChars 10 (withoutSign text) 0 = n := by
  constructor
  · rintro ⟨sign, digits, rfl, hsign, h⟩
    have hdigits : withoutSign (sign ++ digits) = digits := by
      rcases hsign with rfl | rfl
      · cases digits with
        | nil => rfl
        | cons d digits =>
            refine withoutSign_of_ne ?_ digits
            rintro rfl
            exact absurd (h.2.1 '+' List.mem_cons_self) (by decide)
      · rfl
    rwa [hdigits]
  · intro h
    obtain ⟨sign, htext, hsign⟩ := exists_sign text
    exact ⟨sign, withoutSign text, htext, hsign, h⟩

theorem parseCount?_eq (text : List Char) :
    parseCount? text =
      let digits := withoutSign text
      let n := Nat.ofDigitChars 10 digits 0
      if digits ≠ [] ∧ digits.all Char.isDigit then
        if n < UInt64.size then some (UInt64.ofNat n) else none
      else none := rfl

/-- A count is read just when it is one and fits into 64 bits. -/
theorem parseCount?_eq_some_iff : parseCount? text = some n ↔ IsCount text n.toNat := by
  rw [isCount_iff, parseCount?_eq]
  simp only [List.all_eq_true]
  constructor
  · intro h
    split at h
    · next hdigits =>
        split at h
        · next hlt =>
            obtain rfl := Option.some.inj h
            exact ⟨hdigits.1, hdigits.2, (UInt64.toNat_ofNat_of_lt' hlt).symm⟩
        · cases h
    · cases h
  · rintro ⟨hne, hdigits, hvalue⟩
    rw [if_pos ⟨hne, hdigits⟩, hvalue, if_pos n.toNat_lt, UInt64.ofNat_toNat]

/-! ### Choices -/

/-- How a choice is spelled in small letters and without blanks around it. -/
inductive Spells : List Char → StubSize → Prop
  | legacy : Spells "legacy".toList legacy
  | fromSection : Spells "section".toList fromSection
  | perArchitecture : Spells "arch".toList perArchitecture
  | count {text : List Char} {n : UInt64} (h : IsCount text n.toNat) : Spells text (fixed n)

/-- Every choice is read from what spells it, since no keyword is a count. -/
theorem parse_of_spells {text : String} (h : Spells (lower (trim text.toList)) x) :
    parse text = .ok x := by
  unfold parse
  generalize lower (trim text.toList) = word at h
  cases h with
  | legacy => rfl
  | fromSection => rfl
  | perArchitecture => rfl
  | count h =>
      have hcount := parseCount?_eq_some_iff.mpr h
      have hkeyword {keyword : String} (hnone : parseCount? keyword.toList = none) :
          word ≠ keyword.toList := by
        rintro rfl
        rw [hnone] at hcount
        cases hcount
      dsimp only
      rw [if_neg (hkeyword (by decide)), if_neg (hkeyword (by decide)),
        if_neg (hkeyword (by decide)), hcount]

theorem parse_cases (text : String) :
    (∃ x, parse text = .ok x ∧ Spells (lower (trim text.toList)) x) ∨
      parse text = .error ⟨text⟩ := by
  unfold parse
  generalize lower (trim text.toList) = word
  dsimp only
  split
  · next hword => exact .inl ⟨legacy, rfl, hword ▸ .legacy⟩
  split
  · next hword => exact .inl ⟨fromSection, rfl, hword ▸ .fromSection⟩
  split
  · next hword => exact .inl ⟨perArchitecture, rfl, hword ▸ .perArchitecture⟩
  split
  · next n hcount => exact .inl ⟨fixed n, rfl, .count (parseCount?_eq_some_iff.mp hcount)⟩
  · exact .inr rfl

theorem parse_eq_ok_iff {text : String} :
    parse text = .ok x ↔ Spells (lower (trim text.toList)) x := by
  refine ⟨fun h => ?_, parse_of_spells⟩
  obtain ⟨y, hy, hspells⟩ | herror := parse_cases text
  · obtain rfl := Except.ok.inj (hy.symm.trans h)
    exact hspells
  · rw [herror] at h
    cases h

/-! ### What is shown of a choice -/

theorem toList_text_fixed (n : UInt64) : (fixed n).text.toList = Nat.toDigits 10 n.toNat :=
  Nat.toList_repr

theorem isCount_toDigits (n : ℕ) : IsCount (Nat.toDigits 10 n) n :=
  ⟨[], Nat.toDigits 10 n, rfl, .inl rfl, Nat.toDigits_ne_nil,
    fun _ hd => Nat.isDigit_of_mem_toDigits (by decide) (by decide) hd,
    Nat.ofDigitChars_ten_toDigits⟩

theorem spells_text (x : StubSize) : Spells x.text.toList x := by
  cases x with
  | legacy => exact .legacy
  | fixed n =>
      rw [toList_text_fixed]
      exact .count (isCount_toDigits n.toNat)
  | fromSection => exact .fromSection
  | perArchitecture => exact .perArchitecture

/-- Neither trimming nor small letters change what is shown. -/
theorem plain_of_mem_text {c : Char} (h : c ∈ x.text.toList) : ¬ isBlank c ∧ c.toLower = c := by
  have hkeyword {keyword : List Char}
      (hall : keyword.all (fun c => !isBlank c && c.toLower == c) = true) (h : c ∈ keyword) :
      ¬ isBlank c ∧ c.toLower = c := by
    simpa using List.all_eq_true.mp hall c h
  cases x with
  | fixed n =>
      rw [toList_text_fixed] at h
      have hdigit := Nat.isDigit_of_mem_toDigits (by decide) (by decide) h
      exact ⟨not_isBlank_of_isDigit hdigit, toLower_of_isDigit hdigit⟩
  | legacy => exact hkeyword (by decide) h
  | fromSection => exact hkeyword (by decide) h
  | perArchitecture => exact hkeyword (by decide) h

theorem lower_trim_text (x : StubSize) : lower (trim x.text.toList) = x.text.toList := by
  rw [isTrimOf_iff.mp (isTrimOf_self fun c hc => (plain_of_mem_text hc).1), lower]
  exact (List.map_congr_left fun c hc => (plain_of_mem_text hc).2).trans (List.map_id _)

/-- **Just the spelled choices are read, and what is shown of a choice spells it.**  A text is
read as a choice if and only if it spells that choice once the blanks around it are taken off
and its letters are made small.  If it spells none it is refused, and the error holds the text
as it was given.  The text of any choice, whatever its number of bytes, is read as that choice
again. -/
theorem parse_spelled (text : String) :
    (∀ x, parse text = .ok x ↔
      ∃ word, IsTrimOf word text.toList ∧ Spells (word.map Char.toLower) x) ∧
    (∀ e, parse text = .error e ↔
      e = ⟨text⟩ ∧ ¬ ∃ x word, IsTrimOf word text.toList ∧ Spells (word.map Char.toLower) x) ∧
    ∀ x : StubSize, parse x.text = .ok x := by
  have hok (x : StubSize) : parse text = .ok x ↔
      ∃ word, IsTrimOf word text.toList ∧ Spells (word.map Char.toLower) x := by
    rw [parse_eq_ok_iff]
    constructor
    · intro h
      exact ⟨trim text.toList, isTrimOf_trim _, h⟩
    · rintro ⟨word, hword, hspells⟩
      rw [isTrimOf_iff.mp hword]
      exact hspells
  refine ⟨hok, fun e => ?_, fun x => ?_⟩
  · rw [← exists_congr hok]
    obtain ⟨x, hx, -⟩ | herror := parse_cases text
    · simp [hx]
    · simp [herror, eq_comm]
  · rw [parse_eq_ok_iff, lower_trim_text]
    exact spells_text x

/-- Blanks, capitals, a sign and zeros make no difference, and the last number of 64 bits is
the last one that is read. -/
example :
    parse "\u00a0 Section\t" = .ok fromSection ∧ parse "+0012" = .ok (fixed 12) ∧
      parse "18446744073709551615" = .ok (fixed (-1)) ∧
      parse " 18446744073709551616" = .error ⟨" 18446744073709551616"⟩ ∧
      parse "+" = .error ⟨"+"⟩ ∧ parse "-0" = .error ⟨"-0"⟩ := by
  decide

end StubSize

end MachImage
