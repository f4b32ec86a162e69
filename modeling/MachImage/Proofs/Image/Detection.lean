import MachImage.Proofs.Image.Failure
import MachImage.Proofs.Reader.History

/-! # Which files are recognised

A file is recognised by its first four bytes, and the parser looks at them first.  So a file is
not recognised just when the parser refuses it for these bytes (`Image.detect_eq_false_iff`):
they are not all there, or they are no magic number.  The word that the parser names does not
tell the two apart by itself.  An entry of a universal file may point at the start of the file,
where the slice is refused with the very number that the file was recognised by
(`Image.not_detect_eq_false_of_unsupportedMagic`). -/

namespace MachImage.Image

open Decoder

variable {stubSize : StubSize} {input : Input} {c c' : Cursor} {first magic : UInt32}

/-! ### Recognition -/

theorem detect_eq_true_iff :
    detect.answer input c = .ok true ↔
      ∃ first, input.u32? .little 0 = some first ∧ isMagic first := by
  rw [answer_detect, Except.ok.injEq, Option.any_eq_true]

theorem isMagic_of_isUniversalMagic (h : isUniversalMagic first) : isMagic first := by
  rw [isMagic, h, Bool.or_true]

/-- A file without four bytes is refused for the lack of them. -/
theorem answer_parse_of_size_lt (h : input.size < 4) :
    (parse stubSize).answer input c = .error (.truncated 0 4) := by
  have hnone : input.u32? .little 0 = none := Input.u32?_eq_none.mpr (by omega)
  rw [answer_parse, hnone]

/-- A file that does not start with a magic number is refused for the word that stands there. -/
theorem answer_parse_of_not_isMagic (hfirst : input.u32? .little 0 = some first)
    (h : ¬ isMagic first) :
    (parse stubSize).answer input c = .error (.unsupportedMagic first) := by
  have huniversal : ¬ isUniversalMagic first := fun hu => h (isMagic_of_isUniversalMagic hu)
  rw [answer_parse, hfirst]
  dsimp only
  rw [if_neg huniversal, if_neg h]

/-- Only a universal file can be recognised and then refused for a magic number. -/
theorem not_isMagic_of_unsupportedMagic
    (h : (parse stubSize).answer input c = .error (.unsupportedMagic magic))
    (hfirst : input.u32? .little 0 = some first) (huniversal : ¬ isUniversalMagic first) :
    ¬ isMagic first := by
  obtain ⟨hword, hmagic⟩ | ⟨first', _, _, _, _, hfirst', huniversal', -⟩ := holdsOf_of_parse h
  · obtain rfl := Option.some.inj (hfirst.symm.trans hword)
    rwa [Bool.not_eq_true]
  · obtain rfl := Option.some.inj (hfirst.symm.trans hfirst')
    exact absurd huniversal' huniversal

theorem exists_isMagic_of_parse {slices : Array Slice}
    (h : (parse stubSize).answer input c = .ok slices) :
    ∃ first, input.u32? .little 0 = some first ∧ isMagic first := by
  cases hfirst : input.u32? .little 0 with
  | none =>
      rw [answer_parse, hfirst] at h
      cases h
  | some first =>
      refine ⟨first, rfl, ?_⟩
      by_contra hmagic
      rw [answer_parse_of_not_isMagic hfirst hmagic] at h
      cases h

/-- **A file is recognised unless the parser refuses its first four bytes.**  Recognition always
gives an answer.  The answer is no just when these bytes are not all there and the parser says
so, or when the file is not universal and the parser refuses it for the very word that they
spell.  A file that is recognised and not universal is never refused for a magic number, and a
file that is decoded is recognised. -/
theorem detect_eq_false_iff (stubSize : StubSize) (input : Input) (c c' : Cursor) :
    (∃ detected, detect.answer input c = .ok detected) ∧
    (detect.answer input c = .ok false ↔
      (input.size < 4 ∧ (parse stubSize).answer input c' = .error (.truncated 0 4)) ∨
      ∃ first, input.u32? .little 0 = some first ∧ ¬ isUniversalMagic first ∧
        (parse stubSize).answer input c' = .error (.unsupportedMagic first)) ∧
    (detect.answer input c = .ok true → ∀ first, input.u32? .little 0 = some first →
      ¬ isUniversalMagic first → ∀ magic,
        (parse stubSize).answer input c' ≠ .error (.unsupportedMagic magic)) ∧
    ∀ slices, (parse stubSize).answer input c' = .ok slices →
      detect.answer input c = .ok true := by
  refine ⟨⟨_, answer_detect input c⟩, ?_, ?_, ?_⟩
  · constructor
    · intro h
      rw [answer_detect, Except.ok.injEq] at h
      cases hfirst : input.u32? .little 0 with
      | none =>
          have hsize : input.size < 4 := by
            have hshort := Input.u32?_eq_none.mp hfirst
            omega
          exact .inl ⟨hsize, answer_parse_of_size_lt hsize⟩
      | some first =>
          rw [hfirst, Option.any_some] at h
          have hmagic : ¬ isMagic first := by rw [h]; exact Bool.false_ne_true
          exact .inr ⟨first, rfl, fun hu => hmagic (isMagic_of_isUniversalMagic hu),
            answer_parse_of_not_isMagic hfirst hmagic⟩
    · rintro (⟨hsize, -⟩ | ⟨first, hfirst, huniversal, h⟩)
      · rw [answer_detect, Input.u32?_eq_none.mpr (by omega)]
        rfl
      · have hmagic := not_isMagic_of_unsupportedMagic h hfirst huniversal
        rw [answer_detect, hfirst, Option.any_some, Bool.eq_false_iff.mpr hmagic]
  · intro hdetected first hfirst huniversal magic h
    obtain ⟨first', hfirst', hmagic⟩ := detect_eq_true_iff.mp hdetected
    obtain rfl := Option.some.inj (hfirst.symm.trans hfirst')
    exact not_isMagic_of_unsupportedMagic h hfirst huniversal hmagic
  · intro slices h
    exact detect_eq_true_iff.mpr (exists_isMagic_of_parse h)

/-- A header alone is recognised and decoded, wherever the cursor stands.  One bit less in its
first byte, and it is neither. -/
theorem detect_eq_false_iff_header :
    let file (first : UInt8) : Input :=
      #[first, 0xFA, 0xED, 0xFE, 7, 0, 0, 0, 3, 0, 0, 0, 2, 0, 0, 0] ++ Array.replicate 12 0
    (∃ slices, (parse .legacy).answer (file 0xCE) {} = .ok slices) ∧
      detect.answer (file 0xCE) ⟨9, .big⟩ = .ok true ∧
      (file 0xCE).u32? .little 0 = some 0xFEEDFACE ∧ ¬ isUniversalMagic 0xFEEDFACE ∧
      (∀ magic, (parse .legacy).answer (file 0xCE) {} ≠ .error (.unsupportedMagic magic)) ∧
      (parse .legacy).answer (file 0xCA) {} = .error (.unsupportedMagic 0xFEEDFACA) ∧
      detect.answer (file 0xCA) {} = .ok false := by
  intro file
  have hdecoded : ((parse .legacy).answer (file 0xCE) {}).toOption.map Array.size = some 1 := by
    decide +kernel
  obtain ⟨slices, hslices, -⟩ := exists_of_toOption_map hdecoded
  have hfirst : (file 0xCE).u32? .little 0 = some 0xFEEDFACE := by decide
  have huniversal : ¬ isUniversalMagic 0xFEEDFACE := by decide
  have hrefused : (parse .legacy).answer (file 0xCA) {} =
      .error (.unsupportedMagic 0xFEEDFACA) := by
    decide
  obtain ⟨-, -, hkept, hdetected⟩ := detect_eq_false_iff .legacy (file 0xCE) ⟨9, .big⟩ {}
  obtain ⟨-, hiff, -, -⟩ := detect_eq_false_iff .legacy (file 0xCA) {} {}
  refine ⟨⟨slices, hslices⟩, hdetected slices hslices, hfirst, huniversal,
    hkept (hdetected slices hslices) _ hfirst huniversal, hrefused, hiff.mpr (.inr ?_)⟩
  exact ⟨0xFEEDFACA, by decide, by decide, hrefused⟩

/-- A universal file whose only entry points back at its start is recognised, although the
parser refuses it for the word that stands there. -/
theorem not_detect_eq_false_of_unsupportedMagic :
    let file : Input := #[0xCA, 0xFE, 0xBA, 0xBE, 0, 0, 0, 1] ++ Array.replicate 20 0
    ¬ (detect.answer file {} = .ok false ↔
      (file.size < 4 ∧ (parse .legacy).answer file {} = .error (.truncated 0 4)) ∨
      ∃ first, file.u32? .little 0 = some first ∧
        (parse .legacy).answer file {} = .error (.unsupportedMagic first)) := by
  intro file hiff
  have hdetected : detect.answer file {} = .ok true := by decide
  have hfirst : file.u32? .little 0 = some 0xBEBAFECA := by decide
  have hrefused : (parse .legacy).answer file {} = .error (.unsupportedMagic 0xBEBAFECA) := by
    decide +kernel
  have hnot := hiff.mpr (.inr ⟨_, hfirst, hrefused⟩)
  rw [hdetected] at hnot
  cases hnot

end MachImage.Image
