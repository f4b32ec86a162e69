import Mathlib.Data.List.TakeWhile
import MachImage.Proofs.Decoder.Spelling
import MachImage.Proofs.Layout.Declared
import MachImage.Proofs.Text.Lossy

/-! # Names in their fields

A name stands in its field as UTF-8, with a NUL behind it unless it fills the field
(`HoldsName`).  Any bytes at all are read as some name, and this module is about what the names
of bad bytes can be.  Nothing is made up: a character of lossy text takes at least one byte
(`Utf8.Lossy.length_le`), a NUL is read only from a zero byte (`Utf8.Lossy.zero_mem`), and text
without a replacement is the text that the bytes encode (`Utf8.Lossy.eq_encode`).  So no bytes
but those of a name are read as that name (`upToNul_eq_iff_holdsName`), and a section is kept
for the bytes in its header alone (`upToNul_faithful`). -/

namespace MachImage

namespace Text

/-- The field holds the name: its bytes, and behind them nothing or a NUL. -/
def HoldsName (field : List UInt8) (name : String) : Prop :=
  ∃ rest, field = Utf8.encode name.toList ++ rest ∧ (rest = [] ∨ rest.head? = some 0)

/-! ### Lossy text -/

namespace Utf8.Lossy

variable {bytes : List UInt8} {text : List Char}

theorem length_le (h : Lossy bytes text) : text.length ≤ bytes.length := by
  induction h with
  | nil => exact Nat.le_refl 0
  | character c _ ih =>
      have hpos := String.length_utf8EncodeChar c ▸ Char.utf8Size_pos c
      rw [List.length_cons, List.length_append]
      omega
  | replaced hpart _ ih =>
      have hpos := List.length_pos_of_ne_nil hpart.ne_nil
      rw [List.length_cons, List.length_append]
      omega

theorem zero_mem (h : Lossy bytes text) (hnul : '\x00' ∈ text) : 0 ∈ bytes := by
  induction h with
  | nil => cases hnul
  | character c _ ih =>
      rw [List.mem_append]
      rcases List.mem_cons.mp hnul with rfl | hrest
      · exact .inl (by decide)
      · exact .inr (ih hrest)
  | replaced _ _ ih =>
      rcases List.mem_cons.mp hnul with hreplacement | hrest
      · exact absurd hreplacement (by decide)
      · exact List.mem_append_right _ (ih hrest)

theorem eq_encode (h : Lossy bytes text) (hnone : replacement ∉ text) : bytes = encode text := by
  induction h with
  | nil => rfl
  | character c _ ih =>
      rw [ih (List.not_mem_of_not_mem_cons hnone), encode, encode, List.flatMap_cons]
  | replaced _ _ _ => exact absurd List.mem_cons_self hnone

end Utf8.Lossy

/-! ### Text up to a NUL -/

section upToNul

variable (bytes : List UInt8)

theorem lossy_upToNul : Utf8.Lossy (bytes.takeWhile (· ≠ 0)) (upToNul bytes).toList := by
  rw [upToNul, String.toList_ofList]
  exact Utf8.decode_eq_iff_lossy.mp rfl

theorem nul_not_mem_upToNul : '\x00' ∉ (upToNul bytes).toList := by
  intro hnul
  have hzero := List.mem_takeWhile_imp ((lossy_upToNul bytes).zero_mem hnul)
  exact absurd hzero (by decide)

theorem length_upToNul_le : (upToNul bytes).length ≤ (bytes.takeWhile (· ≠ 0)).length := by
  rw [← String.length_toList]
  exact (lossy_upToNul bytes).length_le

/-- Text that was read once is read again from its own bytes. -/
theorem upToNul_encode_upToNul : upToNul (Utf8.encode (upToNul bytes).toList) = upToNul bytes := by
  have hagain := upToNul_encode_append (upToNul bytes) (nul_not_mem_upToNul bytes) (.inl rfl)
  rwa [List.append_nil] at hagain

variable {bytes}

/-- A name that can be told from replaced bytes is read from a field that holds it, and from no
other field. -/
theorem upToNul_eq_iff_holdsName {name : String} (hnul : '\x00' ∉ name.toList)
    (hreplacement : Utf8.replacement ∉ name.toList) :
    upToNul bytes = name ↔ HoldsName bytes name := by
  constructor
  · rintro rfl
    refine ⟨bytes.dropWhile (· ≠ 0), ?_, ?_⟩
    · rw [← (lossy_upToNul bytes).eq_encode hreplacement, List.takeWhile_append_dropWhile]
    · cases hrest : bytes.dropWhile (· ≠ 0) with
      | nil => exact .inl rfl
      | cons b rest =>
          have hstop := List.head?_dropWhile_not (fun b : UInt8 => decide (b ≠ 0)) bytes
          rw [hrest] at hstop
          simpa using hstop
  · rintro ⟨rest, rfl, hrest⟩
    exact upToNul_encode_append name hnul hrest

end upToNul

end Text

open Text Decoder

/-! ### Names of sections -/

namespace SectionRule

theorem names_of_mem_all : ∀ rule ∈ all, ∀ name ∈ [rule.segmentName, rule.sectionName],
    '\x00' ∉ name.toList ∧ Utf8.replacement ∉ name.toList := by
  decide

theorem upToNul_eq_iff_of_mem_all {rule : SectionRule} (hrule : rule ∈ all) {name : String}
    (hname : name ∈ [rule.segmentName, rule.sectionName]) (bytes : List UInt8) :
    upToNul bytes = name ↔ HoldsName bytes name :=
  upToNul_eq_iff_holdsName (names_of_mem_all rule hrule name hname).1
    (names_of_mem_all rule hrule name hname).2

end SectionRule

section fields

variable {input : Input} {c c' : Cursor}

theorem name16_apply_of_le (h : c.position + 16 ≤ input.size) :
    name16 input c = .ok (upToNul (input.range c.position 16))
      { c with position := c.position + 16 } := by
  unfold name16
  rw [bind_apply, field_apply, Input.window?, if_pos h]
  rfl

theorem name16_eq_ok {name : String} (h : name16 input c = .ok name c') :
    name = upToNul (input.range c.position 16) ∧
      c' = { c with position := c.position + 16 } := by
  have hsize : c.position + 16 ≤ input.size := by
    by_contra hshort
    unfold name16 at h
    rw [bind_apply, field_apply, Input.window?, if_neg hshort] at h
    cases h
  rw [name16_apply_of_le hsize] at h
  cases h
  exact ⟨rfl, rfl⟩

theorem SectionHeader.names_eq_of_decode {width : Width} {header : SectionHeader}
    (h : SectionHeader.decode width input c = .ok header c') :
    header.sectionName = upToNul (input.range c.position 16) ∧
      header.segmentName = upToNul (input.range (c.position + 16) 16) := by
  unfold SectionHeader.decode at h
  obtain ⟨sectionName, c₁, hsection, h⟩ := bind_eq_ok.mp h
  obtain ⟨segmentName, c₂, hsegment, h⟩ := bind_eq_ok.mp h
  obtain ⟨rfl, rfl⟩ := name16_eq_ok hsection
  obtain ⟨rfl, rfl⟩ := name16_eq_ok hsegment
  obtain ⟨address, _, -, h⟩ := bind_eq_ok.mp h
  obtain ⟨size, _, -, h⟩ := bind_eq_ok.mp h
  obtain ⟨offset, _, -, h⟩ := bind_eq_ok.mp h
  obtain ⟨align, _, -, h⟩ := bind_eq_ok.mp h
  obtain ⟨relocOffset, _, -, h⟩ := bind_eq_ok.mp h
  obtain ⟨relocCount, _, -, h⟩ := bind_eq_ok.mp h
  obtain ⟨flags, _, -, h⟩ := bind_eq_ok.mp h
  obtain ⟨reserved1, _, -, h⟩ := bind_eq_ok.mp h
  obtain ⟨reserved2, _, -, h⟩ := bind_eq_ok.mp h
  split at h
  · obtain ⟨reserved3, _, -, h⟩ := bind_eq_ok.mp h
    obtain ⟨rfl, -⟩ := pure_eq_ok h
    exact ⟨rfl, rfl⟩
  · obtain ⟨rfl, -⟩ := pure_eq_ok h
    exact ⟨rfl, rfl⟩

end fields

/-- **Names are what stands in their fields.**  Text without a NUL is read back from its UTF-8,
whether or not a NUL and anything else follow.  Any bytes are read as the lossy text of those in
front of the first NUL; it holds no NUL, has no more characters than there are bytes, and is
read again from its own bytes.  So a field of sixteen bytes gives a name of at most sixteen
characters, and the name of a section that is kept only if the field holds just that name; and
a section is kept by a rule just if its header holds the two names of the rule. -/
theorem Text.upToNul_faithful :
    (∀ (text : String) (rest : List UInt8), '\x00' ∉ text.toList →
      (rest = [] ∨ rest.head? = some 0) →
        upToNul (Utf8.encode text.toList ++ rest) = text) ∧
    (∀ bytes : List UInt8,
      Utf8.Lossy (bytes.takeWhile (· ≠ 0)) (upToNul bytes).toList ∧
        '\x00' ∉ (upToNul bytes).toList ∧
        (upToNul bytes).length ≤ (bytes.takeWhile (· ≠ 0)).length ∧
        upToNul (Utf8.encode (upToNul bytes).toList) = upToNul bytes) ∧
    (∀ (input : Input) (c : Cursor), c.position + 16 ≤ input.size →
      ∃ name, name16 input c = .ok name { c with position := c.position + 16 } ∧
        name.length ≤ 16 ∧
        ∀ rule ∈ SectionRule.all,
          (name = rule.segmentName ↔
            HoldsName (input.range c.position 16) rule.segmentName) ∧
          (name = rule.sectionName ↔
            HoldsName (input.range c.position 16) rule.sectionName)) ∧
    ∀ (width : Width) (input : Input) (c c' : Cursor) (header : SectionHeader),
      SectionHeader.decode width input c = .ok header c' → ∀ rule,
        SectionRule.for? header = some rule ↔ rule ∈ SectionRule.all ∧
          HoldsName (input.range c.position 16) rule.sectionName ∧
          HoldsName (input.range (c.position + 16) 16) rule.segmentName := by
  refine ⟨fun text rest hnul => upToNul_encode_append text hnul, fun bytes =>
    ⟨lossy_upToNul bytes, nul_not_mem_upToNul bytes, length_upToNul_le bytes,
      upToNul_encode_upToNul bytes⟩, ?_, ?_⟩
  · intro input c hsize
    refine ⟨_, name16_apply_of_le hsize, ?_, fun rule hrule =>
      ⟨SectionRule.upToNul_eq_iff_of_mem_all hrule (by simp) _,
        SectionRule.upToNul_eq_iff_of_mem_all hrule (by simp) _⟩⟩
    calc (upToNul (input.range c.position 16)).length
        ≤ ((input.range c.position 16).takeWhile (· ≠ 0)).length := length_upToNul_le _
      _ ≤ (input.range c.position 16).length := (List.takeWhile_prefix _).length_le
      _ = 16 := Input.length_range hsize
  · intro width input c c' header hdecode rule
    obtain ⟨hsection, hsegment⟩ := SectionHeader.names_eq_of_decode hdecode
    rw [SectionRule.for?_eq_some_iff, hsection, hsegment]
    refine and_congr_right fun hrule => and_congr ?_ ?_
    · exact SectionRule.upToNul_eq_iff_of_mem_all hrule (by simp) _
    · exact SectionRule.upToNul_eq_iff_of_mem_all hrule (by simp) _

/-- A zero written in two bytes, half of a surrogate pair, and a character that is cut off by
the NUL. -/
example : upToNul [0x5F, 0xC0, 0x80, 0xED, 0xA0, 0x80, 0xF0, 0x9F, 0x92, 0, 0x61] =
    "_\uFFFD\uFFFD\uFFFD\uFFFD\uFFFD\uFFFD" := by
  decide

end MachImage
