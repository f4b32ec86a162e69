import Mathlib.Data.List.Basic
import MachImage.Slice

/-! # Registers of sections

The sections of a slice are registered one by one, in the order in which they are to be kept.
A `Register` holds them in that order, and for each kind it has noted where the first section
of that kind stands, so that this one is found without a look at the others.  A section that
is registered later never changes what has been noted of its kind.

The look-ups of a slice keep no such notes and go through its sections one by one.  After any
sequence of registrations the notes are what such a search finds (`Register.isIndexed_ofSections`),
so a register and a slice with the same sections give the same answers, and these are the
first section of a kind and the first one that an address lies in (`Register.finds_first`). -/

namespace MachImage

/-! ### Addresses in sections -/

/-- The difference of two addresses is only taken where it cannot wrap, so a section may reach
past the end of the address space. -/
theorem Address.isWithin_eq_true_iff {a start : Address} {size : ℕ} :
    a.isWithin start size = true ↔
      start.value.toNat ≤ a.value.toNat ∧ a.value.toNat < start.value.toNat + size := by
  rw [isWithin, Bool.and_eq_true, decide_eq_true_eq, decide_eq_true_eq, UInt64.le_iff_toNat_le]
  constructor
  · rintro ⟨hle, hlt⟩
    rw [UInt64.toNat_sub_of_le _ _ (UInt64.le_iff_toNat_le.mpr hle)] at hlt
    omega
  · rintro ⟨hle, hlt⟩
    rw [UInt64.toNat_sub_of_le _ _ (UInt64.le_iff_toNat_le.mpr hle)]
    omega

namespace Section

/-- The address is one of those that the section takes up. -/
def Covers (s : Section) (a : Address) : Prop :=
  s.address.value.toNat ≤ a.value.toNat ∧ a.value.toNat < s.address.value.toNat + s.size

/-- The section is the first one in a list with a property. -/
def IsFirst (p : Section → Prop) (listed : List Section) (s : Section) : Prop :=
  ∃ earlier later, listed = earlier ++ s :: later ∧ p s ∧ ∀ t ∈ earlier, ¬ p t

theorem contains_eq_true_iff {s : Section} {a : Address} : s.contains a = true ↔ s.Covers a :=
  Address.isWithin_eq_true_iff

/-- Seven bytes of this section lie past the end of the address space, and not at its start. -/
example :
    let s : Section := { kind := .text, label := "text", address := ⟨-2⟩, size := 9, offset := 0 }
    s.contains ⟨-1⟩ = true ∧ s.contains ⟨0⟩ = false ∧ s.contains ⟨-3⟩ = false := by
  decide

theorem find?_contains_eq_some_iff {listed : List Section} {a : Address} {s : Section} :
    listed.find? (·.contains a) = some s ↔ IsFirst (·.Covers a) listed s := by
  rw [List.find?_eq_some_iff_append]
  constructor
  · rintro ⟨hs, earlier, later, rfl, hearlier⟩
    refine ⟨earlier, later, rfl, contains_eq_true_iff.mp hs, fun t ht hcovers => ?_⟩
    have hnot := hearlier t ht
    rw [contains_eq_true_iff.mpr hcovers] at hnot
    cases hnot
  · rintro ⟨earlier, later, rfl, hs, hearlier⟩
    refine ⟨contains_eq_true_iff.mpr hs, earlier, later, rfl, fun t ht => ?_⟩
    rw [Bool.not_eq_true', ← Bool.not_eq_true, contains_eq_true_iff]
    exact hearlier t ht

theorem find?_contains_eq_none_iff {listed : List Section} {a : Address} :
    listed.find? (·.contains a) = none ↔ ∀ s ∈ listed, ¬ s.Covers a := by
  simp only [List.find?_eq_none, contains_eq_true_iff]

end Section

namespace Register

/-! ### What is noted -/

/-- What is noted for each kind is what a search finds. -/
def IsIndexed (register : Register) : Prop :=
  ∀ kind, register.firsts[kind]? = register.sections.findIdx? (·.kind = kind)

variable {register : Register}

theorem isIndexed_empty : IsIndexed {} := by
  intro kind
  rw [Std.HashMap.getElem?_empty, Array.findIdx?_empty]

/-- A section that is registered takes the note of its kind only where there is none. -/
theorem IsIndexed.add (h : register.IsIndexed) (s : Section) : (register.add s).IsIndexed := by
  intro kind
  show (register.firsts.insertIfNew s.kind register.sections.size)[kind]? =
    (register.sections.push s).findIdx? (·.kind = kind)
  rw [Std.HashMap.getElem?_insertIfNew, Array.findIdx?_push, ← h kind]
  by_cases hkind : s.kind = kind
  · subst hkind
    by_cases hnoted : s.kind ∈ register.firsts <;> simp [hnoted]
  · simp [hkind]

theorem isIndexed_foldl_add (h : register.IsIndexed) (added : List Section) :
    (added.foldl Register.add register).IsIndexed := by
  induction added generalizing register with
  | nil => exact h
  | cons s rest ih => exact ih (h.add s)

theorem isIndexed_ofSections (added : List Section) : (ofSections added).IsIndexed :=
  isIndexed_foldl_add isIndexed_empty added

theorem sections_foldl_add (register : Register) (added : List Section) :
    (added.foldl add register).sections = register.sections ++ added := by
  induction added generalizing register with
  | nil => simp
  | cons s rest ih =>
      rw [List.foldl_cons, ih]
      simp [add]

@[simp]
theorem sections_ofSections (added : List Section) :
    (ofSections added).sections = added.toArray := by
  rw [ofSections, sections_foldl_add]
  simp

/-! ### What is found -/

/-- With the right notes, the first section of a kind is found without a search. -/
theorem IsIndexed.section?_eq (h : register.IsIndexed) (kind : SectionKind) :
    register.section? kind = register.sections.find? (·.kind = kind) := by
  rw [section?, h kind, Array.find?_eq_bind_findIdx?_getElem?]

/-- **A register finds what a search through its sections finds.**  Whatever sections are
registered one by one, all of them are kept in order.  The section that is noted as the first
of a kind is the first of all sections of that kind, and none is noted only if there are none.
The section that an address lies in is the first one that takes up that address, with its end
counted past the end of the address space where it reaches there, and none is found only if no
section does.  A slice with these sections finds the same by its search. -/
theorem finds_first (added : List Section) :
    let register := ofSections added
    register.sections.toList = added ∧
    (∀ kind, (register.sectionsOf kind).toList = added.filter (·.kind = kind) ∧
      register.section? kind = (register.sectionsOf kind)[0]? ∧
      (register.section? kind = none ↔ register.sectionsOf kind = #[])) ∧
    (∀ a, (∀ s, register.sectionContaining? a = some s ↔ s.IsFirst (·.Covers a) added) ∧
      (register.sectionContaining? a = none ↔ ∀ s ∈ added, ¬ s.Covers a)) ∧
    ∀ slice : Slice, let slice := { slice with sections := register.sections }
      (∀ kind, slice.indexOf? kind = register.firsts[kind]? ∧
        slice.section? kind = register.section? kind) ∧
      ∀ a, slice.sectionContaining? a = register.sectionContaining? a := by
  intro register
  have hsections : register.sections = added.toArray := sections_ofSections added
  have hindexed : register.IsIndexed := isIndexed_ofSections added
  have hfirst (kind : SectionKind) :
      register.section? kind = (register.sectionsOf kind)[0]? := by
    rw [hindexed.section?_eq, sectionsOf, Array.getElem?_zero_filter]
  refine ⟨by rw [hsections], fun kind => ⟨?_, hfirst kind, ?_⟩, fun a => ?_, fun slice => ?_⟩
  · rw [sectionsOf, hsections, Array.toList_filter]
  · rw [hfirst, Array.getElem?_eq_none_iff]
    simp
  · have hcontaining : register.sectionContaining? a = added.find? (·.contains a) := by
      rw [sectionContaining?, hsections, ← Array.find?_toList]
    rw [hcontaining]
    exact ⟨fun s => Section.find?_contains_eq_some_iff, Section.find?_contains_eq_none_iff⟩
  · exact ⟨fun kind => ⟨(hindexed kind).symm, (hindexed.section?_eq kind).symm⟩, fun a => rfl⟩

end Register

end MachImage
