import Mathlib.Data.Nat.Notation
import MachImage.Proofs.Decoder.Run

/-! # Properties that decoders inherit from their parts

Most decoders are put together of a few primitive ones, which move the cursor and fetch
bytes.  A property is `Inherited` if those have it and sequencing keeps it; then fields,
numbers and loops have it (`Inherited.u32`, `Inherited.repeated` and so on), and a decoder
of a larger thing is shown to have it by walking through its steps, once for all such
properties.

The first of them is that a decoder leaves the byte order alone (`inherited_keepsOrder`). -/

namespace MachImage.Decoder

/-- The property passes from the primitive decoders on to what is put together of them.
Setting the byte order and failing for other reasons than a lack of bytes are left out. -/
structure Inherited (P : {α : Type} → Decoder α → Prop) : Prop where
  pure {α : Type} (a : α) : P (pure a)
  bind {α β : Type} {m : Decoder α} {f : α → Decoder β} :
    P m → (∀ a, P (f a)) → P (m >>= f)
  position : P position
  order : P order
  seek (p : ℕ) : P (seek p)
  field (length : ℕ) : P (field length)
  bytes (length : ℕ) : P (bytes length)
  bytesAt (offset length : ℕ) : P (bytesAt offset length)

namespace Inherited

variable {P : {α : Type} → Decoder α → Prop} (h : Inherited P)
include h

/-! ### Numbers and names -/

theorem number (length : ℕ) : P (number length) :=
  h.bind h.order fun _ => h.bind (h.field length) fun _ => h.pure _

theorem u8 : P u8 := h.bind (h.number 1) fun _ => h.pure _

theorem u16 : P u16 := h.bind (h.number 2) fun _ => h.pure _

theorem u32 : P u32 := h.bind (h.number 4) fun _ => h.pure _

theorem u64 : P u64 := h.bind (h.number 8) fun _ => h.pure _

theorem word (width : Width) : P (word width) := h.bind (h.number width.bytes) fun _ => h.pure _

theorem name16 : P name16 := h.bind (h.field 16) fun _ => h.pure _

/-! ### Loops -/

variable {α : Type} {item : Decoder α}

theorem repeatedFrom (hitem : P item) (count : ℕ) (values : Array α) :
    P (repeatedFrom item values count) := by
  induction count generalizing values with
  | zero => exact h.pure values
  | succ count ih => exact h.bind hitem fun value => ih (values.push value)

theorem repeated (hitem : P item) (count : ℕ) : P (repeated count item) :=
  h.repeatedFrom hitem count #[]

theorem listMapM {β : Type} {f : β → Decoder α} (hf : ∀ b, P (f b)) (bs : List β) :
    P (bs.mapM f) := by
  induction bs with
  | nil => exact h.pure []
  | cons b rest ih =>
      rw [List.mapM_cons]
      exact h.bind (hf b) fun _ => h.bind ih fun _ => h.pure _

theorem mapM {β : Type} {f : β → Decoder α} (hf : ∀ b, P (f b)) (bs : Array β) :
    P (bs.mapM f) := by
  rw [Array.mapM_eq_mapM_toList, ← bind_pure_comp]
  exact h.bind (h.listMapM hf bs.toList) fun _ => h.pure _

end Inherited

/-! ### The byte order -/

/-- Where it succeeds, the decoder leaves the byte order as it was. -/
def KeepsOrder {α : Type} (m : Decoder α) : Prop :=
  ∀ input c a c', m input c = .ok a c' → c'.order = c.order

theorem inherited_keepsOrder : Inherited KeepsOrder where
  pure a input c b c' h := by
    obtain ⟨_, rfl⟩ := pure_eq_ok h
    rfl
  bind hm hf input c b c' h := by
    obtain ⟨a, c₁, hfirst, hrest⟩ := bind_eq_ok.mp h
    exact (hf a input c₁ b c' hrest).trans (hm input c a c₁ hfirst)
  position input c a c' h := by
    cases h
    rfl
  order input c a c' h := by
    cases h
    rfl
  seek p input c a c' h := by
    cases h
    rfl
  field length input c a c' h := by
    rw [field_apply] at h
    split at h <;> cases h
    rfl
  bytes length input c a c' h := by
    by_cases hl : length = 0
    · subst hl
      cases h
      rfl
    · rw [bytes_apply _ _ hl] at h
      split at h <;> cases h
      rfl
  bytesAt offset length input c a c' h := by
    rw [bytesAt_apply] at h
    split at h <;> cases h
    rfl

end MachImage.Decoder
