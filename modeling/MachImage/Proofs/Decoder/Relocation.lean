import Mathlib.Data.Nat.Notation
import Mathlib.Data.List.Forall2
import MachImage.Proofs.Decoder.Run

/-! # Decoders on a file that is part of a larger one

Let a file stand between some bytes `before` and some bytes `after`.  A decoder that only
ever asks for bytes by their position finds the same ones in the larger file, `before.size`
further on.  `Relocates before after R m m'` says so of two decoders: wherever `m` succeeds
on the file, `m'` succeeds on the larger one from the moved cursor on, with a value related
by `R` and at the moved cursor; an unknown magic number stays one.  A file that ends too
early ends too early in the larger one exactly where nothing is put behind it, so only then
is that error followed.

`Relocates` is kept by sequencing (`Relocates.bind`) and by loops (`relocates_repeated`,
`relocates_mapM`).  With nothing in front it is about files that are cut off, with nothing
behind about files that are moved. -/

namespace MachImage

def Cursor.moved (d : ℕ) (c : Cursor) : Cursor := { c with position := c.position + d }

def DecodeError.moved (d : ℕ) : DecodeError → DecodeError
  | truncated offset wanted => truncated (offset + d) wanted
  | e => e

@[simp] theorem Cursor.moved_zero (c : Cursor) : c.moved 0 = c := rfl

/-! ### Windows -/

section window

variable {before input after w : Input} {offset length : ℕ}

theorem extract_relocated (h : offset + length ≤ input.size) :
    (before ++ input ++ after).extract (offset + before.size) (offset + before.size + length) =
      input.extract offset (offset + length) := by
  have hend : offset + before.size + length - before.size = offset + length := by omega
  have hbefore : before.extract (offset + before.size) (offset + before.size + length) = #[] :=
    Array.extract_empty_of_size_le_start (by omega)
  have hafter : after.extract (offset - input.size) (offset + length - input.size) = #[] :=
    Array.extract_empty_of_stop_le_start (by omega)
  simp [Array.extract_append, hend, hbefore, hafter]

theorem Input.window?_relocated (h : input.window? offset length = some w) :
    (before ++ input ++ after).window? (offset + before.size) length = some w := by
  unfold Input.window? at h ⊢
  split at h
  · next hle =>
    cases h
    rw [if_pos (by simp only [Array.size_append]; omega), extract_relocated hle]
  · cases h

theorem Input.window?_relocated_none (h : input.window? offset length = none) :
    (before ++ input ++ #[]).window? (offset + before.size) length = none := by
  unfold Input.window? at h ⊢
  split at h
  · cases h
  · next hlt =>
    rw [if_neg]
    simp only [Array.append_empty, Array.size_append]
    omega

end window

namespace Decoder

variable {α β γ δ : Type} (before after : Input)

/-- The outcome of a run on a file is followed by one on the larger file. -/
def Follows (R : α → β → Prop) :
    EStateM.Result DecodeError Cursor α → EStateM.Result DecodeError Cursor β → Prop
  | .ok a c, r => ∃ b, r = .ok b (c.moved before.size) ∧ R a b
  | .error (.truncated offset wanted) _, r =>
      after = #[] → ∃ c', r = .error (.truncated (offset + before.size) wanted) c'
  | .error (.unsupportedMagic magic) _, r => ∃ c', r = .error (.unsupportedMagic magic) c'
  | .error (.unreadable _) _, _ => False

/-- Every run of `m` on a file is followed by one of `m'` on the larger file. -/
def Relocates (R : α → β → Prop) (m : Decoder α) (m' : Decoder β) : Prop :=
  ∀ input c, Follows before after R (m input c)
    (m' (before ++ input ++ after) (c.moved before.size))

variable {before after} {R : α → β → Prop} {Q : γ → δ → Prop}

/-! ### Sequencing -/

theorem Relocates.pure {a : α} {b : β} (h : R a b) :
    Relocates before after R (pure a) (pure b) :=
  fun _ _ => ⟨b, rfl, h⟩

theorem Relocates.bind {m : Decoder α} {m' : Decoder β} {f : α → Decoder γ} {f' : β → Decoder δ}
    (hm : Relocates before after R m m')
    (hf : ∀ a b, R a b → Relocates before after Q (f a) (f' b)) :
    Relocates before after Q (m >>= f) (m' >>= f') := by
  intro input c
  have h := hm input c
  rw [bind_apply]
  cases hr : m input c with
  | ok a c' =>
      rw [hr] at h
      obtain ⟨b, hb, hab⟩ := h
      rw [bind_of_ok hb]
      exact hf a b hab input c'
  | error e c' =>
      rw [hr] at h
      cases e with
      | truncated offset wanted =>
          intro hafter
          obtain ⟨c'', h''⟩ := h hafter
          exact ⟨c'', by rw [bind_apply, h'']⟩
      | unsupportedMagic magic =>
          obtain ⟨c'', h''⟩ := h
          exact ⟨c'', by rw [bind_apply, h'']⟩
      | unreadable reason => exact h

/-- Sequencing where the first value does not hang on where the file stands. -/
theorem Relocates.bind_eq {m : Decoder α} {f : α → Decoder γ} {f' : α → Decoder δ}
    (hm : Relocates before after Eq m m)
    (hf : ∀ a, Relocates before after Q (f a) (f' a)) :
    Relocates before after Q (m >>= f) (m >>= f') :=
  hm.bind fun a _ h => h ▸ hf a

theorem Relocates.mono {R' : α → β → Prop} {m : Decoder α} {m' : Decoder β}
    (hm : Relocates before after R m m') (h : ∀ a b, R a b → R' a b) :
    Relocates before after R' m m' := by
  intro input c
  have hr := hm input c
  cases hm' : m input c with
  | ok a c' =>
      rw [hm'] at hr
      obtain ⟨b, hb, hab⟩ := hr
      exact ⟨b, hb, h a b hab⟩
  | error e c' =>
      rw [hm'] at hr
      cases e <;> exact hr

/-- What is done to the value in the larger file only is between the two values. -/
theorem Relocates.map_right {m : Decoder α} {m' : Decoder β} {f : β → δ} {R' : α → δ → Prop}
    (hm : Relocates before after R m m') (h : ∀ a b, R a b → R' a (f b)) :
    Relocates before after R' m (f <$> m') := by
  have hbind : Relocates before after R' (m >>= Pure.pure) (m' >>= fun b => Pure.pure (f b)) :=
    hm.bind fun a b hab => .pure (h a b hab)
  rwa [bind_pure, bind_pure_comp] at hbind

theorem relocates_unsupportedMagic (magic : UInt32) :
    Relocates before after R (throw (.unsupportedMagic magic)) (throw (.unsupportedMagic magic)) :=
  fun _ c => ⟨c.moved before.size, rfl⟩

/-! ### The primitive decoders -/

theorem relocates_seek (p : ℕ) :
    Relocates before after Eq (seek p) (seek (p + before.size)) :=
  fun _ _ => ⟨(), rfl, rfl⟩

theorem relocates_setOrder (order : ByteOrder) :
    Relocates before after Eq (setOrder order) (setOrder order) :=
  fun _ _ => ⟨(), rfl, rfl⟩

theorem relocates_position :
    Relocates before after (fun p q => q = p + before.size) position position :=
  fun _ _ => ⟨_, rfl, rfl⟩

theorem relocates_order : Relocates before after Eq order order :=
  fun _ _ => ⟨_, rfl, rfl⟩

theorem relocates_field (length : ℕ) :
    Relocates before after Eq (field length) (field length) := by
  intro input c
  simp only [field_apply, Cursor.moved]
  cases h : input.window? c.position length with
  | some w =>
      rw [Input.window?_relocated h]
      exact ⟨w.toList, by rw [Nat.add_right_comm]; rfl, rfl⟩
  | none =>
      rintro rfl
      rw [Input.window?_relocated_none h]
      exact ⟨_, rfl⟩

theorem relocates_bytes (length : ℕ) :
    Relocates before after Eq (bytes length) (bytes length) := by
  intro input c
  by_cases hl : length = 0
  · subst hl
    exact ⟨#[], rfl, rfl⟩
  · simp only [bytes_apply _ _ hl, Cursor.moved]
    cases h : input.window? c.position length with
    | some w =>
        rw [Input.window?_relocated h]
        exact ⟨w, by rw [Nat.add_right_comm]; rfl, rfl⟩
    | none =>
        rintro rfl
        rw [Input.window?_relocated_none h]
        exact ⟨_, rfl⟩

theorem relocates_bytesAt (offset length : ℕ) :
    Relocates before after Eq (bytesAt offset length) (bytesAt (offset + before.size) length) := by
  intro input c
  simp only [bytesAt_apply]
  cases h : input.window? offset length with
  | some w =>
      rw [Input.window?_relocated h]
      exact ⟨w, rfl, rfl⟩
  | none =>
      rintro rfl
      rw [Input.window?_relocated_none h]
      exact ⟨_, rfl⟩

/-! ### Numbers and names -/

theorem relocates_number (length : ℕ) :
    Relocates before after Eq (number length) (number length) :=
  relocates_order.bind_eq fun _ => (relocates_field length).bind_eq fun _ => .pure rfl

theorem relocates_u8 : Relocates before after Eq u8 u8 :=
  (relocates_number 1).bind_eq fun _ => .pure rfl

theorem relocates_u16 : Relocates before after Eq u16 u16 :=
  (relocates_number 2).bind_eq fun _ => .pure rfl

theorem relocates_u32 : Relocates before after Eq u32 u32 :=
  (relocates_number 4).bind_eq fun _ => .pure rfl

theorem relocates_u64 : Relocates before after Eq u64 u64 :=
  (relocates_number 8).bind_eq fun _ => .pure rfl

theorem relocates_word (width : Width) : Relocates before after Eq (word width) (word width) :=
  (relocates_number width.bytes).bind_eq fun _ => .pure rfl

theorem relocates_name16 : Relocates before after Eq name16 name16 :=
  (relocates_field 16).bind_eq fun _ => .pure rfl

/-! ### Loops -/

theorem relocates_repeatedFrom {item : Decoder α} {item' : Decoder β}
    (h : Relocates before after R item item') (count : ℕ) (values : Array α) (values' : Array β)
    (hvalues : List.Forall₂ R values.toList values'.toList) :
    Relocates before after (fun a b => List.Forall₂ R a.toList b.toList)
      (repeatedFrom item values count) (repeatedFrom item' values' count) := by
  induction count generalizing values values' with
  | zero => exact .pure hvalues
  | succ count ih =>
      refine h.bind fun a b hab => ih _ _ ?_
      simp only [Array.toList_push]
      exact List.rel_append hvalues (.cons hab .nil)

theorem relocates_repeated {item : Decoder α} {item' : Decoder β}
    (h : Relocates before after R item item') (count : ℕ) :
    Relocates before after (fun a b => List.Forall₂ R a.toList b.toList)
      (repeated count item) (repeated count item') :=
  relocates_repeatedFrom h count #[] #[] .nil

theorem relocates_repeated_eq {item : Decoder α} (h : Relocates before after Eq item item)
    (count : ℕ) : Relocates before after Eq (repeated count item) (repeated count item) :=
  (relocates_repeated h count).mono fun a b hab => by
    rw [List.forall₂_eq_eq_eq] at hab
    exact Array.toList_inj.mp hab

theorem relocates_listMapM {f : α → Decoder γ} {f' : β → Decoder δ}
    (h : ∀ a b, R a b → Relocates before after Q (f a) (f' b)) {as : List α} {bs : List β}
    (hab : List.Forall₂ R as bs) :
    Relocates before after (List.Forall₂ Q) (as.mapM f) (bs.mapM f') := by
  induction hab with
  | nil => exact .pure .nil
  | cons hab _ ih =>
      simp only [List.mapM_cons]
      exact (h _ _ hab).bind fun _ _ hcd => ih.bind fun _ _ hrest => .pure (.cons hcd hrest)

theorem relocates_mapM {f : α → Decoder γ} {f' : β → Decoder δ}
    (h : ∀ a b, R a b → Relocates before after Q (f a) (f' b)) {as : Array α} {bs : Array β}
    (hab : List.Forall₂ R as.toList bs.toList) :
    Relocates before after (fun a b => List.Forall₂ Q a.toList b.toList)
      (as.mapM f) (bs.mapM f') := by
  rw [Array.mapM_eq_mapM_toList, Array.mapM_eq_mapM_toList, ← bind_pure_comp, ← bind_pure_comp]
  exact (relocates_listMapM h hab).bind fun _ _ hcd => .pure (by simpa using hcd)

theorem relocates_mapM_eq {f : α → Decoder γ} (h : ∀ a, Relocates before after Eq (f a) (f a))
    (as : Array α) : Relocates before after Eq (as.mapM f) (as.mapM f) := by
  have hsame : List.Forall₂ Eq as.toList as.toList := List.forall₂_same.mpr fun _ _ => rfl
  have hf : ∀ a b, a = b → Relocates before after Eq (f a) (f b) := by
    rintro a _ rfl
    exact h a
  refine (relocates_mapM hf hsame).mono fun a b hab => ?_
  rw [List.forall₂_eq_eq_eq] at hab
  exact Array.toList_inj.mp hab

end Decoder

end MachImage
