import MachImage.Proofs.Decoder.Inherited
import MachImage.Proofs.Decoder.Run

/-! # Why decoders fail

A decoder that only moves the cursor and fetches bytes fails for one reason: a range of
bytes that it wants is not all in the file, and the error names that range
(`inherited_failsShort`).  `Decoder.answer` gives the failures of a sequence
(`answer_bind_of_error`) and of a loop: a loop of decoders that do not look at the cursor
gives what they give one by one, up to the first failure (`answer_mapM`). -/

namespace MachImage

namespace DecodeError

/-- What the error says is true: the range of bytes that it names reaches past the end of the
file, or the magic number that it names is an unknown one. -/
def HoldsOf (input : Input) (unknown : UInt32 → Prop) : DecodeError → Prop
  | .truncated offset wanted => input.size < offset + wanted
  | .unsupportedMagic magic => unknown magic
  | .unreadable _ => False

/-- The error names a range of bytes that reaches past the end of the file. -/
def IsShort (input : Input) (e : DecodeError) : Prop := e.HoldsOf input fun _ => False

variable {input : Input} {e : DecodeError} {unknown unknown' : UInt32 → Prop}

theorem HoldsOf.mono (h : e.HoldsOf input unknown)
    (himp : ∀ magic, unknown magic → unknown' magic) : e.HoldsOf input unknown' := by
  cases e with
  | truncated offset wanted => exact h
  | unsupportedMagic magic => exact himp magic h
  | unreadable reason => exact h

theorem IsShort.holdsOf (h : e.IsShort input) : e.HoldsOf input unknown :=
  h.mono fun _ => False.elim

end DecodeError

namespace Decoder

variable {α β : Type} {input : Input} {c c' : Cursor} {e : DecodeError}

/-! ### Failures of a sequence -/

theorem bind_of_error {m : Decoder α} (h : m input c = .error e c') (f : α → Decoder β) :
    (m >>= f) input c = .error e c' := by
  rw [bind_apply, h]

theorem bind_eq_error {m : Decoder α} {f : α → Decoder β} (h : (m >>= f) input c = .error e c') :
    m input c = .error e c' ∨ ∃ a c₁, m input c = .ok a c₁ ∧ f a input c₁ = .error e c' := by
  rw [bind_apply] at h
  cases hm : m input c with
  | ok a c₁ =>
      rw [hm] at h
      exact .inr ⟨a, c₁, rfl, h⟩
  | error e' c₁ =>
      rw [hm] at h
      cases h
      exact .inl rfl

theorem exists_of_answer_error {m : Decoder α} (h : m.answer input c = .error e) :
    ∃ c', m input c = .error e c' := by
  unfold answer at h
  split at h
  · cases h
  · cases h
    exact ⟨_, by assumption⟩

theorem answer_bind_of_ok {m : Decoder α} {a : α} (h : m input c = .ok a c')
    (f : α → Decoder β) : (m >>= f).answer input c = (f a).answer input c' := by
  simp only [answer, bind_of_ok h]

theorem answer_bind_of_error {m : Decoder α} (h : m.answer input c = .error e)
    (f : α → Decoder β) : (m >>= f).answer input c = .error e := by
  obtain ⟨c', hrun⟩ := exists_of_answer_error h
  exact answer_of_error (bind_of_error hrun f)

theorem answer_bind_pure (m : Decoder α) (f : α → β) :
    (m >>= fun a => pure (f a)).answer input c = (m.answer input c).map f := by
  unfold answer
  rw [bind_apply]
  cases m input c <;> rfl

/-! ### Failures of a loop -/

theorem answer_listMapM {f : α → Decoder β} {g : α → Except DecodeError β}
    (h : ∀ a c, (f a).answer input c = g a) (as : List α) (c : Cursor) :
    (as.mapM f).answer input c = as.mapM g := by
  induction as generalizing c with
  | nil => rfl
  | cons a rest ih =>
      have ha := h a c
      rw [List.mapM_cons, List.mapM_cons]
      cases hg : g a with
      | error e =>
          rw [hg] at ha
          exact answer_bind_of_error ha _
      | ok b =>
          rw [hg] at ha
          obtain ⟨c₁, hrun⟩ := exists_of_answer_ok ha
          rw [answer_bind_of_ok hrun, answer_bind_pure, ih c₁]
          rfl

theorem answer_mapM {f : α → Decoder β} {g : α → Except DecodeError β}
    (h : ∀ a c, (f a).answer input c = g a) (as : Array α) (c : Cursor) :
    (as.mapM f).answer input c = as.mapM g := by
  rw [Array.mapM_eq_mapM_toList, Array.mapM_eq_mapM_toList, ← bind_pure_comp, answer_bind_pure,
    answer_listMapM h]
  rfl

/-- All items in front of some item succeed, and that item fails with the error. -/
def FirstFails {ε : Type} (g : α → Except ε β) (as : List α) (e : ε) : Prop :=
  ∃ earlier a later, as = earlier ++ a :: later ∧ (∀ x ∈ earlier, ∃ b, g x = .ok b) ∧
    g a = .error e

section loops

variable {ε : Type} {g : α → Except ε β} {a : α} {rest : List α}

theorem firstFails_cons_of_error {e e' : ε} (ha : g a = .error e) :
    FirstFails g (a :: rest) e' ↔ e = e' := by
  constructor
  · rintro ⟨_ | ⟨x, earlier⟩, a', later, hsplit, hearlier, he⟩
    · cases hsplit
      exact Except.error.inj (ha.symm.trans he)
    · cases hsplit
      obtain ⟨b, hb⟩ := hearlier a List.mem_cons_self
      rw [ha] at hb
      cases hb
  · rintro rfl
    exact ⟨[], a, rest, rfl, nofun, ha⟩

theorem firstFails_cons_of_ok {b : β} {e : ε} (ha : g a = .ok b) :
    FirstFails g (a :: rest) e ↔ FirstFails g rest e := by
  constructor
  · rintro ⟨_ | ⟨x, earlier⟩, a', later, hsplit, hearlier, he⟩
    · cases hsplit
      rw [ha] at he
      cases he
    · cases hsplit
      exact ⟨earlier, a', later, rfl, fun y hy => hearlier y (List.mem_cons_of_mem a hy), he⟩
  · rintro ⟨earlier, a', later, rfl, hearlier, he⟩
    exact ⟨a :: earlier, a', later, rfl, List.forall_mem_cons.mpr ⟨⟨b, ha⟩, hearlier⟩, he⟩

/-- A loop fails with the error of the first item that fails. -/
theorem listMapM_eq_error_iff {as : List α} {e : ε} :
    as.mapM g = .error e ↔ FirstFails g as e := by
  induction as with
  | nil =>
      refine ⟨fun h => (by cases h), ?_⟩
      rintro ⟨earlier, a, later, hsplit, -⟩
      cases List.append_eq_nil_iff.mp hsplit.symm |>.2
  | cons a rest ih =>
      rw [List.mapM_cons]
      cases ha : g a with
      | error e' =>
          rw [firstFails_cons_of_error ha]
          exact ⟨Except.error.inj, congrArg _⟩
      | ok b =>
          rw [firstFails_cons_of_ok ha, ← ih]
          cases rest.mapM g with
          | error e' => exact ⟨fun h => congrArg _ (Except.error.inj h), fun h => h ▸ rfl⟩
          | ok bs => exact ⟨fun h => (by cases h), fun h => (by cases h)⟩

theorem listMapM_eq_ok_iff {as : List α} {bs : List β} :
    as.mapM g = .ok bs ↔ List.Forall₂ (fun a b => g a = .ok b) as bs := by
  induction as generalizing bs with
  | nil =>
      rw [List.forall₂_nil_left_iff]
      exact ⟨fun h => (by cases h; rfl), fun h => h ▸ rfl⟩
  | cons a rest ih =>
      rw [List.mapM_cons, List.forall₂_cons_left_iff]
      simp only [← ih]
      cases ha : g a with
      | error e => simp [bind, Except.bind]
      | ok b =>
          cases rest.mapM g with
          | error e => simp [bind, Except.bind]
          | ok bs' => simp [bind, Except.bind, pure, Except.pure, eq_comm]

variable {as : Array α}

theorem arrayMapM_eq_error_iff {e : ε} : as.mapM g = .error e ↔ FirstFails g as.toList e := by
  rw [Array.mapM_eq_mapM_toList, ← listMapM_eq_error_iff]
  cases as.toList.mapM g with
  | error e' => exact ⟨fun h => (by cases h; rfl), fun h => (by cases h; rfl)⟩
  | ok bs => exact ⟨fun h => (by cases h), fun h => (by cases h)⟩

theorem arrayMapM_eq_ok_iff {bs : Array β} :
    as.mapM g = .ok bs ↔ List.Forall₂ (fun a b => g a = .ok b) as.toList bs.toList := by
  rw [Array.mapM_eq_mapM_toList, ← listMapM_eq_ok_iff]
  cases as.toList.mapM g with
  | error e => exact ⟨fun h => (by cases h), fun h => (by cases h)⟩
  | ok bs' => exact ⟨fun h => (by cases h; rfl), fun h => (by cases h; rfl)⟩

theorem exists_arrayMapM_eq_ok_iff : (∃ bs, as.mapM g = .ok bs) ↔ ∀ a ∈ as, ∃ b, g a = .ok b := by
  constructor
  · rintro ⟨bs, h⟩ a ha
    obtain ⟨i, hi, rfl⟩ := List.mem_iff_getElem.mp (Array.mem_toList_iff.mpr ha)
    obtain ⟨hlength, hall⟩ := List.forall₂_iff_get.mp (arrayMapM_eq_ok_iff.mp h)
    exact ⟨_, hall i hi (hlength ▸ hi)⟩
  · intro hall
    cases h : as.mapM g with
    | ok bs => exact ⟨bs, rfl⟩
    | error e =>
        obtain ⟨earlier, a, later, hsplit, -, he⟩ := arrayMapM_eq_error_iff.mp h
        have ha : a ∈ as.toList := by simp [hsplit]
        obtain ⟨b, hb⟩ := hall a (Array.mem_toList_iff.mp ha)
        rw [he] at hb
        cases hb

end loops

/-! ### Lack of bytes -/

/-- Whenever the decoder fails, bytes are missing where the error says. -/
def FailsShort (m : Decoder α) : Prop :=
  ∀ input c e c', m input c = .error e c' → e.IsShort input

theorem FailsShort.isShort {m : Decoder α} (hm : FailsShort m) (h : m input c = .error e c') :
    e.IsShort input :=
  hm input c e c' h

theorem inherited_failsShort : Inherited FailsShort where
  pure a input c e c' h := by cases h
  bind hm hf input c e c' h := by
    cases bind_eq_error h with
    | inl hfirst => exact hm input c e c' hfirst
    | inr hrest =>
        obtain ⟨a, c₁, _, hrest⟩ := hrest
        exact hf a input c₁ e c' hrest
  position input c e c' h := by cases h
  order input c e c' h := by cases h
  seek p input c e c' h := by cases h
  field length input c e c' h := by
    rw [field_apply] at h
    split at h <;> cases h
    exact Input.window?_eq_none.mp (by assumption)
  bytes length input c e c' h := by
    by_cases hl : length = 0
    · subst hl
      cases h
    · rw [bytes_apply _ _ hl] at h
      split at h <;> cases h
      exact Input.window?_eq_none.mp (by assumption)
  bytesAt offset length input c e c' h := by
    rw [bytesAt_apply] at h
    split at h <;> cases h
    exact Input.window?_eq_none.mp (by assumption)

end Decoder

end MachImage
