import MachImage.Proofs.Decoder.Run
import MachImage.Proofs.Decoder.Spelling

/-! # The same fields in the opposite byte order

A `Field` is a number, whose bytes stand in the byte order, or a text, whose bytes do not.  Two
files mirror each other in a row of fields (`Mirrors`) when the bytes of each number in the one
are those in the other the other way round, and all texts are the same.

`Alike a b m c` says that a decoder does the same on both files, from the cursor `c` on `a` and
from the same place in the opposite byte order on `b`: it reads the same value or fails for the
same bytes, and comes to the same place.  That is so of decoders that read a row of fields
(`ReadsRow`) wherever the files mirror each other in the row, and sequencing and loops put rows
behind one another (`ReadsRow.bind`, `ReadsRow.repeated`).  `Corresponds` leaves room for values
that tell the two files apart. -/

namespace MachImage

namespace ByteOrder

def opposite : ByteOrder → ByteOrder
  | little => big
  | big => little

theorem value_opposite_reverse (order : ByteOrder) (bytes : List UInt8) :
    order.opposite.value bytes.reverse = order.value bytes := by
  cases order with
  | little => exact congrArg littleValue bytes.reverse_reverse
  | big => rfl

end ByteOrder

def Cursor.opposite (c : Cursor) : Cursor := { c with order := c.order.opposite }

@[simp] theorem Cursor.opposite_position (c : Cursor) : c.opposite.position = c.position := rfl

/-! ### Fields -/

inductive Field where
  /-- A number, in the byte order. -/
  | number (size : ℕ)
  /-- Bytes that stand as they are in either byte order. -/
  | text (size : ℕ)

def Field.size : Field → ℕ
  | number size => size
  | text size => size

def rowSize : List Field → ℕ
  | [] => 0
  | field :: rest => field.size + rowSize rest

theorem rowSize_append (row row' : List Field) :
    rowSize (row ++ row') = rowSize row + rowSize row' := by
  induction row with
  | nil => exact (Nat.zero_add _).symm
  | cons field rest ih => rw [List.cons_append, rowSize, rowSize, ih, Nat.add_assoc]

section mirrors

variable (a b : Input)

/-- The field at `p` stands in both files, in opposite byte orders. -/
def Field.Mirrors (p : ℕ) : Field → Prop
  | number size => b.range p size = (a.range p size).reverse
  | text size => b.range p size = a.range p size

/-- The fields of a row stand in both files from `p` on, in opposite byte orders. -/
def Mirrors : ℕ → List Field → Prop
  | _, [] => True
  | p, field :: rest => field.Mirrors a b p ∧ Mirrors (p + field.size) rest

instance Field.decidableMirrors (p : ℕ) : (field : Field) → Decidable (field.Mirrors a b p)
  | number _ => inferInstanceAs (Decidable (_ = _))
  | text _ => inferInstanceAs (Decidable (_ = _))

instance decidableMirrors : (p : ℕ) → (row : List Field) → Decidable (Mirrors a b p row)
  | _, [] => isTrue trivial
  | p, field :: rest =>
    have := decidableMirrors (p + field.size) rest
    inferInstanceAs (Decidable (_ ∧ _))

variable {a b}

theorem mirrors_append {p : ℕ} {row row' : List Field} :
    Mirrors a b p (row ++ row') ↔ Mirrors a b p row ∧ Mirrors a b (p + rowSize row) row' := by
  induction row generalizing p with
  | nil => simp [Mirrors, rowSize]
  | cons field rest ih =>
      rw [List.cons_append, Mirrors, Mirrors, ih, rowSize, Nat.add_assoc, and_assoc]

theorem Input.window?_eq_of_range_eq {p n : ℕ} (hsize : b.size = a.size)
    (h : b.range p n = a.range p n) : b.window? p n = a.window? p n := by
  have hbytes : b.extract p (p + n) = a.extract p (p + n) := Array.toList_inj.mp h
  rw [window?, window?, hsize, hbytes]

theorem Input.number?_of_mirrors {order : ByteOrder} {p n : ℕ} (hsize : b.size = a.size)
    (h : b.range p n = (a.range p n).reverse) :
    b.number? order.opposite p n = a.number? order p n := by
  unfold number? window?
  rw [hsize]
  split
  · have hbytes : (b.extract p (p + n)).toList = (a.extract p (p + n)).toList.reverse := h
    rw [Option.map_some, Option.map_some, hbytes, order.value_opposite_reverse]
  · rfl

end mirrors

namespace Decoder

variable {α β : Type} {a b : Input} {c : Cursor}

/-! ### Decoders that do the same on both files -/

/-- The outcome with another value, and with the cursor in the opposite byte order. -/
def oppositeResult (f : α → β) :
    EStateM.Result DecodeError Cursor α → EStateM.Result DecodeError Cursor β
  | .ok v c => .ok (f v) c.opposite
  | .error e c => .error e c.opposite

/-- What `m` does on `a` is done by `m'` on `b`, in the opposite byte order, but for a value that
is changed by `f`. -/
def Corresponds (a b : Input) (f : α → β) (m : Decoder α) (m' : Decoder β) (c : Cursor) : Prop :=
  m' b c.opposite = oppositeResult f (m a c)

/-- The decoder does the same on `b`, in the opposite byte order, as on `a`. -/
def Alike (a b : Input) (m : Decoder α) (c : Cursor) : Prop := Corresponds a b id m m c

theorem Corresponds.answer_eq {f : α → β} {m : Decoder α} {m' : Decoder β}
    (h : Corresponds a b f m m' c) : m'.answer b c.opposite = (m.answer a c).map f := by
  unfold answer
  rw [h]
  cases m a c <;> rfl

/-- The second part is only run where the first one succeeds on the first file. -/
theorem Corresponds.bind {γ δ : Type} {f : α → β} {f' : γ → δ} {m : Decoder α} {m' : Decoder β}
    {k : α → Decoder γ} {k' : β → Decoder δ} (hm : Corresponds a b f m m' c)
    (hk : ∀ v c', m a c = .ok v c' → Corresponds a b f' (k v) (k' (f v)) c') :
    Corresponds a b f' (m >>= k) (m' >>= k') c := by
  unfold Corresponds at hm ⊢
  rw [bind_apply, bind_apply, hm]
  cases hrun : m a c with
  | ok v c' => exact hk v c' hrun
  | error e c' => rfl

theorem Alike.bind_corresponds {γ : Type} {f : β → γ} {m : Decoder α} {k : α → Decoder β}
    {k' : α → Decoder γ} (hm : Alike a b m c)
    (hk : ∀ v c', m a c = .ok v c' → Corresponds a b f (k v) (k' v) c') :
    Corresponds a b f (m >>= k) (m >>= k') c :=
  Corresponds.bind hm hk

theorem Alike.bind {m : Decoder α} {k : α → Decoder β} (hm : Alike a b m c)
    (hk : ∀ v c', m a c = .ok v c' → Alike a b (k v) c') : Alike a b (m >>= k) c :=
  hm.bind_corresponds hk

theorem alike_pure (v : α) : Alike a b (pure v) c := rfl

theorem Alike.bind_pure {m : Decoder α} {f : α → β} (hm : Alike a b m c) :
    Alike a b (m >>= fun v => Pure.pure (f v)) c :=
  hm.bind fun v _ _ => alike_pure (f v)

theorem corresponds_listMapM {γ : Type} {f : α → β} {k : γ → Decoder α} {k' : γ → Decoder β}
    (h : ∀ x c, Corresponds a b f (k x) (k' x) c) (xs : List γ) (c : Cursor) :
    Corresponds a b (List.map f) (xs.mapM k) (xs.mapM k') c := by
  induction xs generalizing c with
  | nil => rfl
  | cons x rest ih =>
      rw [List.mapM_cons, List.mapM_cons]
      exact (h x c).bind fun _ c₁ _ => (ih c₁).bind fun _ _ _ => rfl

theorem corresponds_mapM {γ : Type} {f : α → β} {k : γ → Decoder α} {k' : γ → Decoder β}
    (h : ∀ x c, Corresponds a b f (k x) (k' x) c) (xs : Array γ) (c : Cursor) :
    Corresponds a b (Array.map f) (xs.mapM k) (xs.mapM k') c := by
  rw [Array.mapM_eq_mapM_toList, Array.mapM_eq_mapM_toList, ← bind_pure_comp, ← bind_pure_comp]
  refine (corresponds_listMapM h xs.toList c).bind fun vs c' _ => ?_
  unfold Corresponds
  simp [pure_apply, oppositeResult]

/-! ### The primitive decoders -/

theorem alike_position : Alike a b position c := rfl

theorem alike_seek (p : ℕ) : Alike a b (seek p) c := rfl

section primitives

variable (hsize : b.size = a.size)
include hsize

theorem alike_field {n : ℕ} (h : b.range c.position n = a.range c.position n) :
    Alike a b (field n) c := by
  unfold Alike Corresponds
  have hwindow : b.window? c.opposite.position n = a.window? c.position n :=
    Input.window?_eq_of_range_eq hsize h
  rw [field_apply, field_apply, hwindow, hsize]
  cases a.window? c.position n <;> rfl

theorem alike_bytes {n : ℕ} (h : b.range c.position n = a.range c.position n) :
    Alike a b (bytes n) c := by
  unfold Alike Corresponds
  by_cases hn : n = 0
  · subst hn
    rfl
  · have hwindow : b.window? c.opposite.position n = a.window? c.position n :=
      Input.window?_eq_of_range_eq hsize h
    rw [bytes_apply _ _ hn, bytes_apply _ _ hn, hwindow, hsize]
    cases a.window? c.position n <;> rfl

/-- Bytes that are passed over may be any. -/
theorem alike_skip (n : ℕ) (v : β) : Alike a b (bytes n >>= fun _ => pure v) c := by
  unfold Alike Corresponds
  by_cases hn : n = 0
  · subst hn
    rfl
  · simp only [bind_apply, bytes_apply _ _ hn, Input.window?, Cursor.opposite_position, hsize]
    by_cases hle : c.position + n ≤ a.size
    · simp only [if_pos hle]
      rfl
    · simp only [if_neg hle]
      rfl

theorem alike_number {n : ℕ} (h : b.range c.position n = (a.range c.position n).reverse) :
    Alike a b (number n) c := by
  unfold Alike Corresponds
  have hnumber : b.number? c.opposite.order c.opposite.position n =
      a.number? c.order c.position n := Input.number?_of_mirrors hsize h
  rw [number_apply, number_apply, hnumber, hsize]
  cases a.number? c.order c.position n <;> rfl

end primitives

/-! ### Decoders of rows -/

/-- The decoder reads the fields of a row: it does the same on files that mirror each other in
the row, and is behind it where it succeeds. -/
structure ReadsRow (row : List Field) (m : Decoder α) : Prop where
  alike : ∀ {a b : Input} {c : Cursor}, b.size = a.size → Mirrors a b c.position row →
    Alike a b m c
  position : ∀ {input : Input} {c c' : Cursor} {v : α}, m input c = .ok v c' →
    c'.position = c.position + rowSize row

theorem readsRow_pure (v : α) : ReadsRow [] (pure v) where
  alike _ _ := alike_pure v
  position h := by
    obtain ⟨-, rfl⟩ := pure_eq_ok h
    rfl

theorem readsRow_position : ReadsRow [] position where
  alike _ _ := alike_position
  position h := by
    cases h
    rfl

section sequencing

variable {row row' : List Field} {m : Decoder α} {f : α → Decoder β}

/-- The second row stands behind the first. -/
theorem ReadsRow.bind (hm : ReadsRow row m) (hf : ∀ v, ReadsRow row' (f v)) :
    ReadsRow (row ++ row') (m >>= f) where
  alike hsize h := by
    obtain ⟨hfirst, hrest⟩ := mirrors_append.mp h
    refine (hm.alike hsize hfirst).bind fun v c' hv => (hf v).alike hsize ?_
    rwa [hm.position hv]
  position h := by
    obtain ⟨v, c₁, hv, h⟩ := bind_eq_ok.mp h
    rw [(hf v).position h, hm.position hv, rowSize_append, Nat.add_assoc]

theorem ReadsRow.bind_pure {f : α → β} (hm : ReadsRow row m) :
    ReadsRow row (m >>= fun v => Pure.pure (f v)) := by
  have h := hm.bind fun v => readsRow_pure (f v)
  rwa [List.append_nil] at h

/-- What stands behind the row may go by what is read of it. -/
theorem ReadsRow.bind_alike (hm : ReadsRow row m) (hsize : b.size = a.size)
    (h : Mirrors a b c.position row)
    (hf : ∀ v c', m a c = .ok v c' → c'.position = c.position + rowSize row →
      Alike a b (f v) c') : Alike a b (m >>= f) c :=
  (hm.alike hsize h).bind fun v c' hv => hf v c' hv (hm.position hv)

/-- Behind the row may stand what is not read as a row, but needs one to be there. -/
theorem ReadsRow.bind_of_mirrors (hm : ReadsRow row m) (hsize : b.size = a.size)
    (hf : ∀ v c, Mirrors a b c.position row' → Alike a b (f v) c) (c : Cursor)
    (h : Mirrors a b c.position (row ++ row')) : Alike a b (m >>= f) c := by
  obtain ⟨hfirst, hrest⟩ := mirrors_append.mp h
  exact hm.bind_alike hsize hfirst fun v c' _ hposition => hf v c' (hposition ▸ hrest)

end sequencing

theorem readsRow_number (n : ℕ) : ReadsRow [.number n] (number n) where
  alike hsize h := alike_number hsize h.1
  position h := by
    rw [number_apply] at h
    split at h <;> cases h
    rfl

theorem readsRow_u8 : ReadsRow [.number 1] u8 := (readsRow_number 1).bind_pure

theorem readsRow_u16 : ReadsRow [.number 2] u16 := (readsRow_number 2).bind_pure

theorem readsRow_u32 : ReadsRow [.number 4] u32 := (readsRow_number 4).bind_pure

theorem readsRow_u64 : ReadsRow [.number 8] u64 := (readsRow_number 8).bind_pure

theorem readsRow_word (width : Width) : ReadsRow [.number width.bytes] (word width) :=
  (readsRow_number width.bytes).bind_pure

theorem readsRow_field (n : ℕ) : ReadsRow [.text n] (field n) where
  alike hsize h := alike_field hsize h.1
  position h := by
    rw [field_apply] at h
    split at h <;> cases h
    rfl

theorem readsRow_name16 : ReadsRow [.text 16] name16 := (readsRow_field 16).bind_pure

theorem readsRow_bytes (n : ℕ) : ReadsRow [.text n] (bytes n) where
  alike hsize h := alike_bytes hsize h.1
  position h := by
    by_cases hn : n = 0
    · subst hn
      cases h
      rfl
    · rw [bytes_apply _ _ hn] at h
      split at h <;> cases h
      rfl

/-! ### Loops -/

variable {row : List Field} {item : Decoder α}

theorem ReadsRow.repeatedFrom (h : ReadsRow row item) (count : ℕ) (values : Array α) :
    ReadsRow (List.replicate count row).flatten (repeatedFrom item values count) := by
  induction count generalizing values with
  | zero => exact readsRow_pure values
  | succ count ih => exact h.bind fun v => ih (values.push v)

theorem ReadsRow.repeated (h : ReadsRow row item) (count : ℕ) :
    ReadsRow (List.replicate count row).flatten (repeated count item) :=
  h.repeatedFrom count #[]

end Decoder

end MachImage
