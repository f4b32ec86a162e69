import Mathlib.Data.Nat.Notation
import MachImage.Proofs.ByteOrder.Digits
import MachImage.Proofs.Decoder.Run
import MachImage.Proofs.Decoder.Relocation
import MachImage.Proofs.Text.Utf8

/-! # Reading what was written

`input.HoldsAt offset bytes` says that some bytes stand in a file from an offset on.
`Reads order m bytes a` says that `m` reads the value `a` off those bytes wherever they
stand, and that the cursor is then behind them.  It holds of every field and the bytes that
spell it (`reads_u32` and so on), and bytes in a row are read by decoders in a row
(`Reads.bind`).  `Yields` leaves open where the cursor is afterwards, for decoders that do
not read all bytes they are given or that move the cursor by themselves. -/

namespace MachImage

/-- The bytes stand in the file from an offset on. -/
def Input.HoldsAt (input : Input) (offset : ℕ) (bytes : List UInt8) : Prop :=
  ∃ before after : Input, input = before ++ bytes.toArray ++ after ∧ before.size = offset

namespace Input.HoldsAt

variable {input : Input} {offset : ℕ} {xs ys : List UInt8}

theorem left (h : input.HoldsAt offset (xs ++ ys)) : input.HoldsAt offset xs := by
  obtain ⟨before, after, rfl, rfl⟩ := h
  exact ⟨before, ys.toArray ++ after, by simp [← List.append_toArray], rfl⟩

theorem right (h : input.HoldsAt offset (xs ++ ys)) : input.HoldsAt (offset + xs.length) ys := by
  obtain ⟨before, after, rfl, rfl⟩ := h
  exact ⟨before ++ xs.toArray, after, by simp [← List.append_toArray], by simp⟩

theorem window? (h : input.HoldsAt offset xs) :
    input.window? offset xs.length = some xs.toArray := by
  obtain ⟨before, after, rfl, rfl⟩ := h
  have hwhole : Input.window? xs.toArray 0 xs.length = some xs.toArray := by
    simp [Input.window?]
  simpa using @Input.window?_relocated before xs.toArray after _ _ _ hwhole

theorem size_le (h : input.HoldsAt offset xs) : offset + xs.length ≤ input.size := by
  obtain ⟨before, after, rfl, rfl⟩ := h
  simp only [Array.size_append, List.size_toArray]
  omega

theorem getElem? (h : input.HoldsAt offset xs) {i : ℕ} (hi : i < xs.length) :
    input[offset + i]? = some xs[i] := by
  obtain ⟨before, after, rfl, rfl⟩ := h
  rw [Array.append_assoc, Array.getElem?_append_right (by omega), Nat.add_sub_cancel_left,
    Array.getElem?_append_left hi]
  simp [hi]

end Input.HoldsAt

theorem Input.holdsAt_of_getElem? {input : Input} {offset : ℕ} {xs : List UInt8}
    (hsize : offset + xs.length ≤ input.size)
    (h : ∀ i (hi : i < xs.length), input[offset + i]? = some xs[i]) : input.HoldsAt offset xs := by
  have hxs : input.extract offset (offset + xs.length) = xs.toArray := by
    refine Array.ext_getElem? fun i => ?_
    rw [Array.getElem?_extract]
    by_cases hi : i < xs.length
    · rw [if_pos (by omega), h i hi]
      simp [hi]
    · rw [if_neg (by omega)]
      simp [hi]
  refine ⟨input.extract 0 offset, input.extract (offset + xs.length), ?_, ?_⟩
  · rw [← hxs, Array.extract_append_extract, Nat.zero_min, Nat.max_eq_right (by omega),
      Array.extract_append_extract]
    simp only [Nat.zero_le, Nat.min_eq_left, Nat.max_eq_right hsize, Array.extract_size]
  · rw [Array.size_extract]
    omega

namespace Decoder

variable {α β : Type} {order : ByteOrder}

/-- Wherever the bytes stand, `m` reads `a` off them. -/
def Reads (order : ByteOrder) (m : Decoder α) (bytes : List UInt8) (a : α) : Prop :=
  ∀ input offset, input.HoldsAt offset bytes →
    m input ⟨offset, order⟩ = .ok a ⟨offset + bytes.length, order⟩

/-! ### Sequencing -/

theorem reads_pure (a : α) : Reads order (pure a) [] a := fun _ _ _ => rfl

theorem Reads.bind {m : Decoder α} {f : α → Decoder β} {xs ys : List UInt8} {a : α} {b : β}
    (hm : Reads order m xs a) (hf : Reads order (f a) ys b) :
    Reads order (m >>= f) (xs ++ ys) b := by
  intro input offset h
  rw [bind_of_ok (hm input offset h.left), hf _ _ h.right, List.length_append, Nat.add_assoc]

theorem Reads.bind_pure {m : Decoder α} {f : α → β} {xs : List UInt8} {a : α}
    (hm : Reads order m xs a) : Reads order (m >>= fun a => Pure.pure (f a)) xs (f a) := by
  have h := hm.bind (f := fun a => pure (f a)) (reads_pure (f a))
  rwa [List.append_nil] at h

theorem Reads.of_eq {m : Decoder α} {xs ys : List UInt8} {a b : α} (h : Reads order m xs a)
    (hxs : xs = ys) (hab : a = b) : Reads order m ys b :=
  hxs ▸ hab ▸ h

/-! ### Bytes and numbers -/

theorem reads_field (bytes : List UInt8) : Reads order (field bytes.length) bytes bytes := by
  intro input offset h
  rw [field_apply]
  simp only [h.window?]

theorem reads_bytes (xs : List UInt8) : Reads order (bytes xs.length) xs xs.toArray := by
  intro input offset h
  by_cases hx : xs.length = 0
  · rw [List.length_eq_zero_iff] at hx
    subst hx
    rfl
  · rw [bytes_apply _ _ hx]
    simp only [h.window?]

theorem reads_number {count n : ℕ} (h : n < 256 ^ count) :
    Reads order (number count) (order.bytes count n) n := by
  intro input offset hholds
  have hfield := @reads_field order (order.bytes count n) input offset hholds
  rw [ByteOrder.length_bytes] at hfield ⊢
  unfold number
  rw [bind_of_ok (order_apply input _), bind_of_ok hfield, pure_apply,
    ByteOrder.value_bytes order h]

theorem reads_u16 (n : UInt16) : Reads order u16 (order.bytes 2 n.toNat) n :=
  (reads_number n.toNat_lt).bind_pure.of_eq rfl UInt16.ofNat_toNat

theorem reads_u32 (n : UInt32) : Reads order u32 (order.bytes 4 n.toNat) n :=
  (reads_number n.toNat_lt).bind_pure.of_eq rfl UInt32.ofNat_toNat

theorem reads_u64 (n : UInt64) : Reads order u64 (order.bytes 8 n.toNat) n :=
  (reads_number n.toNat_lt).bind_pure.of_eq rfl UInt64.ofNat_toNat

theorem reads_word {width : Width} {n : UInt64} (h : n.toNat < 256 ^ width.bytes) :
    Reads order (word width) (order.bytes width.bytes n.toNat) n :=
  (reads_number h).bind_pure.of_eq rfl UInt64.ofNat_toNat

/-! ### Loops -/

theorem reads_repeatedFrom {γ : Type} {item : Decoder α} {write : γ → List UInt8} {value : γ → α}
    (values : List γ) (h : ∀ x ∈ values, Reads order item (write x) (value x)) (before : Array α) :
    Reads order (repeatedFrom item before values.length) (values.flatMap write)
      (before ++ (values.map value).toArray) := by
  induction values generalizing before with
  | nil => exact (reads_pure before).of_eq rfl (by simp)
  | cons x rest ih =>
      have hrest := ih (fun y hy => h y (List.mem_cons_of_mem _ hy)) (before.push (value x))
      refine ((h x List.mem_cons_self).bind hrest).of_eq rfl ?_
      simp

theorem reads_repeated {γ : Type} {item : Decoder α} {write : γ → List UInt8} {value : γ → α}
    (values : List γ) (h : ∀ x ∈ values, Reads order item (write x) (value x)) :
    Reads order (repeated values.length item) (values.flatMap write)
      (values.map value).toArray :=
  (reads_repeatedFrom values h #[]).of_eq rfl (by simp)

/-! ### Reading that ends anywhere -/

/-- From a position on `m` gives a value, wherever it ends, and keeps the byte order. -/
def Yields (order : ByteOrder) (m : Decoder α) (input : Input) (position : ℕ) (a : α) : Prop :=
  ∃ q, m input ⟨position, order⟩ = .ok a ⟨q, order⟩

section yields

variable {m : Decoder α} {input : Input} {position : ℕ} {a : α} {xs ys : List UInt8}

theorem Reads.yields (hm : Reads order m xs a) (h : input.HoldsAt position (xs ++ ys)) :
    Yields order m input position a :=
  ⟨_, hm input position h.left⟩

theorem Reads.bind_yields {f : α → Decoder β} {b : β} (hm : Reads order m xs a)
    (h : input.HoldsAt position (xs ++ ys))
    (hf : Yields order (f a) input (position + xs.length) b) :
    Yields order (m >>= f) input position b := by
  obtain ⟨q, hq⟩ := hf
  exact ⟨q, by rw [bind_of_ok (hm input position h.left), hq]⟩

theorem Yields.bind_pure {f : α → β} (hm : Yields order m input position a) :
    Yields order (m >>= fun a => Pure.pure (f a)) input position (f a) := by
  obtain ⟨q, hq⟩ := hm
  exact ⟨q, by rw [bind_of_ok hq]; rfl⟩

end yields

end Decoder

end MachImage
