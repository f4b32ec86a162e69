import Mathlib.Data.Nat.Notation
import MachImage.Proofs.ByteOrder.Digits
import MachImage.Proofs.Decoder.Run

/-! # What was read is what stands there

`Spells order m R` says that a decoder invents nothing: wherever it succeeds, the bytes
between the cursor before and the cursor after are all there and are related by `R` to the
value.  It is the other half of reading what was written: a number is spelled by the bytes
that it was read from (`spells_u32` and so on), sequencing puts the bytes of both parts
behind one another (`Spells.bind`), and a loop those of all its values (`spells_repeated`). -/

namespace MachImage

/-- The `length` bytes of a file from an offset on, or those that there are. -/
def Input.range (input : Input) (offset length : ℕ) : List UInt8 :=
  (input.extract offset (offset + length)).toList

namespace Input

variable {input : Input} {offset length : ℕ}

theorem length_range (h : offset + length ≤ input.size) :
    (input.range offset length).length = length := by
  rw [range, Array.length_toList, Array.size_extract]
  omega

theorem range_zero (input : Input) (offset : ℕ) : input.range offset 0 = [] := by
  simp [range]

theorem range_append (input : Input) (offset m n : ℕ) :
    input.range offset m ++ input.range (offset + m) n = input.range offset (m + n) := by
  have hleft : min offset (offset + m) = offset := by omega
  have hright : max (offset + m) (offset + m + n) = offset + (m + n) := by omega
  simp only [range, ← Array.toList_append, Array.extract_append_extract, hleft, hright]

theorem window?_eq_some {w : Array UInt8} (h : input.window? offset length = some w) :
    offset + length ≤ input.size ∧ w = input.extract offset (offset + length) := by
  unfold window? at h
  split at h
  · next hle =>
    cases h
    exact ⟨hle, rfl⟩
  · cases h

end Input

namespace Decoder

variable {α β : Type} {order : ByteOrder}

/-- Wherever the decoder succeeds, the bytes that it went over are all there and are related
to the value. -/
def Spells (order : ByteOrder) (m : Decoder α) (R : α → List UInt8 → Prop) : Prop :=
  ∀ input p a c', m input ⟨p, order⟩ = .ok a c' →
    ∃ n, c' = ⟨p + n, order⟩ ∧ (input.range p n).length = n ∧ R a (input.range p n)

/-! ### Sequencing -/

theorem spells_pure {R : α → List UInt8 → Prop} {a : α} (h : R a []) :
    Spells order (pure a) R := by
  intro input p b c' hrun
  obtain ⟨rfl, rfl⟩ := pure_eq_ok hrun
  refine ⟨0, rfl, ?_, ?_⟩
  · rw [Input.range_zero, List.length_nil]
  · rwa [Input.range_zero]

theorem Spells.bind {m : Decoder α} {f : α → Decoder β} {Q : α → List UInt8 → Prop}
    {R : β → List UInt8 → Prop} (hm : Spells order m Q)
    (hf : ∀ a xs, Q a xs → Spells order (f a) fun b ys => R b (xs ++ ys)) :
    Spells order (m >>= f) R := by
  intro input p b c' hrun
  obtain ⟨a, c₁, hfirst, hrest⟩ := bind_eq_ok.mp hrun
  obtain ⟨k, rfl, hk, hQ⟩ := hm input p a c₁ hfirst
  obtain ⟨n, rfl, hn, hR⟩ := hf a _ hQ input (p + k) b c' hrest
  rw [Input.range_append] at hR
  refine ⟨k + n, by rw [Nat.add_assoc], ?_, hR⟩
  rw [← Input.range_append, List.length_append, hk, hn]

theorem Spells.mono {m : Decoder α} {Q R : α → List UInt8 → Prop} (hm : Spells order m Q)
    (h : ∀ a xs, Q a xs → R a xs) : Spells order m R := by
  intro input p a c' hrun
  obtain ⟨n, hc, hn, hQ⟩ := hm input p a c' hrun
  exact ⟨n, hc, hn, h a _ hQ⟩

/-- Where only the value matters, what is left of the cursor is its byte order. -/
theorem Spells.of_ok {m : Decoder α} {R : α → Prop} (hm : Spells order m fun a _ => R a)
    {input : Input} {p : ℕ} {a : α} {c' : Cursor} (h : m input ⟨p, order⟩ = .ok a c') :
    c'.order = order ∧ R a := by
  obtain ⟨n, rfl, _, ha⟩ := hm input p a c' h
  exact ⟨rfl, ha⟩

/-! ### Bytes and numbers -/

theorem spells_field (length : ℕ) :
    Spells order (field length) fun bytes xs => bytes = xs ∧ xs.length = length := by
  intro input p bytes c' hrun
  rw [field_apply] at hrun
  split at hrun
  · next w hw =>
    cases hrun
    obtain ⟨hle, rfl⟩ := Input.window?_eq_some hw
    have hlength := Input.length_range hle
    exact ⟨length, rfl, hlength, rfl, hlength⟩
  · cases hrun

theorem spells_number (length : ℕ) :
    Spells order (number length) fun n xs => n < 256 ^ length ∧ xs = order.bytes length n := by
  intro input p n c' hrun
  unfold number at hrun
  rw [bind_of_ok (order_apply input _)] at hrun
  obtain ⟨bytes, c₁, hfield, hrun⟩ := bind_eq_ok.mp hrun
  obtain ⟨rfl, rfl⟩ := pure_eq_ok hrun
  obtain ⟨k, rfl, hk, rfl, rfl⟩ := spells_field length input p bytes c₁ hfield
  exact ⟨_, rfl, hk, order.value_lt _, (order.bytes_value _).symm⟩

theorem spells_u8 : Spells order u8 fun n xs => xs = [n] := by
  refine (spells_number 1).bind fun n xs h => spells_pure ?_
  rw [h.2, List.append_nil]
  cases order <;> rfl

theorem spells_u16 : Spells order u16 fun n xs => xs = order.bytes 2 n.toNat := by
  refine (spells_number 2).bind fun n xs h => spells_pure ?_
  rw [h.2, List.append_nil, UInt16.toNat_ofNat_of_lt' h.1]

theorem spells_u32 : Spells order u32 fun n xs => xs = order.bytes 4 n.toNat := by
  refine (spells_number 4).bind fun n xs h => spells_pure ?_
  rw [h.2, List.append_nil, UInt32.toNat_ofNat_of_lt' h.1]

theorem spells_word (width : Width) :
    Spells order (word width) fun n xs => xs = order.bytes width.bytes n.toNat := by
  refine (spells_number width.bytes).bind fun n xs h => spells_pure ?_
  have hlt : n < UInt64.size := by
    cases width with
    | bits32 => exact Nat.lt_trans h.1 (by decide)
    | bits64 => exact h.1
  rw [h.2, List.append_nil, UInt64.toNat_ofNat_of_lt' hlt]

/-! ### Loops -/

theorem spells_repeatedFrom {item : Decoder α} {P : α → Prop} {write : α → List UInt8}
    (h : Spells order item fun a xs => P a ∧ xs = write a) (count : ℕ) (before : Array α) :
    Spells order (repeatedFrom item before count) fun values xs =>
      ∃ new : List α, values = before ++ new.toArray ∧ new.length = count ∧ (∀ a ∈ new, P a) ∧
        xs = new.flatMap write := by
  induction count generalizing before with
  | zero => exact spells_pure ⟨[], by simp⟩
  | succ count ih =>
      refine h.bind fun a xs ha input p values c' hrun => ?_
      obtain ⟨n, hc, hn, new, hvalues, hlength, hnew, hxs⟩ :=
        ih (before.push a) input p values c' hrun
      refine ⟨n, hc, hn, a :: new, ?_, ?_, ?_, ?_⟩
      · simp [hvalues]
      · rw [List.length_cons, hlength]
      · exact List.forall_mem_cons.mpr ⟨ha.1, hnew⟩
      · rw [List.flatMap_cons, ← hxs, ha.2]

theorem spells_repeated {item : Decoder α} {P : α → Prop} {write : α → List UInt8}
    (h : Spells order item fun a xs => P a ∧ xs = write a) (count : ℕ) :
    Spells order (repeated count item) fun values xs =>
      values.size = count ∧ (∀ a ∈ values, P a) ∧ xs = values.toList.flatMap write := by
  intro input p values c' hrun
  obtain ⟨n, hc, hn, new, rfl, hlength, hnew, hxs⟩ :=
    spells_repeatedFrom h count #[] input p values c' hrun
  exact ⟨n, hc, hn, by simpa using hlength, by simpa using hnew, by simpa using hxs⟩

end Decoder

end MachImage
