import Mathlib.Data.Nat.Notation
import MachImage.Proofs.Decoder.Run
import MachImage.Proofs.Decoder.Reading
import MachImage.Proofs.Decoder.Spelling

/-! # How many bytes a decoder takes

`Takes order m length` says that a decoder takes a fixed number of bytes, whatever they are:
any `length` bytes are read as some value wherever they stand, and where the decoder succeeds
it has gone over that many bytes of the file.  Fields and numbers do, and sequencing and loops
add up (`Takes.bind`, `takes_repeated`), so that a count that is read is backed by as many
bytes as its items take (`Takes.le_size`).

`Settled` is about decoders whose extent hangs on what they read.  The bytes of a range of
the file settle a run when it succeeds and gives the same on every file with these bytes in
that place.  A decoder that takes its bytes inside the range is settled (`Takes.settled`), and
what stands behind it may look at the value that was read (`Takes.bind_settled`). -/

namespace MachImage

namespace Input

variable {input input' : Input} {order : ByteOrder} {offset length p n : ℕ}

theorem le_size_of_length_range (h : (input.range p n).length = n) :
    n = 0 ∨ p + n ≤ input.size := by
  rw [range, Array.length_toList, Array.size_extract] at h
  omega

theorem range_of_range (hp : offset ≤ p) (hn : p + n ≤ offset + length) :
    input.range p n = ((input.range offset length).drop (p - offset)).take n := by
  have hlength : offset + length - offset = length := Nat.add_sub_cancel_left _ _
  have hn' : p + n - p = n := Nat.add_sub_cancel_left _ _
  have hmin : min n (length - (p - offset)) = n := by omega
  have hsum : offset + (p - offset) = p := Nat.add_sub_cancel' hp
  simp only [range, Array.toList_extract, List.extract_eq_take_drop, hlength, hn', List.drop_take,
    List.drop_drop, List.take_take, hmin, hsum]

/-- Files with the same bytes in a range have the same bytes in every part of it. -/
theorem range_eq_of_range_eq (h : input'.range offset length = input.range offset length)
    (hp : offset ≤ p) (hn : p + n ≤ offset + length) : input'.range p n = input.range p n := by
  rw [range_of_range hp hn, h, ← range_of_range hp hn]

theorem inside_of_range_eq (h : input'.range offset length = input.range offset length)
    (hinside : offset + length ≤ input.size) (hpos : 0 < length) :
    offset + length ≤ input'.size := by
  have hlength := congrArg List.length h
  rw [length_range hinside] at hlength
  have hor := le_size_of_length_range hlength
  omega

theorem holdsAt_range (h : p + n ≤ input.size) : input.HoldsAt p (input.range p n) := by
  refine holdsAt_of_getElem? (by rwa [length_range h]) fun i hi => ?_
  rw [length_range h] at hi
  have hlt : p + i < input.size := by omega
  simp [range, hlt]

theorem u32?_eq_of_range_eq (h : input'.range offset length = input.range offset length)
    (hinside : offset + length ≤ input.size) (hp : offset ≤ p) (hn : p + 4 ≤ offset + length) :
    input'.u32? order p = input.u32? order p := by
  have hinside' := inside_of_range_eq h hinside (by omega)
  have hwindow := (holdsAt_range (by omega : p + 4 ≤ input.size)).window?
  have hwindow' := (holdsAt_range (by omega : p + 4 ≤ input'.size)).window?
  rw [range_eq_of_range_eq h hp hn] at hwindow'
  rw [length_range (by omega)] at hwindow hwindow'
  rw [u32?, u32?, number?, number?, hwindow, hwindow']

end Input

namespace Decoder

variable {α β : Type} {order : ByteOrder} {k n : ℕ}

/-! ### Decoders of a fixed extent -/

/-- The decoder takes `length` bytes, whatever they are. -/
structure Takes (order : ByteOrder) (m : Decoder α) (length : ℕ) : Prop where
  /-- Any bytes of that number are a value, wherever they stand. -/
  reads : ∀ xs : List UInt8, xs.length = length → ∃ a, Reads order m xs a
  /-- Success means that the bytes were there. -/
  spells : Spells order m fun _ xs => xs.length = length

theorem takes_pure (a : α) : Takes order (pure a) 0 where
  reads xs h := by
    obtain rfl := List.length_eq_zero_iff.mp h
    exact ⟨a, reads_pure a⟩
  spells := spells_pure rfl

theorem Takes.bind {m : Decoder α} {f : α → Decoder β} (hm : Takes order m k)
    (hf : ∀ a, Takes order (f a) n) : Takes order (m >>= f) (k + n) where
  reads xs h := by
    have htake : (xs.take k).length = k := by
      rw [List.length_take]
      omega
    have hdrop : (xs.drop k).length = n := by
      rw [List.length_drop]
      omega
    obtain ⟨a, ha⟩ := hm.reads _ htake
    obtain ⟨b, hb⟩ := (hf a).reads _ hdrop
    exact ⟨b, (ha.bind hb).of_eq (List.take_append_drop k xs) rfl⟩
  spells := hm.spells.bind fun a xs hxs => (hf a).spells.mono fun b ys hys => by
    rw [List.length_append, hxs, hys]

theorem Takes.bind_pure {m : Decoder α} {f : α → β} (hm : Takes order m n) :
    Takes order (m >>= fun a => Pure.pure (f a)) n :=
  hm.bind fun a => takes_pure (f a)

theorem Takes.of_eq {m : Decoder α} (hm : Takes order m k) (h : k = n) : Takes order m n :=
  h ▸ hm

/-! ### Fields and loops -/

theorem takes_field (length : ℕ) : Takes order (field length) length where
  reads xs h := ⟨xs, h ▸ reads_field xs⟩
  spells := (spells_field length).mono fun _ _ h => h.2

theorem takes_bytes (length : ℕ) : Takes order (bytes length) length where
  reads xs h := ⟨xs.toArray, h ▸ reads_bytes xs⟩
  spells input p w c' h := by
    by_cases hzero : length = 0
    · subst hzero
      cases h
      exact ⟨0, rfl, by rw [Input.range_zero]; rfl, by rw [Input.range_zero]; rfl⟩
    · rw [bytes_apply _ _ hzero] at h
      split at h <;> cases h
      next hw =>
        have hlength := Input.length_range (Input.window?_eq_some hw).1
        exact ⟨length, rfl, hlength, hlength⟩

theorem takes_number (length : ℕ) : Takes order (number length) length where
  reads xs h := by
    subst h
    exact ⟨order.value xs, (reads_number (order.value_lt xs)).of_eq (order.bytes_value xs) rfl⟩
  spells := (spells_number length).mono fun n xs h => by rw [h.2, ByteOrder.length_bytes]

theorem takes_u16 : Takes order u16 2 := (takes_number 2).bind_pure

theorem takes_u32 : Takes order u32 4 := (takes_number 4).bind_pure

theorem takes_u64 : Takes order u64 8 := (takes_number 8).bind_pure

theorem takes_word (width : Width) : Takes order (word width) width.bytes :=
  (takes_number width.bytes).bind_pure

theorem takes_name16 : Takes order name16 16 := (takes_field 16).bind_pure

theorem takes_repeatedFrom {item : Decoder α} (hitem : Takes order item n) (count : ℕ)
    (before : Array α) : Takes order (repeatedFrom item before count) (count * n) := by
  induction count generalizing before with
  | zero => exact (takes_pure before).of_eq (Nat.zero_mul n).symm
  | succ count ih =>
      have hsum : n + count * n = (count + 1) * n := by rw [Nat.succ_mul, Nat.add_comm]
      exact (hitem.bind fun a => ih (before.push a)).of_eq hsum

theorem takes_repeated {item : Decoder α} (hitem : Takes order item n) (count : ℕ) :
    Takes order (repeated count item) (count * n) :=
  takes_repeatedFrom hitem count #[]

/-! ### Success and the size of the file -/

section success

variable {m : Decoder α} {input : Input} {p : ℕ} {a : α} {c' : Cursor}

theorem Takes.le_size (hm : Takes order m n) (h : m input ⟨p, order⟩ = .ok a c') :
    c' = ⟨p + n, order⟩ ∧ (n = 0 ∨ p + n ≤ input.size) := by
  obtain ⟨l, rfl, hl, hn⟩ := hm.spells input p a c' h
  obtain rfl : l = n := hl.symm.trans hn
  exact ⟨rfl, Input.le_size_of_length_range hl⟩

/-- What stands behind a decoder of a fixed extent starts behind the bytes that it took. -/
theorem Takes.bind_eq_ok {f : α → Decoder β} {b : β} (hm : Takes order m n)
    (h : (m >>= f) input ⟨p, order⟩ = .ok b c') :
    ∃ a, m input ⟨p, order⟩ = .ok a ⟨p + n, order⟩ ∧ f a input ⟨p + n, order⟩ = .ok b c' := by
  obtain ⟨a, c₁, ha, hb⟩ := Decoder.bind_eq_ok.mp h
  obtain ⟨rfl, -⟩ := hm.le_size ha
  exact ⟨a, ha, hb⟩

end success

/-! ### Runs settled by a range of the file -/

section settled

variable {input : Input} {offset length p : ℕ}

/-- Every file with the bytes of a range of `input` in that place gives the same value from
`p` on. -/
def Settled (input : Input) (offset length : ℕ) (order : ByteOrder) (m : Decoder α) (p : ℕ) :
    Prop :=
  ∃ a, ∀ input' : Input, input'.range offset length = input.range offset length →
    Yields order m input' p a

theorem settled_pure (a : α) : Settled input offset length order (pure a) p :=
  ⟨a, fun _ _ => ⟨p, rfl⟩⟩

theorem Settled.bind_pure {m : Decoder α} {f : α → β}
    (hm : Settled input offset length order m p) :
    Settled input offset length order (m >>= fun a => Pure.pure (f a)) p := by
  obtain ⟨a, ha⟩ := hm
  exact ⟨f a, fun input' h => (ha input' h).bind_pure⟩

theorem settled_seek_bind {f : Unit → Decoder α} {q : ℕ}
    (h : Settled input offset length order (f ()) q) :
    Settled input offset length order (seek q >>= f) p := by
  obtain ⟨a, ha⟩ := h
  refine ⟨a, fun input' h' => ?_⟩
  obtain ⟨r, hr⟩ := ha input' h'
  exact ⟨r, by rw [bind_of_ok (seek_apply input' _ q), hr]⟩

variable (hinside : offset + length ≤ input.size) (hpos : 0 < length)
include hinside hpos

/-- Bytes that are taken inside the range are the same in all files with the bytes of the
range, and are read as the same value. -/
theorem Takes.exists_settled {m : Decoder α} (hm : Takes order m n) (hp : offset ≤ p)
    (hn : p + n ≤ offset + length) :
    ∃ a, ∀ input' : Input, input'.range offset length = input.range offset length →
      m input' ⟨p, order⟩ = .ok a ⟨p + n, order⟩ := by
  have hrange : p + n ≤ input.size := Nat.le_trans hn hinside
  obtain ⟨a, ha⟩ := hm.reads _ (Input.length_range hrange)
  refine ⟨a, fun input' h => ?_⟩
  have hrange' := Nat.le_trans hn (Input.inside_of_range_eq h hinside hpos)
  have hholds := Input.holdsAt_range hrange'
  rw [Input.range_eq_of_range_eq h hp hn] at hholds
  have hrun := ha input' p hholds
  rwa [Input.length_range hrange] at hrun

theorem Takes.settled {m : Decoder α} (hm : Takes order m n) (hp : offset ≤ p)
    (hn : p + n ≤ offset + length) : Settled input offset length order m p := by
  obtain ⟨a, ha⟩ := hm.exists_settled hinside hpos hp hn
  exact ⟨a, fun input' h => ⟨p + n, ha input' h⟩⟩

/-- What stands behind may go by the value that the file itself gives. -/
theorem Takes.bind_settled {m : Decoder α} {f : α → Decoder β} (hm : Takes order m n)
    (hp : offset ≤ p) (hn : p + n ≤ offset + length)
    (hf : ∀ a, m input ⟨p, order⟩ = .ok a ⟨p + n, order⟩ →
      Settled input offset length order (f a) (p + n)) :
    Settled input offset length order (m >>= f) p := by
  obtain ⟨a, ha⟩ := hm.exists_settled hinside hpos hp hn
  obtain ⟨b, hb⟩ := hf a (ha input rfl)
  refine ⟨b, fun input' h => ?_⟩
  obtain ⟨q, hq⟩ := hb input' h
  exact ⟨q, by rw [bind_of_ok (ha input' h), hq]⟩

end settled

end Decoder

end MachImage
