import Mathlib.Data.Nat.Notation
import MachImage.Text.Basic

/-! # Text that is written and read back

`Utf8.decode` undoes `Utf8.encode` (`decode_encode`).  The scan reads the bytes of one
character from between characters to between characters, with that character in front
(`foldl_push_encodeChar`); the cases are the four lengths of an encoding, and the two ranges
that are narrower than the rest keep out overlong forms and surrogates, none of which is
ever written.

A text without NUL that is followed by nothing or by a NUL is the text up to the first NUL
(`upToNul_encode_append`). -/

namespace MachImage.Text

namespace Utf8

/-! ### First bytes -/

theorem opened?_two : ∀ n < 256, 0xC2 ≤ n → n ≤ 0xDF →
    Sequence.opened? (UInt8.ofNat n) = some { bits := n % 0x20, owed := 1 } := by
  decide +kernel

theorem opened?_three : ∀ n < 256, 0xE0 ≤ n → n ≤ 0xEF →
    Sequence.opened? (UInt8.ofNat n) = some
      { bits := n % 0x10, owed := 2
        low := if n = 0xE0 then 0xA0 else 0x80
        high := if n = 0xED then 0x9F else 0xBF } := by
  decide +kernel

theorem opened?_four : ∀ n < 256, 0xF0 ≤ n → n ≤ 0xF4 →
    Sequence.opened? (UInt8.ofNat n) = some
      { bits := n % 0x08, owed := 3
        low := if n = 0xF0 then 0x90 else 0x80
        high := if n = 0xF4 then 0x8F else 0xBF } := by
  decide +kernel

/-! ### Single bytes -/

section push

variable {n : ℕ} {q : Sequence} {text : List Char}

theorem push_ascii (h : n < 0x80) :
    Scan.push { text } (UInt8.ofNat n) = { text := Char.ofNat n :: text } := by
  have hn : (UInt8.ofNat n).toNat = n := UInt8.toNat_ofNat_of_lt' (by simp [UInt8.size]; omega)
  have hlt : UInt8.ofNat n < 0x80 := by
    rw [UInt8.lt_iff_toNat_lt, hn]
    exact h
  simp only [Scan.push, Scan.first, hlt, if_true, hn]

theorem push_opening (hn : 0x80 ≤ n) (hlt : n < 256)
    (h : Sequence.opened? (UInt8.ofNat n) = some q) :
    Scan.push { text } (UInt8.ofNat n) = { open? := some q, text } := by
  have hn' : (UInt8.ofNat n).toNat = n := UInt8.toNat_ofNat_of_lt' hlt
  have hge : ¬ UInt8.ofNat n < 0x80 := by
    rw [UInt8.lt_iff_toNat_lt, hn']
    exact Nat.not_lt.mpr hn
  simp only [Scan.push, Scan.first, hge, if_false, h]

/-- The six bits of a byte in the range of the open sequence join it. -/
theorem push_continuing {x : ℕ} (hlow : q.low.toNat ≤ x % 64 + 0x80)
    (hhigh : x % 64 + 0x80 ≤ q.high.toNat) :
    Scan.push { open? := some q, text } (UInt8.ofNat (x % 64 + 0x80)) =
      if q.owed ≤ 1 then { text := Char.ofNat (q.bits * 64 + x % 64) :: text }
      else { open? := some { bits := q.bits * 64 + x % 64, owed := q.owed - 1 }, text } := by
  have hn : (UInt8.ofNat (x % 64 + 0x80)).toNat = x % 64 + 0x80 :=
    UInt8.toNat_ofNat_of_lt' (by simp [UInt8.size]; omega)
  have hbits : (x % 64 + 0x80) % 0x40 = x % 64 := by omega
  have hin : q.low ≤ UInt8.ofNat (x % 64 + 0x80) ∧ UInt8.ofNat (x % 64 + 0x80) ≤ q.high := by
    simp only [UInt8.le_iff_toNat_le, hn]
    exact ⟨hlow, hhigh⟩
  simp only [Scan.push, hin, and_self, if_true, Sequence.bitsWith, hn, hbits]

theorem push_middle (bits x : ℕ) :
    Scan.push { open? := some { bits, owed := 2 }, text } (UInt8.ofNat (x % 64 + 0x80)) =
      { open? := some { bits := bits * 64 + x % 64, owed := 1 }, text } := by
  have hlow : (0x80 : UInt8).toNat ≤ x % 64 + 0x80 := Nat.le_add_left _ _
  have hhigh : x % 64 + 0x80 ≤ (0xBF : UInt8).toNat := by
    show _ ≤ 0xBF
    omega
  rw [push_continuing hlow hhigh, if_neg (by simp)]
  rfl

theorem push_last (bits x : ℕ) :
    Scan.push { open? := some { bits, owed := 1 }, text } (UInt8.ofNat (x % 64 + 0x80)) =
      { text := Char.ofNat (bits * 64 + x % 64) :: text } := by
  have hlow : (0x80 : UInt8).toNat ≤ x % 64 + 0x80 := Nat.le_add_left _ _
  have hhigh : x % 64 + 0x80 ≤ (0xBF : UInt8).toNat := by
    show _ ≤ 0xBF
    omega
  rw [push_continuing hlow hhigh, if_pos (Nat.le_refl 1)]

end push

/-! ### Characters -/

/-- The code of a character is below `0x110000` and no surrogate. -/
theorem code_range (c : Char) :
    c.toNat < 0xD800 ∨ 0xDFFF < c.toNat ∧ c.toNat < 0x110000 :=
  c.valid

theorem foldl_push_encodeChar (c : Char) (text : List Char) :
    (String.utf8EncodeChar c).foldl Scan.push { text } = { text := c :: text } := by
  have hrange := code_range c
  have hc : Char.ofNat c.toNat = c := Char.ofNat_toNat c
  have hv : c.val.toNat = c.toNat := rfl
  unfold String.utf8EncodeChar
  simp only [hv]
  generalize c.toNat = v at hrange hc
  split
  · simp only [List.foldl_cons, List.foldl_nil]
    rw [push_ascii (by omega), hc]
  split
  · have hlead : v / 64 % 32 + 0xC0 < 256 := by omega
    have hopen := opened?_two _ hlead (by omega) (by omega)
    have hbits : (v / 64 % 32 + 0xC0) % 0x20 * 64 + v % 64 = v := by omega
    simp only [List.foldl_cons, List.foldl_nil]
    rw [push_opening (by omega) hlead hopen, push_last, hbits, hc]
  split
  · have hlead : v / 4096 % 16 + 0xE0 < 256 := by omega
    have hopen := opened?_three _ hlead (by omega) (by omega)
    have hbits : ((v / 4096 % 16 + 0xE0) % 0x10 * 64 + v / 64 % 64) * 64 + v % 64 = v := by omega
    simp only [List.foldl_cons, List.foldl_nil]
    rw [push_opening (by omega) hlead hopen, push_continuing, if_neg (by simp)]
    · simp only [Nat.reduceSub, push_last, hbits, hc]
    -- an encoding is never overlong, and the code of a character is never a surrogate
    · dsimp only
      split
      · show 0xA0 ≤ _
        omega
      · show 0x80 ≤ _
        omega
    · dsimp only
      split
      · show _ ≤ 0x9F
        omega
      · show _ ≤ 0xBF
        omega
  · have hlead : v / 262144 % 8 + 0xF0 < 256 := by omega
    have hopen := opened?_four _ hlead (by omega) (by omega)
    have hbits : (((v / 262144 % 8 + 0xF0) % 0x08 * 64 + v / 4096 % 64) * 64 + v / 64 % 64) * 64 +
        v % 64 = v := by omega
    simp only [List.foldl_cons, List.foldl_nil]
    rw [push_opening (by omega) hlead hopen, push_continuing, if_neg (by simp)]
    · simp only [Nat.reduceSub, push_middle, push_last, hbits, hc]
    · dsimp only
      split
      · show 0x90 ≤ _
        omega
      · show 0x80 ≤ _
        omega
    · dsimp only
      split
      · show _ ≤ 0x8F
        omega
      · show _ ≤ 0xBF
        omega

theorem decode_encode (text : List Char) : decode (encode text) = text := by
  suffices h : ∀ (before : List Char),
      (encode text).foldl Scan.push { text := before } = { text := text.reverse ++ before } by
    simp [decode, h, Scan.finish]
  induction text with
  | nil => intro before; rfl
  | cons c rest ih =>
      intro before
      rw [encode, List.flatMap_cons, List.foldl_append, foldl_push_encodeChar, ← encode, ih]
      simp

/-! ### Text up to a NUL -/

theorem ne_zero_of_mem_encodeChar {c : Char} (h : c ≠ '\x00') {b : UInt8}
    (hb : b ∈ String.utf8EncodeChar c) : b ≠ 0 := by
  have hv : c.val.toNat ≠ 0 := fun h0 => h (Char.toNat_inj.mp h0)
  have hrange := code_range c
  have hcode : c.val.toNat = c.toNat := rfl
  rw [hcode] at hv
  have hne : ∀ n, n ≠ 0 → n < 256 → UInt8.ofNat n ≠ 0 := by
    intro n hn hlt h0
    have := congrArg UInt8.toNat h0
    rw [UInt8.toNat_ofNat_of_lt' hlt] at this
    exact hn this
  unfold String.utf8EncodeChar at hb
  simp only [hcode] at hb
  split at hb
  · simp only [List.mem_cons, List.not_mem_nil, or_false] at hb
    exact hb ▸ hne _ hv (by omega)
  split at hb
  · simp only [List.mem_cons, List.not_mem_nil, or_false] at hb
    rcases hb with rfl | rfl <;> exact hne _ (by omega) (by omega)
  split at hb
  · simp only [List.mem_cons, List.not_mem_nil, or_false] at hb
    rcases hb with rfl | rfl | rfl <;> exact hne _ (by omega) (by omega)
  · simp only [List.mem_cons, List.not_mem_nil, or_false] at hb
    rcases hb with rfl | rfl | rfl | rfl <;> exact hne _ (by omega) (by omega)

theorem ne_zero_of_mem_encode {text : List Char} (h : '\x00' ∉ text) {b : UInt8}
    (hb : b ∈ encode text) : b ≠ 0 := by
  obtain ⟨c, hc, hbc⟩ := List.mem_flatMap.mp hb
  exact ne_zero_of_mem_encodeChar (fun h0 => h (h0 ▸ hc)) hbc

end Utf8

/-- Text without NUL is the text up to the first NUL behind it, or to the end. -/
theorem upToNul_encode_append (text : String) (h : '\x00' ∉ text.toList) {rest : List UInt8}
    (hrest : rest = [] ∨ rest.head? = some 0) :
    upToNul (Utf8.encode text.toList ++ rest) = text := by
  have hkept : ∀ b ∈ Utf8.encode text.toList, (b ≠ 0 : Bool) = true := fun b hb => by
    simpa using Utf8.ne_zero_of_mem_encode h hb
  have hcut : rest.takeWhile (· ≠ 0) = [] := by
    cases rest with
    | nil => rfl
    | cons b rest =>
        simp only [reduceCtorEq, List.head?_cons, Option.some.injEq, false_or] at hrest
        rw [List.takeWhile_cons_of_neg (by simp [hrest])]
  rw [upToNul, List.takeWhile_append_of_pos hkept, hcut, List.append_nil, Utf8.decode_encode,
    String.ofList_toList]

end MachImage.Text
