import Mathlib.Data.List.Infix
import Mathlib.Data.Nat.Find
import MachImage.Proofs.Text.Utf8

/-! # What is read of bytes that are no UTF-8

`Utf8.decode` scans any bytes and keeps going where they break off.  `Lossy` says what it
reads without a scan, in terms of the encodings of characters alone: a character is read
where its encoding stands, and elsewhere the longest part that could begin a character is
read as one `U+FFFD`, or a single byte where none could (`IsMaximalSubpart`).

The two agree on all bytes (`decode_eq_iff_lossy`).  An open sequence knows which bytes can
come next, since all that it admits complete a character (`Sequence.Completes`), and it
admits no fewer than those, since reading a character leaves just one character behind
(`Scan.count_foldl_of_prefix`). -/

namespace MachImage.Text.Utf8

/-! ### What lossy text is -/

/-- The bytes are the first ones of some character's encoding, or all of them. -/
def Begins (bytes : List UInt8) : Prop := ∃ c : Char, bytes <+: String.utf8EncodeChar c

/-- Where no character is encoded, the longest part that begins one; a byte that begins none
is such a part by itself. -/
structure IsMaximalSubpart (part rest : List UInt8) : Prop where
  ne_nil : part ≠ []
  no_character : ∀ c : Char, ¬ String.utf8EncodeChar c <+: part ++ rest
  begins_or_single : Begins part ∨ part.length = 1
  length_le : ∀ longer, longer <+: part ++ rest → Begins longer → longer.length ≤ part.length

/-- The text is what the bytes encode, with a replacement for every maximal subpart that
encodes nothing. -/
inductive Lossy : List UInt8 → List Char → Prop
  | nil : Lossy [] []
  | character (c : Char) {rest : List UInt8} {text : List Char} :
      Lossy rest text → Lossy (String.utf8EncodeChar c ++ rest) (c :: text)
  | replaced {part rest : List UInt8} {text : List Char} :
      IsMaximalSubpart part rest → Lossy rest text → Lossy (part ++ rest) (replacement :: text)

theorem Begins.of_prefix {part bytes : List UInt8} (h : Begins bytes) (hpart : part <+: bytes) :
    Begins part := by
  obtain ⟨c, hc⟩ := h
  exact ⟨c, hpart.trans hc⟩

/-! ### Encodings by their bytes -/

section encodings

variable {n x y z : ℕ}

theorem toNat_ofNat_of_range {v : ℕ} (h : v < 0xD800 ∨ 0xDFFF < v ∧ v < 0x110000) :
    (Char.ofNat v).val.toNat = v := by
  rw [Char.ofNat, dif_pos h]
  rfl

theorem encodeChar_one (h : n < 0x80) : String.utf8EncodeChar (Char.ofNat n) = [UInt8.ofNat n] := by
  have hv := toNat_ofNat_of_range (v := n) (by omega)
  unfold String.utf8EncodeChar
  simp only [hv]
  rw [if_pos (by omega)]

theorem encodeChar_two (hn : 0xC2 ≤ n) (hn' : n ≤ 0xDF) (hx : 0x80 ≤ x) (hx' : x ≤ 0xBF) :
    String.utf8EncodeChar (Char.ofNat (n % 0x20 * 64 + x % 64)) =
      [UInt8.ofNat n, UInt8.ofNat x] := by
  have hv := toNat_ofNat_of_range (v := n % 0x20 * 64 + x % 64) (by omega)
  have hlead : (n % 0x20 * 64 + x % 64) / 64 % 0x20 + 0xC0 = n := by omega
  have hlast : (n % 0x20 * 64 + x % 64) % 0x40 + 0x80 = x := by omega
  unfold String.utf8EncodeChar
  simp only [hv]
  rw [if_neg (by omega), if_pos (by omega), hlead, hlast]

/-- The second byte is kept apart from overlong forms and surrogates by the first one. -/
theorem encodeChar_three (hn : 0xE0 ≤ n) (hn' : n ≤ 0xEF) (hx : 0x80 ≤ x) (hx' : x ≤ 0xBF)
    (hlow : n = 0xE0 → 0xA0 ≤ x) (hhigh : n = 0xED → x ≤ 0x9F) (hy : 0x80 ≤ y) (hy' : y ≤ 0xBF) :
    String.utf8EncodeChar (Char.ofNat ((n % 0x10 * 64 + x % 64) * 64 + y % 64)) =
      [UInt8.ofNat n, UInt8.ofNat x, UInt8.ofNat y] := by
  have hv := toNat_ofNat_of_range (v := (n % 0x10 * 64 + x % 64) * 64 + y % 64) (by omega)
  have hlead : ((n % 0x10 * 64 + x % 64) * 64 + y % 64) / 4096 % 0x10 + 0xE0 = n := by omega
  have hmiddle : ((n % 0x10 * 64 + x % 64) * 64 + y % 64) / 64 % 0x40 + 0x80 = x := by omega
  have hlast : ((n % 0x10 * 64 + x % 64) * 64 + y % 64) % 0x40 + 0x80 = y := by omega
  unfold String.utf8EncodeChar
  simp only [hv]
  rw [if_neg (by omega), if_neg (by omega), if_pos (by omega), hlead, hmiddle, hlast]

theorem encodeChar_four (hn : 0xF0 ≤ n) (hn' : n ≤ 0xF4) (hx : 0x80 ≤ x) (hx' : x ≤ 0xBF)
    (hlow : n = 0xF0 → 0x90 ≤ x) (hhigh : n = 0xF4 → x ≤ 0x8F) (hy : 0x80 ≤ y) (hy' : y ≤ 0xBF)
    (hz : 0x80 ≤ z) (hz' : z ≤ 0xBF) :
    String.utf8EncodeChar
        (Char.ofNat (((n % 0x08 * 64 + x % 64) * 64 + y % 64) * 64 + z % 64)) =
      [UInt8.ofNat n, UInt8.ofNat x, UInt8.ofNat y, UInt8.ofNat z] := by
  have hv := toNat_ofNat_of_range
    (v := ((n % 0x08 * 64 + x % 64) * 64 + y % 64) * 64 + z % 64) (by omega)
  have hlead : (((n % 0x08 * 64 + x % 64) * 64 + y % 64) * 64 + z % 64) / 262144 % 0x08 + 0xF0 =
      n := by omega
  have hsecond : (((n % 0x08 * 64 + x % 64) * 64 + y % 64) * 64 + z % 64) / 4096 % 0x40 + 0x80 =
      x := by omega
  have hthird : (((n % 0x08 * 64 + x % 64) * 64 + y % 64) * 64 + z % 64) / 64 % 0x40 + 0x80 =
      y := by omega
  have hlast : (((n % 0x08 * 64 + x % 64) * 64 + y % 64) * 64 + z % 64) % 0x40 + 0x80 = z := by
    omega
  unfold String.utf8EncodeChar
  simp only [hv]
  rw [if_neg (by omega), if_neg (by omega), if_neg (by omega), hlead, hsecond, hthird, hlast]

end encodings

/-! ### Open sequences -/

/-- Whatever bytes an open sequence admits, they complete a character of which these are the
first bytes. -/
structure Sequence.Completes (q : Sequence) (part : List UInt8) : Prop where
  owed_pos : 0 < q.owed
  low_le_high : q.low ≤ q.high
  encoded : ∀ (b : UInt8) (tail : List UInt8), q.low ≤ b → b ≤ q.high →
    tail.length + 1 = q.owed → (∀ x ∈ tail, 0x80 ≤ x ∧ x ≤ 0xBF) →
      ∃ c : Char, String.utf8EncodeChar c = part ++ b :: tail

namespace Sequence

variable {q : Sequence} {part : List UInt8} {b : UInt8}

theorem completes_two (hlow : 0xC2 ≤ b.toNat) (hhigh : b.toNat ≤ 0xDF) (bits : ℕ) :
    Completes { bits, owed := 1 } [b] where
  owed_pos := Nat.one_pos
  low_le_high := (by decide : (0x80 : UInt8) ≤ 0xBF)
  encoded x tail hx hx' hlength _ := by
    obtain rfl : tail = [] := List.length_eq_zero_iff.mp (Nat.succ.inj hlength)
    have hc := encodeChar_two hlow hhigh (UInt8.le_iff_toNat_le.mp hx)
      (UInt8.le_iff_toNat_le.mp hx')
    simp only [UInt8.ofNat_toNat] at hc
    exact ⟨_, hc⟩

theorem completes_three (hb : 0xE0 ≤ b.toNat) (hb' : b.toNat ≤ 0xEF) (bits : ℕ)
    {low high : UInt8} (hbounds : 0x80 ≤ low ∧ low ≤ high ∧ high ≤ 0xBF)
    (hE0 : b.toNat = 0xE0 → 0xA0 ≤ low.toNat) (hED : b.toNat = 0xED → high.toNat ≤ 0x9F) :
    Completes { bits, owed := 2, low, high } [b] where
  owed_pos := Nat.two_pos
  low_le_high := hbounds.2.1
  encoded x tail hx hx' hlength htail := by
    obtain ⟨y, rfl⟩ := List.length_eq_one_iff.mp (Nat.succ.inj hlength)
    obtain ⟨hy, hy'⟩ := htail y List.mem_cons_self
    obtain ⟨hlow, -, hhigh⟩ := hbounds
    rw [UInt8.le_iff_toNat_le] at hlow hhigh hx hx' hy hy'
    dsimp only at hx hx'
    have hc := encodeChar_three hb hb' (hlow.trans hx) (hx'.trans hhigh)
      (fun h => (hE0 h).trans hx) (fun h => hx'.trans (hED h)) hy hy'
    simp only [UInt8.ofNat_toNat] at hc
    exact ⟨_, hc⟩

theorem completes_four (hb : 0xF0 ≤ b.toNat) (hb' : b.toNat ≤ 0xF4) (bits : ℕ)
    {low high : UInt8} (hbounds : 0x80 ≤ low ∧ low ≤ high ∧ high ≤ 0xBF)
    (hF0 : b.toNat = 0xF0 → 0x90 ≤ low.toNat) (hF4 : b.toNat = 0xF4 → high.toNat ≤ 0x8F) :
    Completes { bits, owed := 3, low, high } [b] where
  owed_pos := Nat.succ_pos 2
  low_le_high := hbounds.2.1
  encoded x tail hx hx' hlength htail := by
    obtain ⟨y, z, rfl⟩ := List.length_eq_two.mp (Nat.succ.inj hlength)
    obtain ⟨hy, hy'⟩ := htail y List.mem_cons_self
    obtain ⟨hz, hz'⟩ := htail z (List.mem_cons_of_mem y List.mem_cons_self)
    obtain ⟨hlow, -, hhigh⟩ := hbounds
    rw [UInt8.le_iff_toNat_le] at hlow hhigh hx hx' hy hy' hz hz'
    dsimp only at hx hx'
    have hc := encodeChar_four hb hb' (hlow.trans hx) (hx'.trans hhigh)
      (fun h => (hF0 h).trans hx) (fun h => hx'.trans (hF4 h)) hy hy' hz hz'
    simp only [UInt8.ofNat_toNat] at hc
    exact ⟨_, hc⟩

/-- A first byte opens a sequence that completes characters with this byte in front. -/
theorem completes_of_opened? (h : opened? b = some q) : q.Completes [b] := by
  unfold opened? at h
  simp only [UInt8.le_iff_toNat_le, ← UInt8.toNat_inj, UInt8.reduceToNat] at h
  split at h
  · cases h
    exact completes_two (by omega) (by omega) _
  split at h
  · cases h
    exact completes_three (by omega) (by omega) _ (by decide) (fun _ => by decide) (by omega)
  split at h
  · cases h
    exact completes_three (by omega) (by omega) _ (by decide) (by omega) (fun _ => by decide)
  split at h
  · cases h
    exact completes_three (by omega) (by omega) _ (by decide) (by omega) (by omega)
  split at h
  · cases h
    exact completes_four (by omega) (by omega) _ (by decide) (fun _ => by decide) (by omega)
  split at h
  · cases h
    exact completes_four (by omega) (by omega) _ (by decide) (by omega) (by omega)
  split at h
  · cases h
    exact completes_four (by omega) (by omega) _ (by decide) (by omega) (fun _ => by decide)
  · cases h

/-- Before the last byte of a character, a byte that is admitted leaves a sequence open. -/
theorem Completes.push (h : q.Completes part) (howed : 1 < q.owed) (hlow : q.low ≤ b)
    (hhigh : b ≤ q.high) :
    Completes { bits := q.bitsWith b, owed := q.owed - 1 } (part ++ [b]) where
  owed_pos := by
    dsimp only
    omega
  low_le_high := (by decide : (0x80 : UInt8) ≤ 0xBF)
  encoded x tail hx hx' hlength htail := by
    dsimp only at hx hx' hlength
    obtain ⟨c, hc⟩ := h.encoded b (x :: tail) hlow hhigh (by rw [List.length_cons]; omega)
      (List.forall_mem_cons.mpr ⟨⟨hx, hx'⟩, htail⟩)
    exact ⟨c, by rw [hc, List.append_assoc, List.singleton_append]⟩

/-- An admitted byte begins a character together with the bytes before it. -/
theorem Completes.begins (h : q.Completes part) (hlow : q.low ≤ b) (hhigh : b ≤ q.high) :
    Begins (part ++ [b]) := by
  have howed := h.owed_pos
  obtain ⟨c, hc⟩ := h.encoded b (List.replicate (q.owed - 1) 0x80) hlow hhigh
    (by rw [List.length_replicate]; omega) fun x hx => by
      obtain rfl := List.eq_of_mem_replicate hx
      decide
  refine ⟨c, List.replicate (q.owed - 1) 0x80, ?_⟩
  rw [hc, List.append_assoc, List.singleton_append]

end Sequence

/-! ### What a scan leaves behind -/

namespace Scan

/-- The characters of a scan, with an open sequence counted as one. -/
def count (s : Scan) : ℕ := s.text.length + if s.open?.isSome then 1 else 0

theorem count_first (s : Scan) (b : UInt8) : (s.first b).count = s.text.length + 1 := by
  unfold first count
  split
  · simp
  · cases Sequence.opened? b <;> simp

theorem count_push_of_none {s : Scan} (h : s.open? = none) (b : UInt8) :
    (s.push b).count = s.count + 1 := by
  simp only [push, h, count_first]
  simp [count, h]

theorem count_le_push (s : Scan) (b : UInt8) : s.count ≤ (s.push b).count := by
  cases h : s.open? with
  | none =>
      have hcount := count_push_of_none h b
      omega
  | some q =>
      simp only [push, h]
      split
      · split <;> simp [count, h]
      · rw [count_first]
        simp [count, h]

theorem count_le_foldl (s : Scan) (bytes : List UInt8) : s.count ≤ (bytes.foldl push s).count := by
  induction bytes generalizing s with
  | nil => exact Nat.le_refl _
  | cons b rest ih => exact (s.count_le_push b).trans (ih (s.push b))

/-- The first bytes of a character leave no more than one behind. -/
theorem count_foldl_of_prefix {c : Char} {part : List UInt8}
    (h : part <+: String.utf8EncodeChar c) (text : List Char) :
    (part.foldl push { text }).count ≤ text.length + 1 := by
  obtain ⟨rest, hrest⟩ := h
  have hwhole := foldl_push_encodeChar c text
  rw [← hrest, List.foldl_append] at hwhole
  have hcount := count_le_foldl (part.foldl push { text }) rest
  rwa [hwhole] at hcount

theorem first_append (s : Scan) (b : UInt8) (before : List Char) :
    first { s with text := s.text ++ before } b =
      { s.first b with text := (s.first b).text ++ before } := by
  unfold first
  split
  · rfl
  · cases Sequence.opened? b <;> rfl

/-- What has been read stays in front of what is read next. -/
theorem push_append (s : Scan) (b : UInt8) (before : List Char) :
    push { s with text := s.text ++ before } b =
      { s.push b with text := (s.push b).text ++ before } := by
  unfold push
  cases s.open? with
  | none => exact s.first_append b before
  | some q =>
      dsimp only
      split
      · split <;> rfl
      · exact first_append { text := replacement :: s.text } b before

theorem foldl_push_append (s : Scan) (bytes : List UInt8) (before : List Char) :
    bytes.foldl push { s with text := s.text ++ before } =
      { bytes.foldl push s with text := (bytes.foldl push s).text ++ before } := by
  induction bytes generalizing s with
  | nil => rfl
  | cons b rest ih => rw [List.foldl_cons, push_append, ih (s.push b), List.foldl_cons]

theorem finish_foldl_push (bytes : List UInt8) (text : List Char) :
    (bytes.foldl push { text }).finish = text.reverse ++ decode bytes := by
  have happend := foldl_push_append {} bytes text
  rw [List.nil_append] at happend
  rw [happend, decode]
  unfold finish
  cases (bytes.foldl push {}).open? <;> simp

end Scan

/-! ### Parts that encode nothing -/

theorem begins_singleton {b : UInt8} (h : b < 0x80 ∨ (Sequence.opened? b).isSome) :
    Begins [b] := by
  rcases h with hascii | hopened
  · have hc := encodeChar_one (UInt8.lt_iff_toNat_lt.mp hascii)
    rw [UInt8.ofNat_toNat] at hc
    exact ⟨_, by rw [hc]⟩
  · obtain ⟨q, hq⟩ := Option.isSome_iff_exists.mp hopened
    have hcompletes := Sequence.completes_of_opened? hq
    have hnext := hcompletes.begins (UInt8.le_refl q.low) hcompletes.low_le_high
    exact hnext.of_prefix (List.prefix_append [b] [q.low])

theorem push_of_not_begins {b : UInt8} (h : ¬ Begins [b]) (text : List Char) :
    Scan.push { text } b = { text := replacement :: text } := by
  have hascii : ¬ b < 0x80 := fun hlt => h (begins_singleton (.inl hlt))
  have hclosed : Sequence.opened? b = none := by
    rw [← Option.not_isSome_iff_eq_none]
    exact fun hopened => h (begins_singleton (.inr hopened))
  simp only [Scan.push, Scan.first, hascii, if_false, hclosed]

theorem exists_open_of_first {b : UInt8} (hbegins : Begins [b])
    (hnone : ∀ c : Char, String.utf8EncodeChar c ≠ [b]) (text : List Char) :
    ∃ q : Sequence, q.Completes [b] ∧ Scan.push { text } b = { open? := some q, text } := by
  have hascii : ¬ b < 0x80 := by
    intro hlt
    have hc := encodeChar_one (UInt8.lt_iff_toNat_lt.mp hlt)
    rw [UInt8.ofNat_toNat] at hc
    exact hnone _ hc
  cases hopened : Sequence.opened? b with
  | some q =>
      refine ⟨q, Sequence.completes_of_opened? hopened, ?_⟩
      simp only [Scan.push, Scan.first, hascii, if_false, hopened]
  | none =>
      -- a byte that is replaced leaves one character behind, and the next byte another
      exfalso
      have hreplaced : Scan.push { text } b = { text := replacement :: text } := by
        simp only [Scan.push, Scan.first, hascii, if_false, hopened]
      obtain ⟨c, tail, hc⟩ := hbegins
      cases tail with
      | nil => exact hnone c hc.symm
      | cons next tail =>
          have htwo : [b, next] <+: String.utf8EncodeChar c := ⟨tail, hc⟩
          have hcount := Scan.count_foldl_of_prefix htwo text
          rw [List.foldl_cons, List.foldl_cons, List.foldl_nil, hreplaced,
            Scan.count_push_of_none rfl] at hcount
          simp only [Scan.count, List.length_cons] at hcount
          omega

/-- A byte that goes on with a character without ending it is admitted, and leaves a sequence
open. -/
theorem exists_open_of_next {part : List UInt8} {b : UInt8} {q : Sequence} {text : List Char}
    (hq : q.Completes part) (hrun : part.foldl Scan.push { text } = { open? := some q, text })
    (hbegins : Begins (part ++ [b]))
    (hnone : ∀ c : Char, String.utf8EncodeChar c ≠ part ++ [b]) :
    ∃ q' : Sequence, q'.Completes (part ++ [b]) ∧
      Scan.push { open? := some q, text } b = { open? := some q', text } := by
  by_cases hin : q.low ≤ b ∧ b ≤ q.high
  · have howed : 1 < q.owed := by
      by_contra hlast
      have hpos := hq.owed_pos
      obtain ⟨c, hc⟩ := hq.encoded b [] hin.1 hin.2 (by rw [List.length_nil]; omega) nofun
      exact hnone c hc
    refine ⟨_, hq.push howed hin.1 hin.2, ?_⟩
    simp only [Scan.push, hin, and_self, if_true, Nat.not_le.mpr howed, if_false]
  · -- a byte that is not admitted leaves a replacement and something of its own behind
    exfalso
    obtain ⟨c, hc⟩ := hbegins
    have hcount := Scan.count_foldl_of_prefix hc text
    rw [List.foldl_append, hrun, List.foldl_cons, List.foldl_nil] at hcount
    simp only [Scan.push, hin, if_false, Scan.count_first, List.length_cons] at hcount
    omega

theorem exists_open_of_begins {part : List UInt8} (hne : part ≠ []) (hbegins : Begins part)
    (hnone : ∀ c : Char, ¬ String.utf8EncodeChar c <+: part) (text : List Char) :
    ∃ q : Sequence, q.Completes part ∧
      part.foldl Scan.push { text } = { open? := some q, text } := by
  induction part using List.reverseRecOn with
  | nil => exact absurd rfl hne
  | append_singleton part b ih =>
      have hwhole : ∀ c : Char, String.utf8EncodeChar c ≠ part ++ [b] := fun c hc =>
        hnone c (by rw [hc])
      rw [List.foldl_append, List.foldl_cons, List.foldl_nil]
      by_cases hfirst : part = []
      · subst hfirst
        exact exists_open_of_first hbegins hwhole text
      · have hpart : part <+: part ++ [b] := List.prefix_append part [b]
        obtain ⟨q, hq, hrun⟩ := ih hfirst (hbegins.of_prefix hpart) fun c hc =>
          hnone c (hc.trans hpart)
        rw [hrun]
        exact exists_open_of_next hq hrun hbegins hwhole

/-! ### Decoding -/

/-- A character is read where its encoding stands. -/
theorem decode_encodeChar_append (c : Char) (rest : List UInt8) :
    decode (String.utf8EncodeChar c ++ rest) = c :: decode rest := by
  rw [decode, List.foldl_append, foldl_push_encodeChar, Scan.finish_foldl_push]
  rfl

/-- A maximal subpart is read as one replacement, and what follows as if it came first. -/
theorem decode_maximalSubpart_append {part rest : List UInt8} (h : IsMaximalSubpart part rest) :
    decode (part ++ rest) = replacement :: decode rest := by
  by_cases hbegins : Begins part
  · have hnone : ∀ c : Char, ¬ String.utf8EncodeChar c <+: part := fun c hc =>
      h.no_character c (hc.trans (List.prefix_append part rest))
    obtain ⟨q, hq, hrun⟩ := exists_open_of_begins h.ne_nil hbegins hnone []
    rw [decode, List.foldl_append, hrun]
    cases rest with
    | nil => rfl
    | cons b rest =>
        -- the next byte is not admitted, or the part would not be the longest
        have hout : ¬ (q.low ≤ b ∧ b ≤ q.high) := by
          intro hin
          have hlength := h.length_le (part ++ [b]) ⟨rest, by simp⟩ (hq.begins hin.1 hin.2)
          rw [List.length_append, List.length_singleton] at hlength
          omega
        have hpush : Scan.push { open? := some q, text := [] } b =
            Scan.push { text := [replacement] } b := by
          simp only [Scan.push, hout, if_false]
        rw [List.foldl_cons, hpush, ← List.foldl_cons, Scan.finish_foldl_push]
        rfl
  · obtain ⟨b, rfl⟩ := List.length_eq_one_iff.mp (h.begins_or_single.resolve_left hbegins)
    rw [decode, List.foldl_append, List.foldl_cons, List.foldl_nil, push_of_not_begins hbegins,
      Scan.finish_foldl_push]
    rfl

theorem exists_maximalSubpart {bytes : List UInt8} (hne : bytes ≠ [])
    (hnone : ∀ c : Char, ¬ String.utf8EncodeChar c <+: bytes) :
    ∃ part rest, bytes = part ++ rest ∧ IsMaximalSubpart part rest := by
  classical
  have hpos : 0 < bytes.length := List.length_pos_of_ne_nil hne
  -- the longest prefix that begins a character, the empty one at least
  let length := Nat.findGreatest (fun k => Begins (bytes.take k)) bytes.length
  have hle : length ≤ bytes.length := Nat.findGreatest_le _
  have hbegins : Begins (bytes.take length) :=
    Nat.findGreatest_spec (P := fun k => Begins (bytes.take k)) (Nat.zero_le _)
      ⟨'a', by rw [List.take_zero]; exact List.nil_prefix⟩
  have hgreatest : ∀ longer, longer <+: bytes → Begins longer → longer.length ≤ length := by
    intro longer hprefix hlonger
    refine Nat.le_findGreatest hprefix.length_le ?_
    rwa [← List.prefix_iff_eq_take.mp hprefix]
  refine ⟨bytes.take (max length 1), bytes.drop (max length 1),
    (List.take_append_drop _ _).symm, ?_⟩
  have hsize : (bytes.take (max length 1)).length = max length 1 := by
    rw [List.length_take]
    omega
  constructor
  case ne_nil =>
    intro hnil
    rw [hnil, List.length_nil] at hsize
    omega
  case no_character => rwa [List.take_append_drop]
  case begins_or_single =>
    by_cases hzero : length = 0
    · right
      rw [hsize, hzero]
      rfl
    · left
      rwa [Nat.max_eq_left (by omega)]
  case length_le =>
    intro longer hprefix hlonger
    rw [List.take_append_drop] at hprefix
    have hlength := hgreatest longer hprefix hlonger
    omega

theorem exists_lossy (bytes : List UInt8) : ∃ text, Lossy bytes text := by
  induction hlength : bytes.length using Nat.strong_induction_on generalizing bytes with
  | _ length ih =>
      by_cases hne : bytes = []
      · exact ⟨[], hne ▸ .nil⟩
      by_cases hcharacter : ∃ c : Char, String.utf8EncodeChar c <+: bytes
      · obtain ⟨c, rest, rfl⟩ := hcharacter
        have hpos := String.length_utf8EncodeChar c ▸ Char.utf8Size_pos c
        obtain ⟨text, htext⟩ := ih rest.length
          (by rw [← hlength, List.length_append]; omega) rest rfl
        exact ⟨c :: text, .character c htext⟩
      · obtain ⟨part, rest, rfl, hpart⟩ := exists_maximalSubpart hne (not_exists.mp hcharacter)
        have hpos := List.length_pos_of_ne_nil hpart.ne_nil
        obtain ⟨text, htext⟩ := ih rest.length
          (by rw [← hlength, List.length_append]; omega) rest rfl
        exact ⟨replacement :: text, .replaced hpart htext⟩

theorem decode_of_lossy {bytes : List UInt8} {text : List Char} (h : Lossy bytes text) :
    decode bytes = text := by
  induction h with
  | nil => rfl
  | character c _ ih => rw [decode_encodeChar_append, ih]
  | replaced hpart _ ih => rw [decode_maximalSubpart_append hpart, ih]

theorem decode_eq_iff_lossy {bytes : List UInt8} {text : List Char} :
    decode bytes = text ↔ Lossy bytes text := by
  refine ⟨?_, decode_of_lossy⟩
  rintro rfl
  obtain ⟨text, htext⟩ := exists_lossy bytes
  rwa [decode_of_lossy htext]

end MachImage.Text.Utf8
