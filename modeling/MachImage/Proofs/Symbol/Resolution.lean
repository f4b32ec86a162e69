import Mathlib.Data.List.Forall2
import MachImage.Proofs.Slice.Names
import MachImage.Proofs.Text.Lossy

/-! # Exact names

Which name a symbol is given, in terms of the bytes of the string table: the index says
where it starts, `NameEndsAt` where it stops, and `Utf8.Lossy` what those bytes are as text.
`SymbolTable.each_isNamedBy` puts this together for whole tables, whose indices are any
numbers at all.  No symbol depends on another one, so indices can repeat, and they can point
into the middle of a string that some other symbol is named by. -/

namespace MachImage

open Text

/-! ### Where names stop -/

/-- The name that starts at `start` stops before `stop`: at the first NUL, or at the end of
the strings where no NUL follows. -/
structure NameEndsAt (strings : Array UInt8) (start stop : ℕ) : Prop where
  start_le : start ≤ stop
  le_size : stop ≤ strings.size
  no_nul : ∀ i, start ≤ i → i < stop → strings[i]? ≠ some 0
  nul_or_end : strings[stop]? = some 0 ∨ stop = strings.size

namespace NameEndsAt

variable {strings : Array UInt8} {start stop stop' : ℕ}

theorem le_of_both (h : NameEndsAt strings start stop) (h' : NameEndsAt strings start stop') :
    stop ≤ stop' := by
  by_contra hlt
  rcases h'.nul_or_end with hnul | hend
  · exact h.no_nul stop' h'.start_le (by omega) hnul
  · have hle := h.le_size
    omega

theorem unique (h : NameEndsAt strings start stop) (h' : NameEndsAt strings start stop') :
    stop = stop' :=
  Nat.le_antisymm (h.le_of_both h') (h'.le_of_both h)

theorem of_nul (h : strings[start]? = some 0) : NameEndsAt strings start start where
  start_le := Nat.le_refl start
  le_size := by
    obtain ⟨hlt, _⟩ := Array.getElem?_eq_some_iff.mp h
    omega
  no_nul i hle hlt := by omega
  nul_or_end := .inl h

theorem of_succ (h : NameEndsAt strings (start + 1) stop) (hne : strings[start]? ≠ some 0) :
    NameEndsAt strings start stop where
  start_le := by
    have hle := h.start_le
    omega
  le_size := h.le_size
  no_nul i hle hlt := by
    rcases Nat.eq_or_lt_of_le hle with rfl | hsucc
    · exact hne
    · exact h.no_nul i hsucc hlt
  nul_or_end := h.nul_or_end

theorem nulPosition (strings : Array UInt8) (start count : ℕ)
    (h : start + count = strings.size) :
    NameEndsAt strings start (nulPosition strings start count) := by
  induction count generalizing start with
  | zero =>
      constructor
      case start_le => exact Nat.le_refl start
      case le_size => exact h.le
      case no_nul =>
        intro i hle (hlt : i < start)
        omega
      case nul_or_end => exact .inr h
  | succ count ih =>
      rw [MachImage.nulPosition]
      split
      case isTrue hnul => exact of_nul hnul
      case isFalse hne => exact (ih (start + 1) (by omega)).of_succ hne

theorem takeWhile_extract (h : NameEndsAt strings start stop) :
    (strings.extract start stop).toList.takeWhile (· ≠ 0) =
      (strings.extract start stop).toList := by
  rw [List.takeWhile_eq_self_iff]
  intro b hb
  obtain ⟨k, hk, rfl⟩ := List.getElem_of_mem hb
  rw [Array.length_toList, Array.size_extract] at hk
  have hinside : start + k < strings.size := by omega
  have hne := h.no_nul (start + k) (by omega) (by omega)
  rw [Array.getElem?_eq_getElem hinside] at hne
  simpa using hne

/-- The name itself is the lossy text of the bytes between its ends. -/
theorem nameAt?_eq_some (h : NameEndsAt strings start stop) (hlt : start < strings.size) :
    nameAt? strings start =
      some (String.ofList (Utf8.decode (strings.extract start stop).toList)) := by
  have hstop := (nulPosition strings start (strings.size - start) (by omega)).unique h
  rw [nameAt?, if_pos hlt]
  dsimp only
  rw [hstop, upToNul, h.takeWhile_extract]

end NameEndsAt

/-! ### What names symbols have -/

/-- The symbol `s'` is `s` with the name that the strings hold at its index. -/
structure Symbol.IsNamedBy (strings : Array UInt8) (s s' : Symbol) : Prop where
  unnamed_eq : s'.unnamed = s.unnamed
  /-- An index inside the strings is resolved, to the text up to where the name stops. -/
  resolved : s.index.toNat < strings.size →
    s'.isResolved = true ∧ ∃ stop, NameEndsAt strings s.index.toNat stop ∧
      Utf8.Lossy (strings.extract s.index.toNat stop).toList s'.name.toList
  /-- An index that points at a NUL is resolved as well. -/
  empty_at_nul : strings[s.index.toNat]? = some 0 → s'.isResolved = true ∧ s'.name = ""
  /-- An index past the strings leaves the symbol without a name. -/
  unresolved : strings.size ≤ s.index.toNat → s.isResolved = false →
    s'.isResolved = false ∧ s'.name = ""

namespace Symbol

variable {strings : Array UInt8} {s : Symbol} {stop : ℕ}

theorem name?_named_of_endsAt (h : NameEndsAt strings s.index.toNat stop)
    (hlt : s.index.toNat < strings.size) :
    (s.named strings).name? =
      some (String.ofList (Utf8.decode (strings.extract s.index.toNat stop).toList)) :=
  h.nameAt?_eq_some hlt

theorem isNamedBy_named (strings : Array UInt8) (s : Symbol) :
    s.IsNamedBy strings (s.named strings) := by
  constructor
  case unnamed_eq => exact unnamed_named strings s
  case resolved =>
    intro hlt
    have hend := NameEndsAt.nulPosition strings s.index.toNat (strings.size - s.index.toNat)
      (by omega)
    have hname := name?_named_of_endsAt hend hlt
    refine ⟨by rw [isResolved, hname]; rfl, _, hend, ?_⟩
    rw [name, hname, Option.getD_some, String.toList_ofList]
    exact Utf8.decode_eq_iff_lossy.mp rfl
  case empty_at_nul =>
    intro hnul
    obtain ⟨hlt, _⟩ := Array.getElem?_eq_some_iff.mp hnul
    have hname := name?_named_of_endsAt (.of_nul hnul) hlt
    rw [Array.extract_eq_empty_of_le (by omega)] at hname
    rw [isResolved, name, hname]
    exact ⟨rfl, rfl⟩
  case unresolved =>
    intro hge _
    have hname : (s.named strings).name? = none := if_neg (Nat.not_lt.mpr hge)
    rw [isResolved, name, hname]
    exact ⟨rfl, rfl⟩

end Symbol

/-- **Names are exact.**  Every symbol is given the name that the strings hold at its own
index.  The table keeps its symbols in their order, and nothing else about them changes. -/
theorem SymbolTable.each_isNamedBy (table : SymbolTable) (strings : Array UInt8) :
    List.Forall₂ (Symbol.IsNamedBy strings) table.symbols.toList
      (table.named strings).symbols.toList := by
  rw [named, Array.toList_map, List.forall₂_map_right_iff, List.forall₂_same]
  intro s _
  exact s.isNamedBy_named strings

/-- A string, the middle of it twice, a NUL, bytes that are no UTF-8 and end without a NUL,
the last one of them, the end of the strings, and the largest index. -/
example :
    ((SymbolTable.named ⟨#[0, 1, 1, 2, 3, 6, 7, 0xFFFFFFFF].map ({ index := ·, value := 9 })⟩
      #[0x61, 0x62, 0, 0xE2, 0x82, 0x63, 0xF0]).symbols.map Symbol.name?) =
    #[some "ab", some "b", some "b", some "", some "\uFFFDc\uFFFD", some "\uFFFD", none, none] := by
  decide +kernel

end MachImage
