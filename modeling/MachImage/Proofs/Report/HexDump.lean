import Mathlib.Algebra.Order.Floor.Div
import Mathlib.Data.List.Forall2
import MachImage.Proofs.CommandLine.Console

/-! # Reading a hexadecimal dump

The dump of a section shows its bytes twice, sixteen to a line: as groups of two digits and as
characters.  This module reads the lines of a dump by their columns.  `addressColumn`,
`hexColumn` and `textColumn` stand at the same places in every line, `hexValue?` reads digits
as a number, and `hexGroups?` reads groups of two digits with blanks between and behind them.

Nothing of a section is lost in a dump of it (`IsDump`): there are as many lines as are needed,
each tells the address of its first byte and has one character for every byte, and the groups
of all lines together are the bytes of the section.  The lines that are printed below the line
of a section are a dump of it (`CommandLine.printed_dump`). -/

namespace MachImage

open Text

namespace Report

/-! ### Reading digits -/

/-- The value of a hexadecimal digit: how many digits come before it. -/
def hexDigit? (c : Char) : Option ℕ := "0123456789abcdef".toList.idxOf? c

/-- The number that hexadecimal digits write, the highest digit first. -/
def hexValue? (digits : List Char) : Option ℕ :=
  digits.foldlM (fun n c => (hexDigit? c).map (16 * n + ·)) 0

/-- The bytes that groups of two hexadecimal digits write.  Blanks in front of a group and
behind the last one are passed over. -/
def hexGroups? : List Char → Option (List UInt8)
  | [] => some []
  | ' ' :: rest => hexGroups? rest
  | [_] => none
  | high :: low :: rest => do
    let value ← hexValue? [high, low]
    let bytes ← hexGroups? rest
    return UInt8.ofNat value :: bytes

theorem hexDigit?_digitChar {n : ℕ} (h : n < 16) : hexDigit? n.digitChar = some n := by
  have hall : ∀ n : Fin 16, hexDigit? n.val.digitChar = some n.val := by decide
  exact hall ⟨n, h⟩

theorem hexValue?_append_singleton (digits : List Char) (c : Char) :
    hexValue? (digits ++ [c]) =
      (hexValue? digits).bind fun n => (hexDigit? c).map (16 * n + ·) := by
  simp [hexValue?, List.foldlM_append]

theorem hexValue?_toDigits (n : ℕ) : hexValue? (Nat.toDigits 16 n) = some n := by
  -- The last digit is taken off, as it is the one that is read last.
  induction n using Nat.strongRecOn with
  | _ n ih =>
      by_cases hn : n < 16
      · rw [Nat.toDigits_of_lt_base hn, ← List.nil_append [_], hexValue?_append_singleton,
          hexDigit?_digitChar hn]
        simp [hexValue?]
      · have hlow : n % 16 < 16 := Nat.mod_lt n (by decide)
        have hsplit := Nat.toDigits_append_toDigits (b := 16) (n := n / 16) (d := n % 16)
          (by decide) (by omega) hlow
        rw [Nat.div_add_mod, Nat.toDigits_of_lt_base hlow] at hsplit
        rw [← hsplit, hexValue?_append_singleton, ih (n / 16) (by omega),
          hexDigit?_digitChar hlow]
        simp [Nat.div_add_mod]

/-- Zeros in front change no number. -/
theorem hexValue?_replicate_append (k : ℕ) (digits : List Char) :
    hexValue? (List.replicate k '0' ++ digits) = hexValue? digits := by
  induction k with
  | zero => rfl
  | succ k ih => rw [List.replicate_succ, List.cons_append, ← ih]; rfl

theorem hexValue?_hexPadded (width n : ℕ) : hexValue? (hexPadded width n).toList = some n := by
  rw [hexPadded, padLeft, String.toList_append, String.toList_ofList,
    hexValue?_replicate_append, hex, String.toList_ofList, hexValue?_toDigits]

theorem length_hexPadded {width n : ℕ} (hwidth : 0 < width) (hn : n < 16 ^ width) :
    (hexPadded width n).toList.length = width := by
  have hlength := (Nat.length_toDigits_le_iff (by decide : 1 < 16) hwidth).mpr hn
  rw [hexPadded, padLeft, String.toList_append, String.toList_ofList, List.length_append,
    List.length_replicate, hex, String.length_ofList, String.toList_ofList]
  omega

/-! ### Groups of digits -/

theorem hexGroups?_of_value {high low : Char} {value : ℕ} (h : hexValue? [high, low] = some value)
    (rest : List Char) :
    hexGroups? (high :: low :: rest) = (hexGroups? rest).map (UInt8.ofNat value :: ·) := by
  have hblank : high ≠ ' ' := by
    rintro rfl
    cases h
  rw [hexGroups?, h]
  · cases hexGroups? rest <;> rfl
  · exact fun heq => hblank heq

theorem hexGroups?_hexByte_append (b : UInt8) (rest : List Char) :
    hexGroups? ((hexByte b).toList ++ rest) = (hexGroups? rest).map (b :: ·) := by
  have hlength : (hexByte b).toList.length = 2 := length_hexPadded (by decide) b.toNat_lt
  have hvalue : hexValue? (hexByte b).toList = some b.toNat := hexValue?_hexPadded 2 b.toNat
  obtain ⟨high, low, hpair⟩ := List.length_eq_two.mp hlength
  rw [hpair] at hvalue ⊢
  rw [List.cons_append, List.cons_append, List.nil_append, hexGroups?_of_value hvalue,
    UInt8.ofNat_toNat]

theorem hexGroups?_replicate (k : ℕ) : hexGroups? (List.replicate k ' ') = some [] := by
  induction k with
  | zero => rfl
  | succ k ih => rw [List.replicate_succ, hexGroups?, ih]

/-- Between two groups stands a blank. -/
theorem toList_intercalate_hexByte_cons (b c : UInt8) (rest : List UInt8) :
    (" ".intercalate ((b :: c :: rest).map hexByte)).toList =
      (hexByte b).toList ++ ' ' :: (" ".intercalate ((c :: rest).map hexByte)).toList := by
  simp

theorem hexGroups?_intercalate_append (bytes : List UInt8) (rest : List Char) :
    hexGroups? ((" ".intercalate (bytes.map hexByte)).toList ++ rest) =
      (hexGroups? rest).map (bytes ++ ·) := by
  induction bytes with
  | nil => simp
  | cons b bytes ih =>
      cases bytes with
      | nil =>
          have hsingle : (" ".intercalate ([b].map hexByte)).toList = (hexByte b).toList := by
            simp
          rw [hsingle, hexGroups?_hexByte_append]
          rfl
      | cons c bytes =>
          -- The blank behind the first group is passed over.
          rw [toList_intercalate_hexByte_cons, List.append_assoc, hexGroups?_hexByte_append,
            List.cons_append, hexGroups?, ih, Option.map_map]
          rfl

theorem length_intercalate_hexByte (bytes : List UInt8) :
    (" ".intercalate (bytes.map hexByte)).toList.length = 3 * bytes.length - 1 := by
  have hbyte (b : UInt8) : (hexByte b).toList.length = 2 :=
    length_hexPadded (by decide) b.toNat_lt
  induction bytes with
  | nil => simp
  | cons b bytes ih =>
      cases bytes with
      | nil => simp [hbyte]
      | cons c bytes =>
          rw [toList_intercalate_hexByte_cons, List.length_append, List.length_cons, ih, hbyte]
          simp only [List.length_cons]
          omega

/-! ### Columns -/

/-- The digits of the address, behind four blanks. -/
def addressColumn (line : String) : List Char := (line.toList.drop 4).take 16

/-- The groups of digits, behind two blanks more. -/
def hexColumn (line : String) : List Char := (line.toList.drop 22).take 47

/-- The characters, behind two blanks more. -/
def textColumn (line : String) : List Char := line.toList.drop 71

/-- The character is the byte itself, if it is one of visible ASCII or the blank, and a point
otherwise. -/
def StandsFor (c : Char) (b : UInt8) : Prop :=
  if 0x20 ≤ b.toNat ∧ b.toNat ≤ 0x7E then c.toNat = b.toNat else c = '.'

/-- The line shows these bytes and the address of the first of them: its columns have their
widths and nothing but blanks between them, the digits of the address write it, the groups of
digits write the bytes, and the characters stand for them one by one. -/
structure Shows (line : String) (start : ℕ) (bytes : List UInt8) : Prop where
  columns : line.toList = List.replicate 4 ' ' ++ addressColumn line ++ List.replicate 2 ' ' ++
    hexColumn line ++ List.replicate 2 ' ' ++ textColumn line
  length_address : (addressColumn line).length = 16
  length_hex : (hexColumn line).length = 47
  address : hexValue? (addressColumn line) = some start
  groups : hexGroups? (hexColumn line) = some bytes
  characters : List.Forall₂ StandsFor (textColumn line) bytes

theorem columns_of_toList {line : String} {address groups text : List Char}
    (h : line.toList = List.replicate 4 ' ' ++ address ++ List.replicate 2 ' ' ++ groups ++
      List.replicate 2 ' ' ++ text)
    (haddress : address.length = 16) (hgroups : groups.length = 47) :
    addressColumn line = address ∧ hexColumn line = groups ∧ textColumn line = text := by
  have hbehind : address.drop 67 = [] := List.drop_eq_nil_of_le (by omega)
  have hbehind' : groups.drop 49 = [] := List.drop_eq_nil_of_le (by omega)
  simp [addressColumn, hexColumn, textColumn, h, List.drop_append, List.take_append, haddress,
    hgroups, hbehind, hbehind']

namespace HexRow

variable {row : HexRow} {start : Address} {bytes : Array UInt8}

theorem standsFor_shown (b : UInt8) : StandsFor (shown b) b := by
  have hvalid : b.toNat.isValidChar := .inl (by have := b.toNat_lt; omega)
  have hvisible : (0x20 ≤ b ∧ b ≤ 0x7E) ↔ 0x20 ≤ b.toNat ∧ b.toNat ≤ 0x7E := by
    rw [UInt8.le_iff_toNat_le, UInt8.le_iff_toNat_le]
    rfl
  unfold StandsFor shown
  split
  · next h =>
      rw [if_pos (hvisible.mpr h), Char.ofNat, dif_pos hvalid]
      rfl
  · next h => rw [if_neg fun hb => h (hvisible.mp hb)]

theorem length_padRight_digits (h : row.bytes.length ≤ 16) :
    (padRight 47 row.digits).toList.length = 47 := by
  have hdigits : row.digits.toList.length ≤ 47 := by
    rw [digits, length_intercalate_hexByte]
    omega
  rw [String.length_toList] at hdigits
  simp only [padRight, String.toList_append, String.toList_ofList, List.length_append,
    List.length_replicate, String.length_toList]
  omega

theorem shows_line (h : row.bytes.length ≤ 16) :
    Shows row.line row.address.value.toNat row.bytes := by
  have hline : row.line.toList = List.replicate 4 ' ' ++
      (hexPadded 16 row.address.value.toNat).toList ++ List.replicate 2 ' ' ++
      (padRight 47 row.digits).toList ++ List.replicate 2 ' ' ++ row.characters.toList := by
    simp only [line, String.toList_append]
    rfl
  have haddress : (hexPadded 16 row.address.value.toNat).toList.length = 16 :=
    length_hexPadded (by decide) row.address.value.toNat_lt
  have hgroups := length_padRight_digits h
  obtain ⟨hfirst, hsecond, hthird⟩ := columns_of_toList hline haddress hgroups
  refine ⟨?_, ?_, ?_, ?_, ?_, ?_⟩
  · rw [hfirst, hsecond, hthird, hline]
  · rw [hfirst, haddress]
  · rw [hsecond, hgroups]
  · rw [hfirst, hexValue?_hexPadded]
  · rw [hsecond, padRight, String.toList_append, String.toList_ofList, digits,
      hexGroups?_intercalate_append, hexGroups?_replicate, Option.map_some, List.append_nil]
  · rw [hthird, characters, String.toList_ofList, List.forall₂_map_left_iff]
    exact List.forall₂_same.mpr fun b _ => standsFor_shown b

/-! ### Rows -/

/-- The row that starts at the byte `16 * position`. -/
def atPosition (start : Address) (bytes : Array UInt8) (position : ℕ) : HexRow :=
  { address := start.advance (UInt64.ofNat (16 * position))
    bytes := (bytes.extract (16 * position) (16 * position + 16)).toList }

theorem ofBytes_eq (start : Address) (bytes : Array UInt8) :
    ofBytes start bytes = (List.range (bytes.size ⌈/⌉ 16)).map (atPosition start bytes) := by
  rw [Nat.ceilDiv_eq_add_pred_div]
  rfl

theorem bytes_atPosition (position : ℕ) :
    (atPosition start bytes position).bytes = (bytes.toList.drop (16 * position)).take 16 := by
  rw [atPosition, Array.toList_extract, List.extract_eq_take_drop, Nat.add_sub_cancel_left]

theorem address_atPosition (position : ℕ) :
    (atPosition start bytes position).address.value.toNat =
      (start.value.toNat + 16 * position) % 2 ^ 64 := by
  simp [atPosition, Address.advance, UInt64.toNat_add, UInt64.toNat_ofNat']

theorem shows_atPosition (position : ℕ) :
    Shows (atPosition start bytes position).line ((start.value.toNat + 16 * position) % 2 ^ 64)
      ((bytes.toList.drop (16 * position)).take 16) := by
  rw [← @address_atPosition start bytes position, ← @bytes_atPosition start bytes position]
  refine shows_line ?_
  rw [bytes_atPosition, List.length_take]
  exact Nat.min_le_left _ _

theorem flatMap_take_drop {α : Type} (k : ℕ) (l : List α) (n : ℕ) :
    (List.range n).flatMap (fun position => (l.drop (k * position)).take k) =
      l.take (k * n) := by
  induction n with
  | zero => simp
  | succ n ih =>
      rw [List.range_succ, List.flatMap_append, ih, Nat.mul_succ, List.take_add]
      simp

end HexRow

/-- The lines are a dump from which the section can be read back.  There is a line for each
sixteen bytes and one for the rest.  Every line shows the sixteen bytes at its place, or what is
left of them in the last one, and the address of the first of them, which starts over at the end
of the address space.  Read line by line, the groups of digits are the bytes of the section. -/
structure IsDump (s : Section) (rows : List String) : Prop where
  length_eq : rows.length = s.data.size ⌈/⌉ 16
  shows : ∀ (position : ℕ) (h : position < rows.length),
    Shows rows[position] ((s.address.value.toNat + 16 * position) % 2 ^ 64)
      ((s.data.toList.drop (16 * position)).take 16)
  groups : (rows.mapM fun row => hexGroups? (hexColumn row)).map List.flatten =
    some s.data.toList

theorem isDump_dump (s : Section) : IsDump s (dump s) := by
  have hdump : dump s = (List.range (s.data.size ⌈/⌉ 16)).map fun position =>
      (HexRow.atPosition s.address s.data position).line := by
    rw [dump, HexRow.ofBytes_eq, List.map_map]
    rfl
  refine ⟨by rw [hdump, List.length_map, List.length_range], fun position h => ?_, ?_⟩
  · simp only [hdump, List.getElem_map, List.getElem_range]
    exact HexRow.shows_atPosition position
  · have hread (position : ℕ) :
        hexGroups? (hexColumn (HexRow.atPosition s.address s.data position).line) =
          pure ((s.data.toList.drop (16 * position)).take 16) :=
      (HexRow.shows_atPosition position).groups
    have hsize : s.data.toList.length ≤ 16 * (s.data.size ⌈/⌉ 16) := by
      rw [Nat.ceilDiv_eq_add_pred_div, Array.length_toList]
      omega
    rw [hdump, List.mapM_map]
    simp only [Function.comp_def, hread]
    rw [List.mapM_pure, Option.pure_def, Option.map_some, ← List.flatMap_def,
      HexRow.flatMap_take_drop, List.take_of_length_le hsize]

/-- Eighteen bytes at the end of the address space. -/
example :
    dump { kind := .cString, label := "Strings", address := ⟨-16⟩, size := 18, offset := 0
           data := "three blind mice\x00\xff".toList.toArray.map (UInt8.ofNat ·.toNat) } =
      ["    fffffffffffffff0  74 68 72 65 65 20 62 6c 69 6e 64 20 6d 69 63 65  three blind mice",
        "    0000000000000000  00 ff                                            .."] := by
  cbv

end Report

/-! ### Printed dumps -/

namespace CommandLine

/-- **Nothing of a section is lost when it is dumped.**  With their bytes asked for, the sections
of a file that can be decoded are printed slice by slice: behind the title of a slice stands
the line of each of its sections, and behind that line the dump of the section.  The dump of
any section shows its address and its bytes, so that they can be read back. -/
theorem printed_dump [Demangler] (invocation : Invocation) (h : invocation.verb = .sections)
    (hdump : .dump ∈ invocation.switches) (input : Input) (slices : Array Slice)
    (hparsed : (Image.parse invocation.stubSize).answer input {} = .ok slices) :
    Console.output (execute invocation input) =
      (.ok (), Console.text (slices.toList.zipIdx.flatMap fun (slice, position) =>
        Report.title position slice :: slice.sections.toList.flatMap fun s =>
          Report.sectionLine s :: Report.dump s)) ∧
    ∀ s : Section, Report.IsDump s (Report.dump s) := by
  have hreport : report invocation = Report.sections true := by
    unfold report
    rw [h]
    simp only [hdump, decide_true]
  refine ⟨?_, Report.isDump_dump⟩
  rw [output_execute_of_parse (by simp [h]) hparsed, reports_eq, hreport]
  rfl

/-- A table of strings, with eighteen bytes from address 52 on. -/
theorem printed_dump_strings :
    let start : List UInt8 := [0xCE, 0xFA, 0xED, 0xFE, 7, 0, 0, 0, 3, 0, 0, 0, 2, 0, 0, 0,
      1, 0, 0, 0, 24, 0, 0, 0, 0, 0, 0, 0, 2, 0, 0, 0, 24, 0, 0, 0, 52, 0, 0, 0, 0, 0, 0, 0,
      52, 0, 0, 0, 18, 0, 0, 0]
    let file : Input := (start ++ Utf8.encode "three blind mice\x00".toList ++ [0xFF]).toArray
    let invocation : Invocation := { verb := .sections, file := "a.out", switches := [.dump] }
    invocation.verb = .sections ∧ .dump ∈ invocation.switches ∧
      (∃ slices, (Image.parse invocation.stubSize).answer file {} = .ok slices) ∧
      Console.output (execute invocation file) = (.ok (), "== slice 0: x86 (I386) at 0x0 ==\n" ++
        "  String Table           string-table         addr 0x0000000000000034 " ++
          "size 0x12       offset 0x34\n" ++
        "    0000000000000034  74 68 72 65 65 20 62 6c 69 6e 64 20 6d 69 63 65  " ++
          "three blind mice\n" ++
        "    0000000000000044  00 ff                                            ..\n" ++
        "  Symbol Table           symbol-table         addr 0x0000000000000034 " ++
          "size 0x0        offset 0x34\n") := by
  intro start file invocation
  have hverb : invocation.verb = .sections := rfl
  have hdump : .dump ∈ invocation.switches := by decide
  obtain ⟨slices, hparsed, hshown⟩ := Decoder.exists_of_toOption_map
    (show ((Image.parse invocation.stubSize).answer file {}).toOption.map
      (fun slices => slices.toList.zipIdx.flatMap fun (slice, position) =>
        Report.title position slice :: slice.sections.toList.flatMap fun s =>
          Report.sectionLine s :: Report.dump s) = some [
        "== slice 0: x86 (I386) at 0x0 ==",
        "  String Table           string-table         addr 0x0000000000000034 " ++
          "size 0x12       offset 0x34",
        "    0000000000000034  74 68 72 65 65 20 62 6c 69 6e 64 20 6d 69 63 65  three blind mice",
        "    0000000000000044  00 ff                                            ..",
        "  Symbol Table           symbol-table         addr 0x0000000000000034 " ++
          "size 0x0        offset 0x34"] by decide +kernel)
  obtain ⟨houtput, -⟩ := printed_dump invocation hverb hdump file slices hparsed
  refine ⟨hverb, hdump, ⟨slices, hparsed⟩, houtput.trans ?_⟩
  rw [hshown]
  decide +kernel

end CommandLine

end MachImage
