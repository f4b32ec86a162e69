import Mathlib.Algebra.BigOperators.Group.List.Basic
import Mathlib.Algebra.GroupWithZero.Nat
import MachImage.Proofs.CommandLine.Console

/-! # Lines on the console

A listing of symbols has a title for every slice, and behind it a line for every symbol, or one
that says that there is none.  Titles, numbers and all other fixed parts of these lines are free
of newlines (`Report.newlines_title`, `Report.newlines_symbol`), but the names of symbols are
shown as they stand in the file, like all other text of a file, and they can hold newlines.

So the console shows one line more for each newline in a name that is shown, and no others
(`CommandLine.newlines_of_symbols`); without newlines in names the lines can be told apart
again.  With one a symbol forges the line of another (`CommandLine.not_newlines_eq`). -/

namespace MachImage

/-! ### Newlines -/

namespace Text

def newlines (text : String) : ℕ := text.toList.count '\n'

@[simp] theorem newlines_append (front behind : String) :
    newlines (front ++ behind) = newlines front + newlines behind := by
  rw [newlines, String.toList_append, List.count_append]
  rfl

theorem newlines_eq_zero {text : String} : newlines text = 0 ↔ '\n' ∉ text.toList :=
  List.count_eq_zero

theorem newline_not_mem_toDigits {base : ℕ} (hbase : 1 < base) (n : ℕ) :
    '\n' ∉ Nat.toDigits base n := by
  have hdigit (n : ℕ) : '\n' ≠ n.digitChar := (Nat.digitChar_ne '\n' (by decide)).symm
  induction n using Nat.strongRecOn with
  | _ n ih =>
      rw [Nat.toDigits_eq_if hbase]
      split
      · rw [List.mem_singleton]
        exact hdigit n
      · have hless : n / base < n := Nat.div_lt_self (by omega) hbase
        rw [List.mem_append, List.mem_singleton, not_or]
        exact ⟨ih _ hless, hdigit _⟩

@[simp] theorem newlines_hex (n : ℕ) : newlines (hex n) = 0 := by
  rw [newlines_eq_zero, hex, String.toList_ofList]
  exact newline_not_mem_toDigits (by decide) n

@[simp] theorem newlines_toString (n : ℕ) : newlines (toString n) = 0 := by
  rw [newlines_eq_zero]
  show '\n' ∉ (String.ofList (Nat.toDigits 10 n)).toList
  rw [String.toList_ofList]
  exact newline_not_mem_toDigits (by decide) n

theorem newlines_padLeft {fill : Char} (h : fill ≠ '\n') (width : ℕ) (text : String) :
    newlines (padLeft fill width text) = newlines text := by
  have hfill : newlines (String.ofList (List.replicate (width - text.length) fill)) = 0 := by
    rw [newlines_eq_zero, String.toList_ofList]
    exact fun hmem => h (List.eq_of_mem_replicate hmem).symm
  rw [padLeft, newlines_append, hfill, Nat.zero_add]

@[simp] theorem newlines_hexPadded (width n : ℕ) : newlines (hexPadded width n) = 0 := by
  rw [hexPadded, newlines_padLeft (by decide), newlines_hex]

end Text

open Text

/-! ### Lines of a listing -/

@[simp] theorem CpuType.newlines_text (cpu : CpuType) : newlines cpu.text = 0 := by
  cases cpu with
  | unknown raw =>
      rw [text, newlines_append, newlines_append, newlines_hex]
      rfl
  | _ => rfl

@[simp] theorem CpuSubtype.newlines_text (cpu : CpuSubtype) : newlines cpu.text = 0 := by
  cases cpu with
  | unknown raw =>
      rw [text, newlines_append, newlines_append, newlines_toString]
      rfl
  | _ => rfl

namespace Report

theorem newlines_title (position : ℕ) (slice : Slice) : newlines (title position slice) = 0 := by
  have htitle : title position slice = "== slice " ++ toString position ++ ": " ++
      (slice.cpuType.text ++ " (" ++ slice.cpuSubtype.text ++ ")") ++ " at 0x" ++
      hex slice.frame.base ++ " ==" := rfl
  rw [htitle]
  simp only [newlines_append, newlines_toString, newlines_hex, CpuType.newlines_text,
    CpuSubtype.newlines_text]
  rfl

section symbols

variable [Demangler]

def shownName (demangle : Bool) (s : Symbol) : String := if demangle then s.text else s.name

/-- The line of a symbol has the newlines of its name and no others. -/
theorem newlines_symbol (demangle : Bool) (s : Symbol) :
    newlines (symbol demangle s) = newlines (shownName demangle s) := by
  have hsymbol : symbol demangle s = "  0x" ++ hexPadded 16 s.value.toNat ++ "  " ++
      padLeft ' ' 6 (toString s.index.toNat) ++ "  " ++ shownName demangle s := rfl
  have hblanks : newlines "  0x" = 0 ∧ newlines "  " = 0 := by decide
  rw [hsymbol]
  simp only [newlines_append, newlines_hexPadded, newlines_padLeft (by decide : ' ' ≠ '\n'),
    newlines_toString, hblanks, Nat.zero_add]

/-- The lines of a symbol table: one for each symbol, or a single one if there are none. -/
def tableLines (kind : SymbolTableKind) (demangle : Bool) (table : SymbolTable) : List String :=
  if table.isEmpty then ["  no " ++ kind.name] else table.symbols.toList.map (symbol demangle)

variable {kind : SymbolTableKind} {demangle : Bool} {table : SymbolTable}

theorem length_tableLines : (tableLines kind demangle table).length = max 1 table.size := by
  unfold tableLines SymbolTable.isEmpty SymbolTable.size
  split
  · next h =>
      rw [Array.isEmpty_iff_size_eq_zero.mp h]
      rfl
  · next h =>
      rw [Array.isEmpty_iff_size_eq_zero] at h
      rw [List.length_map, Array.length_toList]
      omega

theorem sum_newlines_tableLines :
    ((tableLines kind demangle table).map newlines).sum =
      (table.symbols.toList.map fun s => newlines (shownName demangle s)).sum := by
  unfold tableLines SymbolTable.isEmpty
  split
  · next h =>
      rw [Array.isEmpty_iff.mp h]
      cases kind <;> rfl
  · rw [List.map_map]
    simp only [Function.comp_def, newlines_symbol]

end symbols

end Report

/-! ### Printed text -/

namespace CommandLine

namespace Console

/-- The lines of a printed text, each of which a newline ends. -/
def linesOf (printed : String) : List String :=
  (printed.toList.splitOn '\n').dropLast.map String.ofList

theorem text_cons (line : String) (rest : List String) :
    text (line :: rest) = line ++ "\n" ++ text rest := by
  rw [text, List.map_cons, String.join_cons]
  rfl

/-- Every line ends in a newline, and there are more if lines hold some. -/
theorem newlines_text (lines : List String) :
    newlines (text lines) = lines.length + (lines.map newlines).sum := by
  induction lines with
  | nil => rfl
  | cons line rest ih =>
      have hend : newlines "\n" = 1 := rfl
      rw [text_cons, newlines_append, newlines_append, hend, ih, List.length_cons,
        List.map_cons, List.sum_cons]
      omega

theorem toList_text (lines : List String) :
    (text lines).toList = ['\n'].intercalate (lines.map String.toList ++ [[]]) := by
  induction lines with
  | nil => rfl
  | cons line rest ih =>
      have hne : rest.map String.toList ++ [[]] ≠ [] := by simp
      rw [text_cons, List.map_cons, List.cons_append, List.intercalate_cons_of_ne_nil hne, ← ih]
      simp only [String.toList_append]
      rfl

/-- Lines without newlines can be told apart again. -/
theorem linesOf_text {lines : List String} (h : ∀ line ∈ lines, newlines line = 0) :
    linesOf (text lines) = lines := by
  have hparts : ∀ part ∈ lines.map String.toList ++ [[]], '\n' ∉ part := by
    intro part hpart
    rcases List.mem_append.mp hpart with hline | hend
    · obtain ⟨line, hmem, rfl⟩ := List.mem_map.mp hline
      exact newlines_eq_zero.mp (h line hmem)
    · rw [List.mem_singleton.mp hend]
      exact List.not_mem_nil
  rw [linesOf, toList_text, List.splitOn_intercalate '\n' hparts (by simp),
    List.dropLast_concat, List.map_map]
  simp [Function.comp_def]

end Console

/-! ### Listings -/

def Invocation.table (invocation : Invocation) : SymbolTableKind :=
  if .dynamic ∈ invocation.switches then .dynamic else .primary

/-- Whether names are shown as the paths that they stand for. -/
def Invocation.demangles (invocation : Invocation) : Bool := .demangle ∈ invocation.switches

theorem map_zipIdx_fst {α β : Type} (f : α → β) (as : List α) :
    (as.zipIdx.map fun (a, _) => f a) = as.map f := by
  rw [← List.zipIdx_map_fst 0 as, List.map_map, List.zipIdx_map_fst]
  rfl

section listing

variable [Demangler] {invocation : Invocation} {slices : Array Slice}

def newlinesInNames (invocation : Invocation) (slice : Slice) : ℕ :=
  ((slice.symbolTable invocation.table).symbols.toList.map fun s =>
    newlines (Report.shownName invocation.demangles s)).sum

theorem newlinesInNames_eq_zero {slice : Slice} :
    newlinesInNames invocation slice = 0 ↔
      ∀ s ∈ (slice.symbolTable invocation.table).symbols,
        newlines (Report.shownName invocation.demangles s) = 0 := by
  simp [newlinesInNames, List.sum_eq_zero_iff_forall_eq_nat]

theorem reports_of_symbols (h : invocation.verb = .symbols) :
    reports invocation slices = slices.toList.zipIdx.flatMap fun (slice, position) =>
      Report.title position slice ::
        Report.tableLines invocation.table invocation.demangles
          (slice.symbolTable invocation.table) := by
  have hreport : report invocation =
      Report.symbols invocation.table invocation.demangles := by
    unfold report
    rw [h]
    simp only [decide_eq_true_eq]
    rfl
  rw [reports_eq, hreport]
  rfl

theorem length_reports_of_symbols (h : invocation.verb = .symbols) :
    (reports invocation slices).length = (slices.toList.map fun slice =>
      1 + max 1 (slice.symbolTable invocation.table).size).sum := by
  rw [reports_of_symbols h, List.length_flatMap,
    ← map_zipIdx_fst fun slice : Slice => 1 + max 1 (slice.symbolTable invocation.table).size]
  simp only [List.length_cons, Report.length_tableLines, Nat.add_comm]

theorem sum_newlines_reports_of_symbols (h : invocation.verb = .symbols) :
    ((reports invocation slices).map newlines).sum =
      (slices.toList.map (newlinesInNames invocation)).sum := by
  rw [reports_of_symbols h, List.map_flatMap, List.flatMap_def, List.sum_flatten,
    List.map_map, ← map_zipIdx_fst (newlinesInNames invocation)]
  simp only [Function.comp_def, List.map_cons, List.sum_cons, Report.newlines_title,
    Report.sum_newlines_tableLines, Nat.zero_add]
  rfl

theorem newlines_eq_zero_of_mem_reports (h : invocation.verb = .symbols)
    (hnames : ∀ slice ∈ slices, newlinesInNames invocation slice = 0) :
    ∀ line ∈ reports invocation slices, newlines line = 0 := by
  intro line hline
  have hsum : ((reports invocation slices).map newlines).sum = 0 := by
    rw [sum_newlines_reports_of_symbols h, List.sum_eq_zero_iff_forall_eq_nat]
    simpa using hnames
  rw [List.sum_eq_zero_iff_forall_eq_nat] at hsum
  exact hsum _ (List.mem_map_of_mem hline)

end listing

/-- **A listing has one line more for each newline in a name.**  A listing of the symbols of a
file that can be decoded is the title of each slice and behind it a line for each symbol of the
table that was asked for, or a single one if there are no symbols.  Each of these lines ends in
a newline, and the only others are those inside the names that are shown.  So there are as many
newlines as there are lines to be shown just if no name that is shown holds one, and then the
lines can be told apart again. -/
theorem newlines_of_symbols [Demangler] (invocation : Invocation) (h : invocation.verb = .symbols)
    (input : Input) (slices : Array Slice)
    (hparsed : (Image.parse invocation.stubSize).answer input {} = .ok slices) :
    let table (slice : Slice) := slice.symbolTable invocation.table
    let lines := slices.toList.zipIdx.flatMap fun (slice, position) =>
      Report.title position slice ::
        Report.tableLines invocation.table invocation.demangles (table slice)
    let expected := (slices.toList.map fun slice => 1 + max 1 (table slice).size).sum
    ∃ printed, Console.output (execute invocation input) = (.ok (), printed) ∧
      printed = Console.text lines ∧
      newlines printed =
        expected + (slices.toList.map (newlinesInNames invocation)).sum ∧
      (newlines printed = expected ↔ ∀ slice ∈ slices, ∀ s ∈ (table slice).symbols,
        newlines (Report.shownName invocation.demangles s) = 0) ∧
      ((∀ slice ∈ slices, ∀ s ∈ (table slice).symbols,
        newlines (Report.shownName invocation.demangles s) = 0) →
          Console.linesOf printed = lines) := by
  intro table lines expected
  have hverb : invocation.verb ≠ .detect := by simp [h]
  have hlines : lines = reports invocation slices := (reports_of_symbols h).symm
  have houtput : Console.output (execute invocation input) = (.ok (), Console.text lines) := by
    rw [output_execute_of_parse hverb hparsed, hlines]
  have hcount : newlines (Console.text lines) =
      expected + (slices.toList.map (newlinesInNames invocation)).sum := by
    rw [Console.newlines_text, hlines, length_reports_of_symbols h,
      sum_newlines_reports_of_symbols h]
  have hnames : (slices.toList.map (newlinesInNames invocation)).sum = 0 ↔
      ∀ slice ∈ slices, ∀ s ∈ (table slice).symbols,
        newlines (Report.shownName invocation.demangles s) = 0 := by
    simp [List.sum_eq_zero_iff_forall_eq_nat, newlinesInNames_eq_zero, table]
  refine ⟨_, houtput, rfl, hcount, ?_, fun hnone => ?_⟩
  · rw [hcount, ← hnames]
    omega
  · rw [hlines]
    refine Console.linesOf_text (newlines_eq_zero_of_mem_reports h fun slice hslice => ?_)
    exact newlinesInNames_eq_zero.mpr (hnone slice hslice)

/-- Of two files with two symbols, the first has a newline in a name.  It has four lines, and the
second one has three that are told apart. -/
theorem newlines_of_symbols_twoNames :
    let start : List UInt8 := [0xCE, 0xFA, 0xED, 0xFE, 7, 0, 0, 0, 3, 0, 0, 0, 2, 0, 0, 0,
      1, 0, 0, 0, 24, 0, 0, 0, 0, 0, 0, 0, 2, 0, 0, 0, 24, 0, 0, 0, 52, 0, 0, 0, 2, 0, 0, 0,
      76, 0, 0, 0, 9, 0, 0, 0, 0, 0, 0, 0, 15, 1, 0, 0, 0, 16, 0, 0, 4, 0, 0, 0, 15, 1, 0, 0,
      0, 32, 0, 0]
    let file (names : String) : Input := (start ++ Utf8.encode names.toList).toArray
    let invocation : Invocation := { verb := .symbols, file := "a.out", switches := [.demangle] }
    invocation.verb = .symbols ∧
      (∃ slices, (Image.parse invocation.stubSize).answer (file "a\nb\x00main\x00") {} =
          .ok slices ∧
        ∃ printed, Console.output (execute invocation (file "a\nb\x00main\x00")) =
          (.ok (), printed) ∧ newlines printed = 4) ∧
      ∃ slices, (Image.parse invocation.stubSize).answer (file "a b\x00main\x00") {} =
          .ok slices ∧
        ∃ printed, Console.output (execute invocation (file "a b\x00main\x00")) =
          (.ok (), printed) ∧ newlines printed = 3 ∧
            Console.linesOf printed = ["== slice 0: x86 (I386) at 0x0 ==",
              "  0x0000000000001000       0  a b", "  0x0000000000002000       4  main"] := by
  intro start file invocation
  have hverb : invocation.verb = .symbols := rfl
  let expected (slices : Array Slice) : ℕ := (slices.toList.map fun slice =>
    1 + max 1 (slice.symbolTable invocation.table).size).sum
  let inNames (slices : Array Slice) : ℕ :=
    (slices.toList.map (newlinesInNames invocation)).sum
  refine ⟨hverb, ?_, ?_⟩
  · obtain ⟨slices, hparsed, hcounts⟩ := Decoder.exists_of_toOption_map
      (show ((Image.parse invocation.stubSize).answer (file "a\nb\x00main\x00") {}).toOption.map
        (fun slices => (expected slices, inNames slices)) = some (3, 1) by decide +kernel)
    obtain ⟨hexpected, hinNames⟩ := Prod.mk.inj hcounts
    obtain ⟨printed, houtput, -, hcount, -, -⟩ :=
      newlines_of_symbols invocation hverb _ slices hparsed
    have hfour : newlines printed = 4 := by
      rw [hcount]
      exact congrArg₂ _ hexpected hinNames
    exact ⟨slices, hparsed, printed, houtput, hfour⟩
  · obtain ⟨slices, hparsed, hcounts⟩ := Decoder.exists_of_toOption_map
      (show ((Image.parse invocation.stubSize).answer (file "a b\x00main\x00") {}).toOption.map
        (fun slices => (expected slices, inNames slices, reports invocation slices)) =
          some (3, 0, ["== slice 0: x86 (I386) at 0x0 ==",
            "  0x0000000000001000       0  a b", "  0x0000000000002000       4  main"]) by
        decide +kernel)
    obtain ⟨hexpected, hrest⟩ := Prod.mk.inj hcounts
    obtain ⟨hinNames, hreports⟩ := Prod.mk.inj hrest
    obtain ⟨printed, houtput, -, hcount, hiff, hlines⟩ :=
      newlines_of_symbols invocation hverb _ slices hparsed
    have hthree : newlines printed = 3 := by
      rw [hcount]
      exact congrArg₂ _ hexpected hinNames
    have hnone := hiff.mp (hthree.trans hexpected.symm)
    exact ⟨slices, hparsed, printed, houtput, hthree,
      (hlines hnone).trans ((reports_of_symbols hverb).symm.trans hreports)⟩

/-- A symbol can be given a name that is shown as two lines, of which the second is that of a
symbol that is not in the file. -/
theorem not_newlines_eq :
    ¬ ∀ [Demangler] (invocation : Invocation) (input : Input) (slices : Array Slice),
      invocation.verb = .symbols →
      (Image.parse invocation.stubSize).answer input {} = .ok slices →
        newlines (Console.output (execute invocation input)).2 =
          (slices.toList.map fun slice =>
            1 + max 1 (slice.symbolTable invocation.table).size).sum := by
  intro hall
  let start : List UInt8 := [0xCE, 0xFA, 0xED, 0xFE, 7, 0, 0, 0, 3, 0, 0, 0, 2, 0, 0, 0,
    1, 0, 0, 0, 24, 0, 0, 0, 0, 0, 0, 0, 2, 0, 0, 0, 24, 0, 0, 0, 52, 0, 0, 0, 1, 0, 0, 0,
    64, 0, 0, 0, 34, 0, 0, 0, 0, 0, 0, 0, 15, 1, 0, 0, 0, 16, 0, 0]
  let name := "a\n  0x0000000000002000       7  b\x00"
  let image : Input := (start ++ Utf8.encode name.toList).toArray
  let invocation : Invocation := { verb := .symbols, file := "a.out" }
  let expected (slices : Array Slice) : ℕ := (slices.toList.map fun slice =>
    1 + max 1 (slice.symbolTable invocation.table).size).sum
  obtain ⟨slices, hparsed, hshown⟩ := Decoder.exists_of_toOption_map
    (show ((Image.parse invocation.stubSize).answer image {}).toOption.map
      (fun slices => (expected slices, Console.text (reports invocation slices))) =
        some (2, "== slice 0: x86 (I386) at 0x0 ==\n" ++
          "  0x0000000000001000       0  a\n" ++
          "  0x0000000000002000       7  b\n") by decide +kernel)
  obtain ⟨hexpected, htext⟩ := Prod.mk.inj hshown
  have hcount := hall invocation image slices rfl hparsed
  rw [output_execute_of_parse (by decide) hparsed, htext] at hcount
  exact absurd (hcount.trans hexpected) (by decide +kernel)

end CommandLine

end MachImage
