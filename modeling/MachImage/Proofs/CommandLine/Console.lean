import MachImage.CommandLine.Run
import MachImage.Proofs.Image.Detection

/-! # Commands on a console

A command prints as it goes along: it looks whether the file is an image, decodes it with the
same reader, and then prints one line after the other, slice by slice.  A `Console` program is
written in this way, and what it has printed when it fails stays printed.  `execute` is such a
program for each command, and `run` gives all lines or an error instead.  The two say the same
(`output_execute`).

So a command on a file succeeds just when the file can be decoded, whatever was looked at
before with its reader, and a command that fails has printed nothing.  Its message says either
that the file is no image, and then its first four bytes are missing or are no magic number, or
why it cannot be decoded (`execute_all_or_nothing`). -/

namespace MachImage

/-! ### Looking first -/

/-- The first four bytes of the file are not all there, or are none of the known magic
numbers. -/
def Input.LacksMagic (input : Input) : Prop :=
  input.size < 4 ∨ ∃ first, input.u32? .little 0 = some first ∧ ¬ isMagic first

theorem Session.refines_decodeDetected (stubSize : StubSize) :
    Refines (decodeDetected stubSize) (CommandLine.decodeDetected stubSize) := by
  refine refines_detect.bind fun detected => ?_
  cases detected with
  | true => exact (refines_parse stubSize).bind fun _ => .pure _
  | false => exact .pure _

theorem Image.answer_detect_of_lacksMagic {input : Input} (h : input.LacksMagic) (c : Cursor) :
    detect.answer input c = .ok false := by
  rw [answer_detect]
  obtain hsize | ⟨first, hfirst, hmagic⟩ := h
  · rw [Input.u32?_eq_none.mpr (by omega)]
    rfl
  · rw [hfirst, Option.any_some, Bool.eq_false_iff.mpr hmagic]

theorem Image.answer_detect_of_not_lacksMagic {input : Input} (h : ¬ input.LacksMagic)
    (c : Cursor) : detect.answer input c = .ok true := by
  rw [detect_eq_true_iff]
  cases hfirst : input.u32? .little 0 with
  | none =>
      have hshort := Input.u32?_eq_none.mp hfirst
      exact absurd (.inl (by omega)) h
  | some first =>
      refine ⟨first, rfl, ?_⟩
      by_contra hmagic
      exact h (.inr ⟨first, hfirst, hmagic⟩)

namespace CommandLine

open Decoder

variable {stubSize : StubSize} {input : Input}

theorem answer_decodeDetected_of_lacksMagic (h : input.LacksMagic) :
    (decodeDetected stubSize).answer input {} = .ok none := by
  obtain ⟨c, hrun⟩ := exists_of_answer_ok (Image.answer_detect_of_lacksMagic h {})
  unfold decodeDetected
  rw [answer_bind_of_ok hrun]
  rfl

/-- That the file was looked at before makes no difference for its slices. -/
theorem answer_decodeDetected_of_not_lacksMagic (h : ¬ input.LacksMagic) :
    (decodeDetected stubSize).answer input {} =
      ((Image.parse stubSize).answer input {}).map some := by
  obtain ⟨c, hrun⟩ := exists_of_answer_ok (Image.answer_detect_of_not_lacksMagic h {})
  unfold decodeDetected
  rw [answer_bind_of_ok hrun]
  show (Image.parse stubSize >>= fun slices => pure (some slices)).answer input c = _
  -- The parser starts over at the first byte, wherever the look has left the cursor.
  rw [answer_bind_pure, Image.answer_parse, Image.answer_parse]

/-- What can be decoded starts with a magic number. -/
theorem parse_ne_ok_of_lacksMagic (h : input.LacksMagic) (stubSize : StubSize)
    (slices : Array Slice) : (Image.parse stubSize).answer input {} ≠ .ok slices := by
  intro hparsed
  have hdetect : Image.detect.answer input {} = .ok true :=
    Image.detect_eq_true_iff.mpr (Image.exists_isMagic_of_parse hparsed)
  cases (Image.answer_detect_of_lacksMagic h {}).symm.trans hdetect

theorem slices_eq (stubSize : StubSize) (file : String) (input : Input) :
    slices stubSize file input = match (decodeDetected stubSize).answer input {} with
      | .ok (some slices) => .ok slices
      | .ok none => .error (.notAnImage file)
      | .error error => .error (.decode error) := by
  unfold slices answer
  cases decodeDetected stubSize input {} with
  | ok slices? _ => cases slices? <;> rfl
  | error => rfl

theorem slices_of_lacksMagic (h : input.LacksMagic) (stubSize : StubSize) (file : String) :
    slices stubSize file input = .error (.notAnImage file) := by
  rw [slices_eq, answer_decodeDetected_of_lacksMagic h]

theorem slices_of_not_lacksMagic (h : ¬ input.LacksMagic) (stubSize : StubSize) (file : String) :
    slices stubSize file input = ((Image.parse stubSize).answer input {}).mapError .decode := by
  rw [slices_eq, answer_decodeDetected_of_not_lacksMagic h]
  cases (Image.parse stubSize).answer input {} <;> rfl

/-! ### Consoles -/

namespace Console

/-- The program prints these lines behind anything that is printed already, and succeeds. -/
def Prints (program : Console Unit) (lines : List String) : Prop :=
  ∀ printed, program.run.run printed = (.ok (), printed ++ text lines)

theorem bind_apply {α β : Type} (m : Console α) (f : α → Console β) (printed : String) :
    (m >>= f).run.run printed = match m.run.run printed with
      | (.ok a, printed') => (f a).run.run printed'
      | (.error e, printed') => (.error e, printed') := by
  show (ExceptT.bindCont f (m.run.run printed).1).run (m.run.run printed).2 = _
  obtain ⟨a | e, printed'⟩ := m.run.run printed <;> rfl

theorem text_append (front behind : List String) :
    text (front ++ behind) = text front ++ text behind := by
  rw [text, List.map_append, String.join_append]
  rfl

theorem prints_nil : Prints (pure ()) [] := by
  intro printed
  show (Except.ok (), printed) = (_, printed ++ "")
  rw [String.append_empty]

theorem prints_printLine (line : String) : Prints (printLine line) [line] := by
  intro printed
  show (Except.ok (), printed ++ (line ++ "\n")) = _
  simp [text]

theorem Prints.bind {first later : Console Unit} {front behind : List String}
    (hfirst : Prints first front) (hlater : Prints later behind) :
    Prints (first >>= fun _ => later) (front ++ behind) := by
  intro printed
  rw [bind_apply, hfirst printed]
  show later.run.run (printed ++ text front) = _
  rw [hlater, text_append, String.append_assoc]

theorem prints_forM {α : Type} {f : α → Console Unit} {g : α → List String}
    (h : ∀ a, Prints (f a) (g a)) (as : List α) : Prints (as.forM f) (as.flatMap g) := by
  induction as with
  | nil => exact prints_nil
  | cons a rest ih => exact (h a).bind ih

end Console

/-! ### Commands -/

theorem fetch_apply (stubSize : StubSize) (file : String) (input : Input) (printed : String) :
    (fetch stubSize file input).run.run printed = (slices stubSize file input, printed) := by
  have hanswer : (Session.decodeDetected stubSize).answer input {} =
      (decodeDetected stubSize).answer input {} :=
    (Session.refines_decodeDetected stubSize).answer_eq (Reader.fits_fresh input)
  unfold fetch
  rw [slices_eq, hanswer]
  cases (decodeDetected stubSize).answer input {} with
  | ok slices? => cases slices? <;> rfl
  | error => rfl

section commands

variable [Demangler]

theorem reports_eq (invocation : Invocation) (slices : Array Slice) :
    reports invocation slices = slices.toList.zipIdx.flatMap fun (slice, position) =>
      report invocation position slice := by
  rw [reports, Array.toList_mapIdx, List.mapIdx_eq_zipIdx_map, List.flatMap_def]

theorem prints_printReports (invocation : Invocation) (slices : Array Slice) :
    (printReports invocation slices).Prints (reports invocation slices) := by
  have hlines (lines : List String) : (lines.forM Console.printLine).Prints lines := by
    have hprints := Console.prints_forM Console.prints_printLine lines
    rwa [List.flatMap_singleton'] at hprints
  rw [reports_eq]
  exact Console.prints_forM (fun (slice, position) => hlines (report invocation position slice)) _

section decoding

variable {invocation : Invocation} (h : invocation.verb ≠ .detect)

include h

theorem execute_eq (input : Input) :
    execute invocation input =
      fetch invocation.stubSize invocation.file input >>= printReports invocation := by
  unfold execute
  split
  · next hverb => exact absurd hverb h
  · rfl

theorem runOn_eq (input : Input) :
    runOn invocation input =
      (slices invocation.stubSize invocation.file input).map (reports invocation) := by
  unfold runOn
  split
  · next hverb => exact absurd hverb h
  · cases slices invocation.stubSize invocation.file input <;> rfl

end decoding

/-- A command prints the lines that it gives, and nothing if it gives an error. -/
theorem output_execute (invocation : Invocation) (input : Input) :
    Console.output (execute invocation input) = Console.ofResult (runOn invocation input) := by
  by_cases h : invocation.verb = .detect
  · have hexecute : execute invocation input =
        Console.printLine (detection invocation.file (isImage input)) := by
      rw [execute, h]
    have hrun : runOn invocation input = .ok [detection invocation.file (isImage input)] := by
      rw [runOn, h]
    rw [hexecute, hrun, Console.output, Console.prints_printLine, String.empty_append]
    rfl
  · rw [execute_eq h, runOn_eq h, Console.output, Console.bind_apply, fetch_apply]
    cases slices invocation.stubSize invocation.file input with
    | ok slices =>
        show (printReports invocation slices).run.run "" = _
        rw [prints_printReports, String.empty_append]
        rfl
    | error => rfl

/-- A file that can be decoded is printed, slice by slice. -/
theorem output_execute_of_parse {invocation : Invocation} (h : invocation.verb ≠ .detect)
    {input : Input} {slices : Array Slice}
    (hparsed : (Image.parse invocation.stubSize).answer input {} = .ok slices) :
    Console.output (execute invocation input) =
      (.ok (), Console.text (reports invocation slices)) := by
  have hmagic : ¬ input.LacksMagic := fun hlacks =>
    parse_ne_ok_of_lacksMagic hlacks invocation.stubSize slices hparsed
  rw [output_execute, runOn_eq h, slices_of_not_lacksMagic hmagic, hparsed]
  rfl

/-- **A command prints all of its report or nothing.**  A command that decodes its file succeeds
just when the parser decodes the file, with the size of stubs that was chosen, and then prints
its report on every slice.  If it fails nothing has been printed, not even of slices in front
of the one that cannot be decoded.  Its message says that the file is no image when the first
four bytes are missing or are no magic number, and else gives the error of the parser.  The
lines that the command gives without a console are those that are printed on one. -/
theorem execute_all_or_nothing (invocation : Invocation) (h : invocation.verb ≠ .detect)
    (input : Input) :
    let parsed := (Image.parse invocation.stubSize).answer input {}
    ∃ outcome printed, Console.output (execute invocation input) = (outcome, printed) ∧
      (outcome = .ok () ↔ ∃ slices, parsed = .ok slices) ∧
      (∀ slices, parsed = .ok slices → printed = Console.text (reports invocation slices)) ∧
      (∀ error, outcome = .error error → printed = "" ∧
        (input.LacksMagic →
          error.message = invocation.file ++ ": not a Mach-O or universal binary") ∧
        (¬ input.LacksMagic →
          ∃ reason, parsed = .error reason ∧ error.message = reason.message)) ∧
      Console.ofResult (run invocation (.bytes input)) = (outcome, printed) := by
  have hrun : run invocation (.bytes input) =
      (slices invocation.stubSize invocation.file input).map (reports invocation) :=
    runOn_eq h input
  dsimp only
  rw [output_execute, runOn_eq h, hrun]
  refine ⟨_, _, rfl, ?_⟩
  by_cases hmagic : input.LacksMagic
  · have hnone := parse_ne_ok_of_lacksMagic hmagic invocation.stubSize
    rw [slices_of_lacksMagic hmagic]
    refine ⟨⟨nofun, fun ⟨slices, hslices⟩ => absurd hslices (hnone slices)⟩,
      fun slices hslices => absurd hslices (hnone slices), ?_, rfl⟩
    rintro _ ⟨⟩
    exact ⟨rfl, fun _ => rfl, fun hnot => absurd hmagic hnot⟩
  · rw [slices_of_not_lacksMagic hmagic]
    cases (Image.parse invocation.stubSize).answer input {} with
    | ok slices =>
        refine ⟨⟨fun _ => ⟨slices, rfl⟩, fun _ => rfl⟩, ?_, nofun, rfl⟩
        rintro _ ⟨⟩
        rfl
    | error reason =>
        refine ⟨⟨nofun, nofun⟩, nofun, ?_, rfl⟩
        rintro _ ⟨⟩
        exact ⟨rfl, fun hlacks => absurd hlacks hmagic, fun _ => ⟨reason, rfl, rfl⟩⟩

end commands

/-- The second slice of the first file cannot be decoded, and so nothing is printed of the first
one, which is printed when it is a file by itself. -/
theorem execute_all_or_nothing_second :
    let entry (offset : UInt8) : List UInt8 :=
      [0, 0, 0, 7, 0, 0, 0, 3, 0, 0, 0, offset, 0, 0, 0, 0, 0, 0, 0, 0]
    let image : List UInt8 := [0xCE, 0xFA, 0xED, 0xFE, 7, 0, 0, 0, 3, 0, 0, 0, 2, 0, 0, 0, 0, 0, 0,
      0, 0, 0, 0, 0, 0, 0, 0, 0]
    let start : List UInt8 := [0xCA, 0xFE, 0xBA, 0xBE, 0, 0, 0, 2]
    let broken : Input := (start ++ entry 48 ++ entry 0 ++ image).toArray
    let invocation : Invocation := { verb := .symbols, file := "a.out", switches := [.dynamic] }
    invocation.verb ≠ .detect ∧
      (∃ error, Console.output (execute invocation broken) = (.error error, "") ∧
        error.message = "Unsupported magic: 0xbebafeca") ∧
      Console.output (execute invocation image.toArray) =
        (.ok (), "== slice 0: x86 (I386) at 0x0 ==\n  no dynamic symbol table\n") := by
  intro entry image start broken invocation
  have hverb : invocation.verb ≠ .detect := by decide
  refine ⟨hverb, ?_, ?_⟩
  · have hparsed : (Image.parse .legacy).answer broken {} =
        .error (.unsupportedMagic 0xBEBAFECA) := by
      decide +kernel
    have hfirst : broken.u32? .little 0 = some 0xBEBAFECA := by decide
    have hmagic : ¬ broken.LacksMagic := by
      rintro (hsize | ⟨first, hword, hnot⟩)
      · exact absurd hsize (by decide)
      · obtain rfl := Option.some.inj (hfirst.symm.trans hword)
        exact hnot (by decide)
    obtain ⟨outcome, printed, houtput, hok, -, herror, -⟩ :=
      execute_all_or_nothing invocation hverb broken
    cases outcome with
    | ok =>
        obtain ⟨slices, hslices⟩ := hok.mp rfl
        cases hslices.symm.trans hparsed
    | error error =>
        obtain ⟨rfl, -, hmessage⟩ := herror error rfl
        obtain ⟨reason, hreason, htext⟩ := hmessage hmagic
        obtain rfl := Except.error.inj (hreason.symm.trans hparsed)
        exact ⟨error, houtput, htext.trans (by decide)⟩
  · let slice : Slice :=
      { frame := { width := .bits32, order := .little, base := 0 }
        cpuType := .x86, cpuSubtype := .i386, fileType := .execute, flags := 0
        sections := #[], segments := #[], symbols := {}, dynamicSymbols := {}, loadInfo := {}
        diagnostics := #[] }
    have hparsed : (Image.parse .legacy).answer image.toArray {} = .ok #[slice] := by
      decide +kernel
    have htext : Console.text (reports invocation #[slice]) =
        "== slice 0: x86 (I386) at 0x0 ==\n  no dynamic symbol table\n" := by
      decide
    obtain ⟨outcome, printed, houtput, hok, hprinted, -, -⟩ :=
      execute_all_or_nothing invocation hverb image.toArray
    obtain rfl := hok.mpr ⟨#[slice], hparsed⟩
    rw [houtput, hprinted #[slice] hparsed, htext]

end CommandLine

end MachImage
