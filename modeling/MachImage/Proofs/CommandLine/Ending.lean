import MachImage.Proofs.CommandLine.Console

/-! # How the program ends

Before the program looks at its file it sets up logging.  What the command line decides is not
asked of the environment (`Log.plan_congr`), and the only plan that cannot be made is that of a
file without a name (`Log.plan_eq_error_iff`).

A command that decodes its file ends with code 0 just when the parser decodes the file.  With
any other code nothing is printed, and one line says why (`CommandLine.Ending.ofResult_run`). -/

namespace MachImage

/-! ### Logging -/

namespace Log

variable {choice : Choice} {environment environment' : Environment}

theorem logFile_eq_error_iff {setting? : Option String} {error : OptionError} :
    logFile setting? = .error error ↔
      ∃ path, setting? = some path ∧ path ≠ "" ∧ fileName? path = none ∧
        error = .invalidPath path := by
  cases setting? with
  | none => simp [logFile]
  | some path =>
      simp only [Option.some.injEq, exists_eq_left']
      by_cases hempty : path = ""
      · simp [logFile, hempty]
      · cases hname : fileName? path with
        | some name => simp [logFile, hempty, hname]
        | none =>
            simp only [logFile, String.isEmpty_iff, hempty, if_false, hname, Except.error.injEq]
            exact ⟨fun h => ⟨hempty, trivial, h.symm⟩, fun h => h.2.2.symm⟩

/-- The only file that cannot be logged to is one of the environment that has no name, and it
is not looked at if there is a directory for log files. -/
theorem plan_eq_error_iff {today : Date} {error : OptionError} :
    plan choice environment today = .error error ↔
      choice.directory? = none ∧ ∃ path, environment.file? = some path ∧ path ≠ "" ∧
        fileName? path = none ∧ error = .invalidPath path := by
  rw [← logFile_eq_error_iff]
  unfold plan
  cases choice.directory? with
  | some directory => simp [pure, Except.pure]
  | none => cases logFile environment.file? <;> simp [bind, Except.bind, pure, Except.pure]

/-- A format or a directory on the command line makes the environment's one irrelevant. -/
theorem plan_congr (today : Date)
    (hformat : choice.format?.isSome ∨ environment.format? = environment'.format?)
    (hfile : choice.directory?.isSome ∨ environment.file? = environment'.file?) :
    plan choice environment today = plan choice environment' today := by
  have hformats : choice.format?.getD (Format.ofEnvironment environment.format?) =
      choice.format?.getD (Format.ofEnvironment environment'.format?) := by
    obtain hsome | heq := hformat
    · obtain ⟨format, hformat⟩ := Option.isSome_iff_exists.mp hsome
      rw [hformat, Option.getD_some, Option.getD_some]
    · rw [heq]
  unfold plan
  rw [hformats]
  obtain hsome | heq := hfile
  · obtain ⟨directory, hdirectory⟩ := Option.isSome_iff_exists.mp hsome
    rw [hdirectory]
  · rw [heq]

end Log

/-! ### Commands -/

namespace CommandLine.Ending

/-- The exit code tells whether the file could be decoded, and a report is printed of a file
that could.  Of any other nothing is printed, and one line says why. -/
theorem ofResult_run [Demangler] {invocation : Invocation} (h : invocation.verb ≠ .detect)
    (input : Input) :
    let ending := ofResult (run invocation (.bytes input))
    (ending.code = 0 ↔ ∃ slices, (Image.parse invocation.stubSize).answer input {} = .ok slices) ∧
      (∀ slices, (Image.parse invocation.stubSize).answer input {} = .ok slices →
        ending = { printed := reports invocation slices }) ∧
      (ending.code ≠ 0 → ending.code = 1 ∧ ending.printed = [] ∧
        ∃ error : RunError, ending.complaints = ["Error: " ++ error.message]) := by
  have hrun : run invocation (.bytes input) =
      (slices invocation.stubSize invocation.file input).map (reports invocation) :=
    runOn_eq h input
  dsimp only
  rw [hrun]
  by_cases hmagic : input.LacksMagic
  · have hnone := parse_ne_ok_of_lacksMagic hmagic invocation.stubSize
    rw [slices_of_lacksMagic hmagic]
    exact ⟨⟨nofun, fun ⟨slices, hslices⟩ => absurd hslices (hnone slices)⟩,
      fun slices hslices => absurd hslices (hnone slices), fun _ => ⟨rfl, rfl, _, rfl⟩⟩
  · rw [slices_of_not_lacksMagic hmagic]
    cases (Image.parse invocation.stubSize).answer input {} with
    | ok slices =>
        refine ⟨⟨fun _ => ⟨slices, rfl⟩, fun _ => rfl⟩, ?_, fun hcode => absurd rfl hcode⟩
        rintro _ ⟨⟩
        rfl
    | error reason =>
        exact ⟨⟨nofun, nofun⟩, nofun, fun _ => ⟨rfl, rfl, _, rfl⟩⟩

end CommandLine.Ending

end MachImage
