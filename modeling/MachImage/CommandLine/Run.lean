import MachImage.CommandLine.Arguments
import MachImage.Mangling
import MachImage.Reader
import MachImage.Report

/-!
# Running commands

`run` carries out an invocation on the file that it names, and gives the lines to print.
Nothing is printed of a file that cannot be decoded as a whole.  `execute` does the same on a
`Console`, line by line, and an `Ending` is what the program leaves behind.

Names can be shown by any demangler; the program has the one of `Mangling`.
-/

namespace MachImage.CommandLine

/-- What is found under the name of a file. -/
inductive FileContent where
  /-- Something that cannot be opened, for this reason of the system. -/
  | closed (reason : String)
  /-- Something that can be opened but not read, as a directory. -/
  | unreadable
  /-- A file with these bytes. -/
  | bytes (input : Input)
  deriving DecidableEq, Repr

def FileContent.missing : FileContent := closed "No such file or directory (os error 2)"

/-- Why a command failed. -/
inductive RunError where
  /-- The file cannot be opened, for this reason of the system. -/
  | closedFile (reason : String)
  | notAnImage (file : String)
  | decode (error : DecodeError)
  deriving DecidableEq, Repr

def RunError.message : RunError → String
  | closedFile reason => reason
  | notAnImage file => file ++ ": not a Mach-O or universal binary"
  | decode error => error.message

/-- Reads the slices of a file that starts with a magic number. -/
def decodeDetected (stubSize : StubSize) : Decoder (Option (Array Slice)) := do
  if ← Image.detect then return some (← Image.parse stubSize) else return none

/-- The slices of a file with these bytes. -/
def slices (stubSize : StubSize) (file : String) (input : Input) :
    Except RunError (Array Slice) :=
  match decodeDetected stubSize input {} with
  | .ok (some slices) _ => .ok slices
  | .ok none _ => .error (.notAnImage file)
  | .error error _ => .error (.decode error)

/-- Whether a file with these bytes starts with a magic number. -/
def isImage (input : Input) : Bool :=
  match Image.detect input {} with
  | .ok detected _ => detected
  | .error .. => false

/-- The line that tells whether a file is an image. -/
def detection (file : String) (detected : Bool) : String :=
  if detected then file ++ ": Mach-O" else (RunError.notAnImage file).message

/-- The report of a verb on one slice. -/
def report [Demangler] (invocation : Invocation) : (position : Nat) → Slice → List String :=
  let isOn (switch : Switch) : Bool := switch ∈ invocation.switches
  match invocation.verb with
  | .info => Report.info
  | .sections => Report.sections (isOn .dump)
  | .symbols => Report.symbols (if isOn .dynamic then .dynamic else .primary) (isOn .demangle)
  | .detect => fun _ _ => []

/-- The lines of the reports on the slices. -/
def reports [Demangler] (invocation : Invocation) (slices : Array Slice) : List String :=
  (slices.mapIdx (report invocation)).toList.flatten

/-- Carries out a command on a file with these bytes. -/
def runOn [Demangler] (invocation : Invocation) (input : Input) :
    Except RunError (List String) :=
  match invocation.verb with
  | .detect => .ok [detection invocation.file (isImage input)]
  | _ => do
    let slices ← slices invocation.stubSize invocation.file input
    return reports invocation slices

/-- Carries out a command, given what is found under the name of its file. -/
def run [Demangler] (invocation : Invocation) (content : FileContent) :
    Except RunError (List String) :=
  match content with
  | .closed reason => .error (.closedFile reason)
  | .unreadable =>
    match invocation.verb with
    | .detect => .ok [detection invocation.file false]
    | _ => .error (.notAnImage invocation.file)
  | .bytes input => runOn invocation input

/-! ### Consoles -/

/-- A program that prints text.  What was printed before it fails stays printed. -/
abbrev Console := ExceptT RunError (StateM String)

namespace Console

def printLine (line : String) : Console Unit := modify (· ++ (line ++ "\n"))

/-- The text of lines that are printed. -/
def text (lines : List String) : String := String.join (lines.map (· ++ "\n"))

/-- How a program ends, and what it has printed by then. -/
def output {α : Type} (program : Console α) : Except RunError α × String := program.run.run ""

/-- What is left on the console by the lines that a command gives, or by its error. -/
def ofResult : Except RunError (List String) → Except RunError Unit × String
  | .ok lines => (.ok (), text lines)
  | .error error => (.error error, "")

end Console

/-! ### Commands on a console -/

/-- The slices of a file, read with a fresh reader. -/
def fetch (stubSize : StubSize) (file : String) (input : Input) : Console (Array Slice) :=
  match (Session.decodeDetected stubSize).answer input {} with
  | .ok (some slices) => return slices
  | .ok none => throw (.notAnImage file)
  | .error error => throw (.decode error)

/-- Prints the reports on the slices, one after the other. -/
def printReports [Demangler] (invocation : Invocation) (slices : Array Slice) : Console Unit :=
  slices.toList.zipIdx.forM fun (slice, position) =>
    (report invocation position slice).forM Console.printLine

/-- Carries out a command on a file with these bytes. -/
def execute [Demangler] (invocation : Invocation) (input : Input) : Console Unit :=
  match invocation.verb with
  | .detect => Console.printLine (detection invocation.file (isImage input))
  | _ => do printReports invocation (← fetch invocation.stubSize invocation.file input)

/-! ### The end of the program -/

/-- How the program ends: what it prints, what it complains of, and its exit code. -/
structure Ending where
  printed : List String := []
  complaints : List String := []
  code : UInt32 := 0
  deriving DecidableEq, Repr

def Ending.ofSetupError (error : Log.SetupError) : Ending :=
  { complaints := ["Failed to initialize logging: " ++ error.message], code := 1 }

def Ending.ofResult : Except RunError (List String) → Ending
  | .ok lines => { printed := lines }
  | .error error => { complaints := ["Error: " ++ error.message], code := 1 }

end MachImage.CommandLine
