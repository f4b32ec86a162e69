import MachImage.Log.Date

/-!
# Logging options

Records are logged in one of two formats, from one of five levels of importance on.  Both
are chosen by a word, in small letters or capitals, without blanks around it.  A log file
is named by its path, and it needs a name of its own there.

A `Plan` is how the records of one run are logged.  What is asked for on the command line
comes before what the environment asks for: a directory, which gets one file a day, before a
file, and a level or a format before those of the environment.
-/

namespace MachImage.Log

open Text

/-- Why a logging option cannot be used. -/
inductive OptionError where
  | invalidFormat (text : String)
  | invalidLevel (text : String)
  | invalidPath (path : String)
  deriving DecidableEq, Repr

def OptionError.message : OptionError → String
  | invalidFormat text => "Invalid log format: " ++ text ++ ". Use 'pretty' or 'json'"
  | invalidLevel text =>
    "Invalid log level: " ++ text ++ ". Use 'error', 'warn', 'info', 'debug', or 'trace'"
  | invalidPath path => "Invalid log file path: " ++ path

/-- How records are written. -/
inductive Format where
  /-- For people. -/
  | pretty
  /-- For programs, one object of JSON in each line. -/
  | json
  deriving DecidableEq, Repr, Inhabited

def Format.parse (text : String) : Except OptionError Format :=
  match String.ofList (lower text.toList) with
  | "pretty" | "text" => .ok .pretty
  | "json" => .ok .json
  | _ => .error (.invalidFormat text)

/-- The format that the environment asks for; what cannot be read is passed over. -/
def Format.ofEnvironment (setting? : Option String) : Format :=
  match setting?.map parse with
  | some (.ok format) => format
  | _ => .pretty

/-- How important a record is, the most important ones first. -/
inductive Level where
  | error
  | warn
  | info
  | debug
  | trace
  deriving DecidableEq, Repr

namespace Level

def parse (text : String) : Except OptionError Level :=
  match String.ofList (lower text.toList) with
  | "error" | "err" => .ok error
  | "warn" | "warning" => .ok warn
  | "info" => .ok info
  | "debug" | "dbg" => .ok debug
  | "trace" => .ok trace
  | _ => .error (.invalidLevel text)

/-- The place of a level in their order. -/
def rank : Level → Nat
  | error => 0
  | warn => 1
  | info => 2
  | debug => 3
  | trace => 4

/-- Whether a level is more important than another. -/
def isBelow (a b : Level) : Bool := a.rank < b.rank

end Level

/-- The components of a path, without empty ones and dots inside it. -/
def pathComponents (path : String) : List (List Char) :=
  let parts := path.toList.splitOn '/'
  let first := parts.take 1
  let others := parts.drop 1
  (first ++ others.filter (· ≠ ['.'])).filter (· ≠ [])

/-- The name of the file at the end of a path; no file is named by dots alone. -/
def fileName? (path : String) : Option String :=
  match (pathComponents path).getLast? with
  | some name => if name = ['.'] ∨ name = ['.', '.'] then none else some (String.ofList name)
  | none => none

/-- The directory that a path leads through, which is the current one if it names none. -/
def directoryName (path : String) : String :=
  let parts := (pathComponents path).dropLast.map String.ofList
  if path.toList.head? = some '/' then "/" ++ "/".intercalate parts
  else if parts = [] then "."
  else "/".intercalate parts

/-- A file to log to, in a directory that is made if it is missing. -/
structure LogFile where
  directory : String
  name : String
  deriving DecidableEq, Repr

/-- The file to log to, if the environment asks for one.  An empty setting asks for none. -/
def logFile (setting? : Option String) : Except OptionError (Option LogFile) :=
  match setting? with
  | none => .ok none
  | some path =>
    if path.isEmpty then .ok none
    else match fileName? path with
      | some name => .ok (some { directory := directoryName path, name })
      | none => .error (.invalidPath path)

/-! ### Setting up -/

/-- What the environment asks for. -/
structure Environment where
  format? : Option String := none
  file? : Option String := none

/-- What the command line asks for. -/
structure Choice where
  level? : Option Level := none
  format? : Option Format := none
  directory? : Option String := none

/-- How records are logged.  Without a level the environment tells which of them are. -/
structure Plan where
  level? : Option Level
  format : Format
  file? : Option LogFile
  deriving DecidableEq, Repr

/-- How the records of a day are logged.  A format that is chosen without a level or a
directory brings the usual level along. -/
def plan (choice : Choice) (environment : Environment) (today : Date) :
    Except OptionError Plan := do
  let format := choice.format?.getD (Format.ofEnvironment environment.format?)
  match choice.directory? with
  | some directory =>
    return { level? := choice.level?, format
             file? := some { directory, name := today.logFileName } }
  | none =>
    return { level? := choice.level?.or (choice.format?.map fun _ => .info), format
             file? := ← logFile environment.file? }

/-- Why logging cannot be set up. -/
inductive SetupError where
  | option (error : OptionError)
  /-- The file or its directory cannot be made, for this reason of the system. -/
  | file (reason : String)
  deriving DecidableEq, Repr

def SetupError.message : SetupError → String
  | option error => error.message
  | file reason => "File logging error: " ++ reason

end MachImage.Log
