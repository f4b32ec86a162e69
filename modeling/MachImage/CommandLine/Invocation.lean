import MachImage.Log.Options
import MachImage.StubSize

/-!
# Invocations

What a command line asks for: a command on a file, under some settings.  `UsageError` is
what it can ask for instead, or the reason why it cannot be understood.
-/

namespace MachImage.CommandLine

/-- A setting; every command has them. -/
inductive Setting where
  | logLevel
  | logFormat
  | logDir
  | stubSize
  deriving DecidableEq, Repr

/-- A switch; each command has its own. -/
inductive Switch where
  /-- Show the bytes of sections. -/
  | dump
  /-- List the symbols that are called through stubs. -/
  | dynamic
  /-- Show the paths that names stand for. -/
  | demangle
  deriving DecidableEq, Repr

/-- What a command does with its file. -/
inductive Verb where
  /-- Give an overview of each slice. -/
  | info
  /-- List the sections of each slice. -/
  | sections
  /-- List the symbols of each slice. -/
  | symbols
  /-- Tell whether the file is an image. -/
  | detect
  deriving DecidableEq, Repr

/-- Why a command line is not carried out. -/
inductive UsageError where
  | missingRequiredArgument
  | missingSubcommand
  | unknownArgument
  | invalidSubcommand
  | invalidValue
  | valueValidation
  | tooManyValues
  | argumentConflict
  | displayHelp
  | displayHelpOnMissingArgumentOrSubcommand
  | displayVersion
  deriving DecidableEq, Repr

namespace Setting

/-- The name of a setting, behind two dashes. -/
def name : Setting → String
  | logLevel => "log-level"
  | logFormat => "log-format"
  | logDir => "log-dir"
  | stubSize => "stub-size"

def ofName? (text : String) : Option Setting :=
  [logLevel, logFormat, logDir, stubSize].find? (·.name = text)

end Setting

namespace Switch

/-- The name of a switch, behind two dashes. -/
def name : Switch → String
  | dump => "dump"
  | dynamic => "dynamic"
  | demangle => "demangle"

end Switch

namespace Verb

def name : Verb → String
  | info => "info"
  | sections => "sections"
  | symbols => "symbols"
  | detect => "detect"

def ofName? (text : String) : Option Verb :=
  [info, sections, symbols, detect].find? (·.name = text)

def switches : Verb → List Switch
  | info => []
  | sections => [.dump]
  | symbols => [.dynamic, .demangle]
  | detect => []

end Verb

/-- The values of the settings that were given. -/
structure Settings where
  logLevel? : Option Log.Level := none
  logFormat? : Option Log.Format := none
  logDir? : Option String := none
  stubSize? : Option StubSize := none
  deriving DecidableEq, Repr

namespace Settings

def has (s : Settings) : Setting → Bool
  | .logLevel => s.logLevel?.isSome
  | .logFormat => s.logFormat?.isSome
  | .logDir => s.logDir?.isSome
  | .stubSize => s.stubSize?.isSome

def isEmpty (s : Settings) : Bool :=
  !(s.has .logLevel || s.has .logFormat || s.has .logDir || s.has .stubSize)

/-- Gives a setting its value.  A setting is given once, a directory has a name, and all
other values can be read. -/
def set (s : Settings) (setting : Setting) (value : String) : Except UsageError Settings :=
  if s.has setting then .error .argumentConflict
  else match setting with
    | .logLevel =>
      match Log.Level.parse value with
      | .ok level => .ok { s with logLevel? := some level }
      | .error _ => .error .valueValidation
    | .logFormat =>
      match Log.Format.parse value with
      | .ok format => .ok { s with logFormat? := some format }
      | .error _ => .error .valueValidation
    | .logDir =>
      if value.isEmpty then .error .invalidValue else .ok { s with logDir? := some value }
    | .stubSize =>
      match StubSize.parse value with
      | .ok size => .ok { s with stubSize? := some size }
      | .error _ => .error .valueValidation

/-- The settings of `inner`, and those of `outer` that `inner` lacks. -/
def withDefaults (inner outer : Settings) : Settings :=
  { logLevel? := inner.logLevel?.or outer.logLevel?
    logFormat? := inner.logFormat?.or outer.logFormat?
    logDir? := inner.logDir?.or outer.logDir?
    stubSize? := inner.stubSize?.or outer.stubSize? }

end Settings

/-- A command on a file, under some settings. -/
structure Invocation where
  verb : Verb
  file : String
  switches : List Switch := []
  settings : Settings := {}
  deriving DecidableEq, Repr

namespace Invocation

/-- How the size of a stub is found. -/
def stubSize (i : Invocation) : StubSize := i.settings.stubSize?.getD .legacy

/-- How records are to be logged. -/
def logging (i : Invocation) : Log.Choice where
  level? := i.settings.logLevel?
  format? := i.settings.logFormat?
  directory? := i.settings.logDir?

end Invocation

end MachImage.CommandLine
