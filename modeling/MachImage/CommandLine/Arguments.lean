import MachImage.CommandLine.Invocation

/-!
# Reading arguments

`parse` reads the arguments of the program.  Settings may stand in front of the command and
behind it; behind it stand also its switches and its one file.  A setting takes its value
from the same argument, after an equals sign, or from the next one, unless that starts with
a dash.  Two dashes alone make everything behind them files.

The value of a setting and the name of the file are looked at only when the next argument
comes that has a meaning, or at the end.  Until then they are `Pending`, and a fault in them
is passed over if that argument has none.  The settings in front of a command are looked at
last of all.
-/

namespace MachImage.CommandLine

/-- An argument by its dashes. -/
inductive Word where
  /-- Two dashes alone. -/
  | escape
  /-- Two dashes and a name, with a value after an equals sign or without. -/
  | long (name : String) (value? : Option String)
  /-- One dash and a letter, with what follows them. -/
  | short (letter : Char)
  /-- Anything else. -/
  | plain (text : String)
  deriving DecidableEq, Repr

/-- The kind of an argument. -/
def Word.of (argument : String) : Word :=
  match argument.toList with
  | ['-', '-'] => .escape
  | '-' :: '-' :: rest =>
    let name := rest.takeWhile (· ≠ '=')
    .long (String.ofList name) <|
      if name.length < rest.length then some (String.ofList (rest.drop (name.length + 1)))
      else none
  | '-' :: letter :: _ => .short letter
  | _ => .plain argument

/-- Something given that has not been looked at yet. -/
inductive Pending where
  /-- A setting, with its value or still without. -/
  | setting (setting : Setting) (value? : Option String)
  /-- The file. -/
  | file (name : String)
  deriving DecidableEq, Repr

/-- What has been read behind a verb, or in front of it. -/
structure Scope where
  verb? : Option Verb
  settings : Settings := {}
  switches : List Switch := []
  file? : Option String := none
  pending? : Option Pending := none
  deriving DecidableEq, Repr

namespace Scope

def isWaiting (scope : Scope) : Bool :=
  match scope.pending? with
  | some (.setting _ none) => true
  | _ => false

def hasFile (scope : Scope) : Bool :=
  match scope.pending? with
  | some (.file _) => true
  | _ => scope.file?.isSome

/-- Looks at what is pending.  A setting needs a value and a file needs a name. -/
def settle (scope : Scope) : Except UsageError Scope :=
  match scope.pending? with
  | none => .ok scope
  | some (.setting _ none) => .error .invalidValue
  | some (.setting setting (some value)) => do
    return { scope with settings := ← scope.settings.set setting value, pending? := none }
  | some (.file name) =>
    if name.isEmpty then .error .invalidValue
    else .ok { scope with file? := some name, pending? := none }

def takeValue (scope : Scope) (value : String) : Scope :=
  match scope.pending? with
  | some (.setting setting none) =>
    { scope with pending? := some (.setting setting (some value)) }
  | _ => scope

/-- Ends reading, once what is pending has been looked at. -/
def finishWith (scope : Scope) (reason : UsageError) : Except UsageError Scope := do
  let _ ← scope.settle
  throw reason

/-- Reads a name behind two dashes, of something that takes no value. -/
def takeBare (scope : Scope) (value? : Option String)
    (action : Scope → Except UsageError Scope) : Except UsageError Scope :=
  if value?.isSome then .error .tooManyValues
  else do action (← scope.settle)

/-- Turns a switch on, which can be done once. -/
def turnOn (scope : Scope) (switch : Switch) : Except UsageError Scope :=
  if switch ∈ scope.switches then .error .argumentConflict
  else .ok { scope with switches := switch :: scope.switches }

/-- The switch with a name, among those of the verb. -/
def switch? (scope : Scope) (name : String) : Option Switch :=
  scope.verb?.bind fun verb => verb.switches.find? (·.name = name)

def takeLong (scope : Scope) (name : String) (value? : Option String) :
    Except UsageError Scope :=
  match Setting.ofName? name, scope.switch? name with
  | some setting, _ => do
    let scope ← scope.settle
    match value? with
    | some value => return { scope with settings := ← scope.settings.set setting value }
    | none => return { scope with pending? := some (.setting setting none) }
  | none, some switch => scope.takeBare value? (turnOn · switch)
  | none, none =>
    if name = "help" then scope.takeBare value? (finishWith · .displayHelp)
    else if name = "version" ∧ scope.verb? = none then
      scope.takeBare value? (finishWith · .displayVersion)
    else .error .unknownArgument

def takeShort (scope : Scope) (letter : Char) : Except UsageError Scope :=
  if letter = 'h' then scope.finishWith .displayHelp
  else if letter = 'V' ∧ scope.verb? = none then scope.finishWith .displayVersion
  else .error .unknownArgument

/-- Reads the name of the file, of which there is one. -/
def takeFile (scope : Scope) (name : String) : Except UsageError Scope :=
  if scope.hasFile then .error .unknownArgument
  else do return { ← scope.settle with pending? := some (.file name) }

/-- Reads the arguments behind a verb; behind two dashes alone they are `literal`. -/
def readBehindVerb (scope : Scope) (literal : Bool) : List String → Except UsageError Scope
  | [] => scope.settle
  | argument :: rest => do
    if literal then readBehindVerb (← scope.takeFile argument) true rest
    else match Word.of argument with
      | .escape => readBehindVerb scope true rest
      | .long name value? => readBehindVerb (← scope.takeLong name value?) false rest
      | .short letter => readBehindVerb (← scope.takeShort letter) false rest
      | .plain text =>
        if scope.isWaiting then readBehindVerb (scope.takeValue text) false rest
        else readBehindVerb (← scope.takeFile text) false rest

end Scope

def helpWord : String := "help"

def isVerb (word : String) : Bool := (Verb.ofName? word).isSome || word = helpWord

/-- What the word for help asks for with these arguments: help, on one command at most. -/
def helpOn : List String → UsageError
  | [] => .displayHelp
  | [topic] => if isVerb topic then .displayHelp else .invalidSubcommand
  | _ => .invalidSubcommand

/-- Reads a command behind its verb, and settles what stands in front of it. -/
def readCommand (front : Scope) (verb : Verb) (arguments : List String) :
    Except UsageError Invocation := do
  let scope ← Scope.readBehindVerb { verb? := some verb } false arguments
  match scope.file? with
  | none => throw .missingRequiredArgument
  | some file =>
    let front ← front.settle
    return { verb, file, switches := scope.switches
             settings := scope.settings.withDefaults front.settings }

/-- Reads the arguments in front of a verb, and all others behind it.  Two dashes alone
leave no room for a verb. -/
def readInFront (front : Scope) (literal : Bool) : List String → Except UsageError Invocation
  | [] => do
    let front ← front.settle
    throw <| if front.settings.isEmpty then .displayHelpOnMissingArgumentOrSubcommand
      else .missingSubcommand
  | argument :: rest => do
    if literal then
      throw <| if isVerb argument then .unknownArgument else .invalidSubcommand
    else match Word.of argument with
      | .escape => readInFront front true rest
      | .long name value? => readInFront (← front.takeLong name value?) false rest
      | .short letter => readInFront (← front.takeShort letter) false rest
      | .plain text =>
        if front.isWaiting then readInFront (front.takeValue text) false rest
        else if text = helpWord then throw (helpOn rest)
        else match Verb.ofName? text with
          | some verb => readCommand front verb rest
          | none => throw .invalidSubcommand

/-- Reads the arguments of the program. -/
def parse (arguments : List String) : Except UsageError Invocation :=
  readInFront { verb? := none } false arguments

end MachImage.CommandLine
