import Std.Time.DateTime.Timestamp
import Std.Time.Date.PlainDate
import MachImage.CommandLine.Run

/-!
# The program

Reads the command line, sets up logging, reads the file and prints the report.  The exit code
tells how it went: 0 for success, 1 for a command that failed or logging that could not be set
up, 2 for a command line that makes no sense.  Of logging only the set-up is here: its options are
read and its file is made, but no records are written.
-/

namespace MachImage.CommandLine

/-- What is shown on how to use the program. -/
def usage : List String := [
  "Inspect Mach-O and universal binaries",
  "",
  "usage: machimage info FILE",
  "       machimage sections FILE [--dump]",
  "       machimage symbols FILE [--dynamic] [--demangle]",
  "       machimage detect FILE",
  "",
  "settings: --stub-size legacy|section|arch|BYTES, --log-level LEVEL,",
  "          --log-format pretty|json, --log-dir DIRECTORY"]

/-- What the system tells of an error. -/
def systemReason : IO.Error → String
  | .alreadyExists _ code text | .otherError code text | .resourceBusy code text
  | .resourceVanished code text | .unsupportedOperation code text | .hardwareFault code text
  | .unsatisfiedConstraints code text | .illegalOperation code text | .protocolError code text
  | .timeExpired code text | .interrupted _ code text | .noFileOrDirectory _ code text
  | .invalidArgument _ code text | .permissionDenied _ code text
  | .resourceExhausted _ code text | .inappropriateType _ code text
  | .noSuchThing _ code text => s!"{text} (os error {code})"
  | .unexpectedEof => "unexpected end of file"
  | .userError text => text

/-- What stands under the name of a file. -/
def fileContent (file : String) : IO FileContent := do
  let handle ← try IO.FS.Handle.mk file .read
    catch error => return .closed (systemReason error)
  try return .bytes (← handle.readBinToEnd).data
  catch _ => return .unreadable

/-- The day it is, everywhere by the same clock. -/
def today : IO Log.Date := do
  let date := Std.Time.PlainDate.ofEpochDay (← Std.Time.Timestamp.now).toDaysSinceUnixEpoch
  match Log.Date.of? date.year date.month.toNat date.day.toNat with
  | some date => return date
  | none => throw (.userError "the clock is wrong")

/-- Sets up logging as the invocation and the environment ask for. -/
def setUpLogging (invocation : Invocation) : IO (Except Log.SetupError Unit) := do
  let environment : Log.Environment :=
    { format? := ← IO.getEnv "MACHSCOPE_LOG_FORMAT", file? := ← IO.getEnv "MACHSCOPE_LOG_FILE" }
  match Log.plan invocation.logging environment (← today) with
  | .error error => return .error (.option error)
  | .ok { file? := none, .. } => return .ok ()
  | .ok { file? := some file, .. } =>
    try IO.FS.createDirAll file.directory
    catch error => return .error (.file (systemReason error))
    let _ ← IO.FS.Handle.mk (file.directory ++ "/" ++ file.name) .append
    return .ok ()

def finish (ending : Ending) : IO UInt32 := do
  ending.printed.forM IO.println
  ending.complaints.forM IO.eprintln
  return ending.code

end MachImage.CommandLine

open MachImage.CommandLine in
/-- Runs the program. -/
def main (arguments : List String) : IO UInt32 := do
  match parse arguments with
  | .error .displayHelp => usage.forM IO.println; return 0
  | .error .displayVersion => IO.println "machimage"; return 0
  | .error _ => usage.forM IO.eprintln; return 2
  | .ok invocation =>
    match ← setUpLogging invocation with
    | .error error => finish (.ofSetupError error)
    | .ok () => finish (.ofResult (run invocation (← fileContent invocation.file)))
