import LiveExpr.CommandLine
import Std.Time.DateTime.Timestamp

/-!
# The program

Runs the command line: reads the file that the arguments name, and writes the response.
-/

namespace LiveExpr

/-- Why a file cannot be read, in words. -/
def readFailure : IO.Error → String
  | .noFileOrDirectory .. => "No such file or directory (os error 2)"
  | .inappropriateType .. => "Is a directory (os error 21)"
  | .permissionDenied .. => "Permission denied (os error 13)"
  | _ => "stream did not contain valid UTF-8"

/-- The text of a file, or why it cannot be read. -/
def readText (path : String) : IO (Except String String) := do
  try
    let text ← IO.FS.readFile path
    pure (.ok text)
  catch e => pure (.error (readFailure e))

/-- The time by the system's clock. -/
def readClock : IO Timestamp := do
  let now ← Std.Time.Timestamp.now
  pure ⟨now.toSecondsSinceUnixEpoch.val, 0⟩

end LiveExpr

open LiveExpr in
def main (args : List String) : IO UInt32 := do
  let args := "program" :: args
  let text ← match CommandLine.pathOf? args with
    | some path => readText path
    | none => pure (.error "")
  let now ← readClock
  let response := CommandLine.respond (fun _ => text) now args
  (← IO.getStdout).putStr response.output
  (← IO.getStderr).putStr response.errors
  pure (UInt32.ofNat response.code)
