import SqlEngine.CommandLine.Run
import Std.Time.DateTime.PlainDateTime
import Std.Time.DateTime.Timestamp

/-!
# The program

Reads what the arguments name, and prints what `SqlEngine.CommandLine.answer` makes of it: rows to standard output, the log with
times to standard error.
-/

namespace SqlEngine.CommandLine

/-- The text of bytes that came from a file or from standard input. -/
def textOfBytes (bytes : ByteArray) : Except ReadFailure String :=
  match String.fromUTF8? bytes with
  | some text => .ok text
  | none => .error (.other "stream did not contain valid UTF-8")

/-- The number of an error of the system, which gives it with or without a minus sign. -/
def errorNumber (code : UInt32) : UInt32 := min code (0 - code)

/-- The failure that an error of the system means. -/
def ReadFailure.ofSystem (cause : IO.Error) : ReadFailure :=
  match cause with
  | .noFileOrDirectory _ _ _ => .notFound
  | .inappropriateType _ code _ => if errorNumber code = 20 then .notDirectory else .isDirectory
  | .permissionDenied _ _ _ => .other "Permission denied (os error 13)"
  | .invalidArgument _ code _ => if errorNumber code = 36 then .nameTooLong else .other (toString cause)
  | _ => .other (toString cause)

/-- The text of a file. -/
def readFile (path : String) : IO (Except ReadFailure String) := do
  try
    return textOfBytes (← IO.FS.readBinFile path)
  catch cause =>
    return .error (.ofSystem cause)

/-- All of standard input. -/
def readStandardInput : IO (Except ReadFailure String) := do
  try
    return textOfBytes (← (← IO.getStdin).readBinToEnd)
  catch cause =>
    return .error (.ofSystem cause)

/-- A number with zeros in front, up to a width. -/
def padded (width n : Nat) : String :=
  "".pushn '0' (width - (toString n).length) ++ toString n

/-- The present time in UTC, to the microsecond. -/
def timeNow : IO String := do
  let now := Std.Time.PlainDateTime.ofWallTime (.ofDuration (← Std.Time.Timestamp.now).toDurationSinceUnixEpoch)
  let date := [(4, now.year.toInt), (2, now.month.val), (2, now.day.val)].map fun (width, n) => padded width n.toNat
  let time := [now.hour.val, now.minute.val, now.second.val].map fun n => padded 2 n.toNat
  return String.intercalate "-" date ++ "T" ++ String.intercalate ":" time ++ "." ++
    padded 6 (now.nanosecond.val.toNat / 1000) ++ "Z"

/-- Writes an entry of the log. -/
def writeEntry (entry : LogEntry) : IO Unit := do
  let indent := "".pushn ' ' (5 - entry.severity.name.length)
  IO.eprintln ((← timeNow) ++ " " ++ indent ++ entry.line)

end SqlEngine.CommandLine

open SqlEngine.CommandLine in
/-- The command line. -/
def main (arguments : List String) : IO UInt32 := do
  match request arguments with
  | .error cause =>
    IO.eprintln ("error: " ++ cause.message ++ "\n\nUsage: rowdb [OPTIONS] [FILE]\n\nFor more information, try '--help'.")
    return 2
  | .ok request =>
    let content ← match request with
      | .run (.file path) => readFile path
      | .run .standardInput => readStandardInput
      | _ => pure (.ok "")
    let report := answer content request
    report.log.forM writeEntry
    IO.print report.output
    return report.exitCode.toUInt32
