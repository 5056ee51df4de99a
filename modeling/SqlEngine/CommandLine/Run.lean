import SqlEngine.CommandLine.Arguments
import SqlEngine.CommandLine.Directory
import SqlEngine.Database

/-!
# Running a script from the command line

A script is run against an empty database. If all its statements succeed, their rows are printed: one line for each row, with tabs
between its values, and an empty line after the rows of each statement that shows any. A log on standard error tells how the run
ended. The exit code is 0 for success, 1 for a script that could not be read or run, and 2 for arguments that make no sense.
-/

namespace SqlEngine.CommandLine

/-- The name that the program goes by. -/
def programName : String := "rowdb"

/-- The version of the program. -/
def programVersion : String := "0.1.0"

/-- The number of signs of a pattern that stand for other characters than themselves. -/
def wildcards (pattern : Pattern) : Nat :=
  pattern.countP fun
    | .exactly _ => false
    | _ => true

/-- The engine that the command line settles on. It goes by the wildcards of a pattern, which take up by far the most room. -/
instance : Pattern.Compiler where
  refusal text :=
    if wildcards (Pattern.read text) ≤ 10000 then none else some "Compiled regex exceeds size limit of 10485760 bytes."

/-- How serious an entry of the log is. -/
inductive Severity where
  | info | error
  deriving DecidableEq, Repr

/-- The severity as the log names it. -/
def Severity.name : Severity → String
  | .info => "INFO"
  | .error => "ERROR"

/-- An entry of the log. -/
structure LogEntry where
  severity : Severity
  message : String
  deriving DecidableEq, Repr

/-- What a run leaves behind. -/
structure Report where
  exitCode : UInt8
  output : String
  log : List LogEntry
  deriving DecidableEq, Repr

/-- A character of a message as the log shows it: control characters that could steer a terminal are spelled out. -/
def shown (c : Char) : String :=
  if c = '\x1b' then "\\x1b"
  else if c = '\x07' then "\\x07"
  else if c = '\x08' then "\\x08"
  else if c = '\x0c' then "\\x0c"
  else if c = '\x7f' then "\\x7f"
  else if 0x80 ≤ c.toNat ∧ c.toNat ≤ 0x9f then Text.codePointEscape c
  else String.singleton c

/-- An entry without its time. -/
def LogEntry.line (entry : LogEntry) : String :=
  entry.severity.name ++ " " ++ programName ++ ": " ++ String.join (entry.message.toList.map shown)

/-- The lines of a log. An entry whose message has several lines takes several lines. -/
def Report.lines (report : Report) : List String :=
  report.log.flatMap fun entry => entry.line.splitOn "\n"

/-- The version, as it is printed. -/
def versionText : String := programName ++ " " ++ programVersion ++ "\n"

/-- The help, as it is printed. -/
def helpText : String :=
  "Run SQL scripts against an in-memory rowdb\n\n" ++
  "Usage: rowdb [OPTIONS] [FILE]\n\n" ++
  "Arguments:\n" ++
  "  [FILE]  SQL script to run; read from stdin when omitted\n\n" ++
  "Options:\n" ++
  "  -c, --command <COMMAND>  Run a single SQL string instead of a script file\n" ++
  "  -h, --help               Print help\n" ++
  "  -V, --version            Print version\n"

/-- A row as it is printed. -/
def rowLine (row : Row) : String :=
  String.intercalate "\t" (row.map Value.render) ++ "\n"

/-- The rows of one statement as they are printed. -/
def rowsText (rows : List Row) : String :=
  if rows.isEmpty then "" else String.join (rows.map rowLine) ++ "\n"

/-- A run that failed with a message. -/
def Report.failure (message : String) : Report :=
  { exitCode := 1, output := "", log := [⟨.error, message⟩] }

/-- Runs the statements of a text against an empty database. -/
def runScript (text : String) : Report :=
  match ((Database.runScript text).run .empty).1.result with
  | .error cause => .failure ("script failed: " ++ cause.message)
  | .ok results =>
    { exitCode := 0
      output := String.join (results.map rowsText)
      log := [⟨.info, "script finished statements=" ++ toString results.length⟩] }

/-- Runs a text that had to be read first, or tells of what it could not be read. -/
def runRead (source : String) : Except ReadFailure String → Report
  | .ok text => runScript text
  | .error failure => .failure ("failed to read " ++ source ++ ": " ++ failure.message)

/-- Answers a request; `content` is what the file or standard input that it names holds. -/
def answer (content : Except ReadFailure String) : Request → Report
  | .version => { exitCode := 0, output := versionText, log := [] }
  | .help => { exitCode := 0, output := helpText, log := [] }
  | .run (.command text) => runScript text
  | .run (.file path) => runRead path content
  | .run .standardInput => runRead "stdin" content

/-- What a request reads, where files are those of a directory and standard input holds a text. -/
def Request.content (files : Directory) (standardInput : String) : Request → Except ReadFailure String
  | .run (.file path) => files.read standardInput path
  | _ => .ok standardInput

/-- Answers arguments that make no sense with the exit code alone, and others by what they request. -/
def run (arguments : List String) (files : Directory) (standardInput : String) : Report :=
  match request arguments with
  | .error _ => { exitCode := 2, output := "", log := [] }
  | .ok request => answer (request.content files standardInput) request

end SqlEngine.CommandLine
