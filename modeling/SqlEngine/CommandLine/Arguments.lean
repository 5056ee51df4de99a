/-!
# Arguments

What the arguments ask for: the version, the help, or a script, which is given on the command line, in a file, or on standard
input. Arguments are read from left to right, so what stands before a wrong one and asks for the version or the help is answered.
A text and a file exclude each other, but this is found out at the end only.
-/

namespace SqlEngine.CommandLine

/-- Where the script is. -/
inductive Source where
  | command (text : String)
  | file (path : String)
  | standardInput
  deriving DecidableEq, Repr

/-- What the arguments ask for. -/
inductive Request where
  | version
  | help
  | run (source : Source)
  deriving DecidableEq, Repr

/-- Why arguments are not understood. -/
inductive UsageError where
  | unknownOption (argument : String)
  | valueMissing (option : String)
  | valueUnneeded (option : String)
  | repeated (option : String)
  | unexpectedFile (path : String)
  | emptyFile
  | fileWithCommand
  deriving DecidableEq, Repr

/-- The text and the file that were named so far. -/
structure Named where
  command : Option String
  file : Option String
  deriving DecidableEq, Repr

namespace Named

/-- Nothing was named. -/
def nothing : Named := ⟨none, none⟩

/-- Names a text; only one can be. -/
def withCommand (named : Named) (text : String) : Except UsageError Named :=
  if named.command.isSome then .error (.repeated "--command") else .ok { named with command := some text }

/-- Names a file; only one can be, and the empty name is none. -/
def withFile (named : Named) (path : String) : Except UsageError Named :=
  if named.file.isSome then .error (.unexpectedFile path)
  else if path = "" then .error .emptyFile
  else .ok { named with file := some path }

/-- The source that was named. -/
def source (named : Named) : Except UsageError Source :=
  match named.command, named.file with
  | some _, some _ => .error .fileWithCommand
  | some text, none => .ok (.command text)
  | none, some path => .ok (.file path)
  | none, none => .ok .standardInput

end Named

/-- What one argument means. -/
inductive Argument where
  | version
  | help
  | command (text : String)
  /-- The option for a text, whose text is the next argument. -/
  | commandNext
  | file (path : String)
  /-- All arguments after this one are files. -/
  | onlyFiles
  deriving DecidableEq, Repr

/-- The meaning of an option with a long name and of the text attached to it by an equals sign. -/
def Argument.ofLong (name : String) (attached : Option String) : Except UsageError Argument :=
  match name, attached with
  | "command", some text => .ok (.command text)
  | "command", none => .ok .commandNext
  | "version", none => .ok .version
  | "help", none => .ok .help
  | "version", some _ | "help", some _ => .error (.valueUnneeded ("--" ++ name))
  | _, _ => .error (.unknownOption ("--" ++ name))

/-- The meaning of an option with a short name and of what follows the name; one equals sign may stand between a name and its
text. -/
def Argument.ofShort (name : Char) (following : List Char) : Except UsageError Argument :=
  match name, following with
  | 'V', _ => .ok .version
  | 'h', _ => .ok .help
  | 'c', [] => .ok .commandNext
  | 'c', '=' :: text => .ok (.command (String.ofList text))
  | 'c', text => .ok (.command (String.ofList text))
  | _, _ => .error (.unknownOption (String.ofList ['-', name]))

/-- The meaning of an argument by its first characters; a lone hyphen is the name of a file. -/
def Argument.read (argument : String) : Except UsageError Argument :=
  match argument.toList with
  | ['-', '-'] => .ok .onlyFiles
  | '-' :: '-' :: long =>
    let name := String.ofList (long.takeWhile (· != '='))
    match long.dropWhile (· != '=') with
    | [] => ofLong name none
    | _ :: text => ofLong name (some (String.ofList text))
  | '-' :: name :: following => ofShort name following
  | _ => .ok (.file argument)

/-- The request of files alone. -/
def requestOfFiles (named : Named) : List String → Except UsageError Request
  | [] => named.source.map .run
  | path :: rest => do requestOfFiles (← named.withFile path) rest

/-- The request of arguments, when some were read before. The text after an option may not look like an option itself. -/
def requestFrom (named : Named) : List String → Except UsageError Request
  | [] => named.source.map .run
  | argument :: rest => do
    match ← Argument.read argument, rest with
    | .version, _ => return .version
    | .help, _ => return .help
    | .command text, rest => requestFrom (← named.withCommand text) rest
    | .file path, rest => requestFrom (← named.withFile path) rest
    | .onlyFiles, rest => requestOfFiles named rest
    | .commandNext, [] => .error (.valueMissing "--command")
    | .commandNext, text :: rest =>
      match Argument.read text with
      | .ok (.file _) => requestFrom (← named.withCommand text) rest
      | _ => .error (.valueMissing "--command")

/-- The request of the arguments. -/
def request (arguments : List String) : Except UsageError Request :=
  requestFrom .nothing arguments

/-- The wording of a usage error. -/
def UsageError.message : UsageError → String
  | .unknownOption argument => "unexpected argument '" ++ argument ++ "' found"
  | .valueMissing option => "a value is required for '" ++ option ++ "' but none was supplied"
  | .valueUnneeded option => "unexpected value for '" ++ option ++ "' found; no more were expected"
  | .repeated option => "the argument '" ++ option ++ "' cannot be used multiple times"
  | .unexpectedFile path => "unexpected argument '" ++ path ++ "' found"
  | .emptyFile => "a value is required for '[FILE]' but none was supplied"
  | .fileWithCommand => "the argument '[FILE]' cannot be used with '--command'"

end SqlEngine.CommandLine
