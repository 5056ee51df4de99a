/-!
# Reading files by path

How a path names a file of the working directory, where that directory holds files only. A path may also lead above the working
directory, of which nothing is known, and to the root, below which lie the usual top directories and the null device and standard
input as files. The command line itself takes any function from paths to texts; this is the one without input and output.
-/

namespace SqlEngine.CommandLine

/-- Why a file could not be read. -/
inductive ReadFailure where
  | notFound
  | notDirectory
  | isDirectory
  /-- The path, or a name in it, is longer than a system takes. -/
  | nameTooLong
  | other (text : String)
  deriving DecidableEq, Repr

/-- The wording of a failure, with its number. -/
def ReadFailure.message : ReadFailure → String
  | .notFound => "No such file or directory (os error 2)"
  | .notDirectory => "Not a directory (os error 20)"
  | .isDirectory => "Is a directory (os error 21)"
  | .nameTooLong => "File name too long (os error 36)"
  | .other text => text

/-- The most bytes that a path may have. -/
def longestPath : Nat := 4095

/-- The most bytes that a name between slashes may have. -/
def longestName : Nat := 255

/-- The files of a directory: their names and texts. -/
abbrev Directory : Type := List (String × String)

/-- The names of the directories that lie below the root, the one of the devices left out. -/
def topDirectories : List String :=
  ["bin", "boot", "etc", "home", "lib", "media", "mnt", "opt", "proc", "root", "run", "sbin", "srv", "sys", "tmp", "usr", "var"]

/-- The place that a path has led to so far. -/
inductive Place where
  | root
  | directory (files : Directory) (belowRoot : Bool)
  | file (text : String)
  deriving DecidableEq, Repr

namespace Place

/-- The place above. It is known where it is the root, and else taken to hold nothing. -/
def above : Place → Place
  | root | directory _ true => root
  | directory _ false | file _ => directory [] false

/-- What a place holds under a name; `devices` are the files of the directory `dev`. -/
def entry? (devices : Directory) : Place → (name : String) → Option Place
  | root, name =>
    if name = "dev" then some (directory devices true)
    else if name ∈ topDirectories then some (directory [] true)
    else none
  | directory files _, name => (files.lookup name).map file
  | file _, _ => none

/-- One step along a path. No path leads from a file to anywhere, and a name is looked at only where it could be found. -/
def step (devices : Directory) (place : Place) (component : String) : Except ReadFailure Place :=
  match place with
  | file _ => .error .notDirectory
  | _ =>
    if component = "" ∨ component = "." then .ok place
    else if component = ".." then .ok place.above
    else if longestName < component.utf8ByteSize then .error .nameTooLong
    else match place.entry? devices component with
      | some next => .ok next
      | none => .error .notFound

/-- The text of a place. -/
def text : Place → Except ReadFailure String
  | file text => .ok text
  | root | directory _ _ => .error .isDirectory

end Place

/-- The text of the file that a path names, where standard input holds a text of its own. A path that begins with a slash begins
at the root. -/
def Directory.read (files : Directory) (standardInput path : String) : Except ReadFailure String := do
  if longestPath < path.utf8ByteSize then .error .nameTooLong
  else
    let devices := [("null", ""), ("stdin", standardInput)]
    let start := if path.startsWith "/" then Place.root else .directory files false
    (← (path.splitOn "/").foldlM (Place.step devices) start).text

end SqlEngine.CommandLine
