/-!
# Files by path

What a command finds under the paths that it is given.
* `Files` is all that a command knows about the files around it: their contents, or why they cannot be read.
* A `Directory` is a tree of files in memory, in which paths are followed name by name.
-/

namespace RainCheck

/-- Why a file cannot be read. -/
inductive FileError where
  /-- Nothing has this path. -/
  | missing
  /-- The path goes on behind a file. -/
  | notDirectory
  /-- The path leads to a directory. -/
  | isDirectory
  /-- The path, or a name in it, is too long. -/
  | nameTooLong
  /-- The file is not to be read. -/
  | denied
  deriving DecidableEq, Repr

namespace FileError

/-- What an error says about a path. -/
def text : FileError → String
  | .missing => "no such file or directory"
  | .notDirectory => "not a directory"
  | .isDirectory => "is a directory"
  | .nameTooLong => "file name too long"
  | .denied => "permission denied"

/-- The message about a path; a directory can be opened, but not read. -/
def message (path : String) (e : FileError) : String :=
  (if e = .isDirectory then "read " else "open ") ++ path ++ ": " ++ e.text

end FileError

/-- The contents of the files that can be read. -/
abbrev Files := String → Except FileError (List UInt8)

/-- Files by their paths below a directory. -/
structure Directory where
  files : List (String × List UInt8)
  deriving DecidableEq, Repr

namespace Directory

/-- What a path leads to. -/
inductive Place where
  /-- A directory below the one where the path starts, by the names on the way. -/
  | below (names : List String)
  /-- A directory above the one where the path starts. -/
  | above
  | file (bytes : List UInt8)
  deriving DecidableEq, Repr

/-- The names in a path. -/
def names (path : String) : List String := path.splitOn "/"

/-- The longest name, in bytes. -/
def maxName : Nat := 255

/-- The longest path, in bytes. -/
def maxPath : Nat := 4095

/-- What has a sequence of names below a directory; of files with the same path, the last one replaces the others. -/
def find (d : Directory) (path : List String) : Except FileError Place :=
  match (d.files.filter (names ·.1 = path)).getLast? with
  | some (_, bytes) => .ok (.file bytes)
  | none => if d.files.any (path.isPrefixOf <| names ·.1) then .ok (.below path) else .error .missing

/-- Follows one name of a path; nothing is above a directory that is `topmost`. -/
def follow (d : Directory) (topmost : Bool) (place : Place) (name : String) : Except FileError Place :=
  if name.isEmpty || name = "." then
    match place with
    | .file _ => .error .notDirectory
    | place => .ok place
  else
    match place with
    | .file _ => .error .notDirectory
    | .above =>
      if name = ".." then .ok .above
      else .error (if maxName < name.utf8ByteSize then .nameTooLong else .missing)
    | .below path =>
      if name = ".." then .ok (if path.isEmpty && !topmost then .above else .below path.dropLast)
      else if maxName < name.utf8ByteSize then .error .nameTooLong
      else d.find (path ++ [name])

/-- The files that exist everywhere. -/
def system : Directory := ⟨[("dev/null", [])]⟩

/-- Reads the file that a path leads to from a directory, or from the topmost one. -/
def read (d : Directory) : Files := fun path => do
  if path.isEmpty then .error .missing
  if maxPath < path.utf8ByteSize then .error .nameTooLong
  let topmost := path.startsWith "/"
  let start := if topmost then system else d
  match ← (names path).foldlM (start.follow topmost) (.below []) with
  | .file bytes => .ok bytes
  | _ => .error .isDirectory

end Directory

end RainCheck
