/-!
# Files of a working directory

A `Workspace` holds the texts of the files below a directory by their paths. Another path to a file
is followed name by name: `.` and an empty name stay where they are, `..` goes up, and each is
allowed only where there is a directory. Beyond the workspace nothing but directories above it is
known.
-/

namespace Estree

/-- Why a file cannot be read. -/
inductive FileError where
  | notFound
  | notDirectory
  | isDirectory
  | nameTooLong
  /-- The bytes are no UTF-8 text. -/
  | notText
  | other (reason : String)
  deriving DecidableEq, Repr, Inhabited

namespace FileError

/-- The message of the operating system, with its number of the error. -/
def message : FileError → String
  | notFound => "No such file or directory (os error 2)"
  | notDirectory => "Not a directory (os error 20)"
  | isDirectory => "Is a directory (os error 21)"
  | nameTooLong => "File name too long (os error 36)"
  | notText => "stream did not contain valid UTF-8"
  | other reason => reason

end FileError

namespace Path

/-- The names on a path, between its slashes. -/
def names (path : List Char) : List (List Char) :=
  path.foldr (fun c names => match c, names with
    | '/', _ => [] :: names
    | c, [] => [[c]]
    | c, name :: rest => (c :: name) :: rest) [[]]

/-- Whether a name stays at its place. -/
def isStill (name : List Char) : Bool := name == [] || name == ['.']

/-- Whether a path is the single hyphen that stands for standard input. -/
def isStdin (path : String) : Bool :=
  match names path.toList with
  | name :: rest => name == ['-'] && rest.all isStill
  | [] => false

/-- Where a path has led so far: how far above the workspace, and the names that lead down from
there. -/
structure Trail where
  above : Nat := 0
  names : List (List Char) := []
  deriving DecidableEq, Repr, Inhabited

/-- Follows one name. -/
def Trail.enter (t : Trail) (name : List Char) : Trail :=
  if isStill name then t
  else if name = ['.', '.'] then
    if t.names = [] then { t with above := t.above + 1 } else { t with names := t.names.dropLast }
  else { t with names := t.names ++ [name] }

end Path

/-- The texts of the files below a directory, by path. -/
structure Workspace where
  files : List (String × String) := []
  deriving Repr, Inhabited

namespace Workspace

/-- What stands at the end of a path. -/
inductive Entry where
  | file (text : String)
  | directory
  deriving DecidableEq, Repr

/-- What stands where a path has led, if anything. A directory needs a file below it. -/
def entry? (w : Workspace) (t : Path.Trail) : Option Entry :=
  if t.names = [] then some .directory
  else if t.above ≠ 0 then none
  else match w.files.find? fun file => Path.names file.1.toList == t.names with
    | some file => some (.file file.2)
    | none =>
      if w.files.any fun file => t.names.isPrefixOf (Path.names file.1.toList) then some .directory
      else none

/-- How many bytes a name may have. -/
def maxNameLength : Nat := 255

/-- How many bytes a path may have. -/
def maxPathLength : Nat := 4095

/-- Follows the names that are left of a path. -/
def follow (w : Workspace) : Path.Trail → List (List Char) → Except FileError Entry
  | t, [] =>
    match w.entry? t with
    | some entry => .ok entry
    | none => .error .notFound
  | t, name :: rest =>
    match w.entry? t with
    | none => .error .notFound
    | some (.file _) => .error .notDirectory
    | some .directory =>
      if (String.ofList name).utf8ByteSize > maxNameLength then .error .nameTooLong
      else follow w (t.enter name) rest

/-- The text of the file at a path. A path from the root leads out of the workspace. -/
def read (w : Workspace) (path : String) : Except FileError String :=
  if path.isEmpty then .error .notFound
  else if path.utf8ByteSize > maxPathLength then .error .nameTooLong
  else
    let start : Path.Trail := { above := if path.startsWith "/" then 1 else 0 }
    match follow w start (Path.names path.toList) with
    | .ok (.file text) => .ok text
    | .ok .directory => .error .isDirectory
    | .error e => .error e

end Workspace

end Estree
