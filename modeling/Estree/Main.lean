import Estree.Command.Response
import Estree.Cst.Decode

/-!
# The program

Reads what a command line needs, hands it to `Response.ofArguments`, and prints the answer. The tree
of a source comes from a file beside it, as a front end has left it there: its name is that of the
source with `.tree` after it, and `stdin.tree` for standard input.
-/

namespace Estree

/-- The number of an error of the system, which may come as a negative 32-bit number. -/
def errorNumber (code : UInt32) : Nat := min code.toNat (Nat.pow 2 32 - code.toNat)

/-- What an error of the system says about a file. -/
def FileError.ofSystem (e : IO.Error) : FileError :=
  match e with
  | .noFileOrDirectory .. => .notFound
  | .inappropriateType _ code _ | .invalidArgument _ code _ =>
    match errorNumber code with
    | 20 => .notDirectory
    | 21 => .isDirectory
    | 36 => .nameTooLong
    | _ => .other (toString e)
  | _ => .other (toString e)

/-- The text that bytes write. -/
def FileError.decode (bytes : ByteArray) : Except FileError String :=
  match String.fromUTF8? bytes with
  | some text => .ok text
  | none => .error .notText

/-- The text of a file. -/
def readText (path : String) : IO (Except FileError String) := do
  try return FileError.decode (← IO.FS.readBinFile path)
  catch e => return .error (.ofSystem e)

/-- The text on standard input. -/
def readStdin : IO (Except FileError String) := do
  try return FileError.decode (← (← IO.getStdin).readBinToEnd)
  catch e => return .error (.ofSystem e)

/-- The tree in a file. -/
def readTree (path : String) : IO (Option Cst) := do
  match ← readText path with
  | .ok text => return (Json.parse? text.toList).bind Cst.ofJson?
  | .error _ => return none

/-- Reads what a command may ask for. The readers of this program say no more of a text than that
they do not take it. -/
def Command.surroundings (c : Command) : IO Surroundings := do
  let isStdin := Path.isStdin c.input
  let paths := c.config.toList ++ c.reference.toList ++ if isStdin then [] else [c.input]
  let texts ← paths.mapM fun path => return (path, ← readText path)
  let stdin ← if isStdin then readStdin else pure (.ok "")
  let tree ← readTree ((if isStdin then "stdin" else c.input) ++ ".tree")
  return {
    stdin
    read := fun path => (texts.lookup path).getD (.error .notFound)
    parse := fun _ => tree
    configFault := fun _ => "not a TOML document with known options"
    referenceFault := fun _ => "not a JSON text" }

/-- Reads what a command line may ask for. -/
def surroundingsOf (args : List String) : IO Surroundings :=
  match Command.ofArguments args with
  | .ok c => c.surroundings
  | .error _ =>
    return { stdin := .ok "", read := fun _ => .error .notFound, parse := fun _ => none }

end Estree

def main (args : List String) : IO UInt32 := do
  let response := Estree.Response.ofArguments args (← Estree.surroundingsOf args)
  IO.print response.stdout
  IO.eprint response.stderr
  return response.code.toUInt32
