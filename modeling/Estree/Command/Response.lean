import Estree.Ast.Encode
import Estree.Command.Arguments
import Estree.Command.Files
import Estree.Convert.Program
import Estree.Json.Parser
import Estree.Toml.Parser

/-!
# Responses to a command

`Command.outcome` carries out a command in given surroundings. The first step that fails decides the
message: reading the options, reading the source, converting it, reading the tree to compare with.
`Response.ofArguments` is what a command line as a whole answers: a failure prints nothing on the
standard output.
-/

namespace Estree

/-- What a command finds: the standard input, the files, a front end that builds the tree of a text
unless it gives up, and what the readers of options and of JSON say of a text that they do not take,
in words of their own. -/
structure Surroundings where
  stdin : Except FileError String
  read : String → Except FileError String
  parse : String → Option Cst
  configFault : String → String := fun _ => ""
  referenceFault : String → String := fun _ => ""

/-- Why a command fails. -/
inductive Failure where
  | unreadable (path : String) (e : FileError)
  /-- A file with options is no TOML document, or its values do not fit. -/
  | invalidConfig (path fault : String)
  /-- A tree to compare with is no JSON text. -/
  | invalidReference (path fault : String)
  /-- The front end has no tree. -/
  | noTree
  | unsupported (u : Unsupported)
  deriving DecidableEq, Repr, Inhabited

/-- The message of a failure. -/
def Failure.message : Failure → String
  | unreadable path e => "failed to read " ++ path ++ ": " ++ e.message
  | invalidConfig path fault => "invalid config " ++ path ++ ": " ++ fault
  | invalidReference path fault => "invalid JSON in " ++ path ++ ": " ++ fault
  | noTree => "front-end error: failed to parse TypeScript"
  | unsupported u => u.message

namespace Surroundings

variable (s : Surroundings)

/-- The text of a file, named in the message if it cannot be read. -/
def readFile (path : String) : Except Failure String :=
  (s.read path).mapError (.unreadable path)

/-- The text of a source. -/
def readSource (path : String) : Except Failure String :=
  if Path.isStdin path then s.stdin.mapError (.unreadable "stdin") else s.readFile path

/-- The options in a file. -/
def readConfig (path : String) : Except Failure Options := do
  let text ← s.readFile path
  match (Toml.parse? text.toList).bind Options.ofToml? with
  | some options => return options
  | none => throw (.invalidConfig path (s.configFault text))

/-- The tree in a file. -/
def readReference (path : String) : Except Failure Json := do
  let text ← s.readFile path
  match Json.parse? text.toList with
  | some j => return j.sorted
  | none => throw (.invalidReference path (s.referenceFault text))

end Surroundings

/-- What a command answers. -/
inductive Finding where
  /-- The tree of the source. -/
  | tree (json : Json)
  /-- Where the tree of the source differs from the one to compare with. -/
  | differences (ds : List Difference)
  deriving Repr

namespace Command

variable (c : Command) (s : Surroundings)

/-- The options of a conversion: those of the file, or the defaults, unless the command line says
otherwise. -/
def options : Except Failure Options := do
  let base ← match c.config with
    | some path => s.readConfig path
    | none => pure {}
  return {
    fileName := if Path.isStdin c.input then base.fileName else c.input
    sourceType := if c.script then .script else base.sourceType
    target := c.target.getD base.target }

/-- The converted source. -/
def program (options : Options) : Except Failure Node := do
  let text ← s.readSource c.input
  match s.parse text with
  | none => throw .noTree
  | some tree => (Program.check tree (.ofString text) options).result.mapError .unsupported

/-- Carries out a command. -/
def outcome : Except Failure Finding := do
  let program ← c.program s (← c.options s)
  match c.reference with
  | none => return .tree program.toJson
  | some path => return .differences (Json.diff (← s.readReference path) program.toJson.sorted)

end Command

/-- What a command line answers: an exit code, and what it prints. -/
structure Response where
  code : Nat := 0
  stdout : String := ""
  stderr : String := ""
  deriving DecidableEq, Repr, Inhabited

namespace Response

/-- A text on a line of its own. -/
def line (text : String) : String := text ++ "\n"

/-- The lines of the help text. -/
def help : List String := [
  "Convert TypeScript to an ESTree JSON tree",
  "",
  "Usage: normalize-estree [OPTIONS] <INPUT>",
  "",
  "Arguments:",
  "  <INPUT>  Source file, or `-` for stdin",
  "",
  "Options:",
  "  -p, --pretty           Pretty-print the JSON output",
  "      --script           Mark the program as a script instead of a module",
  "      --target <TARGET>  Language version the source targets: es5, es2015, esnext",
  "      --config <CONFIG>  TOML file with conversion options",
  "      --compare <JSON>   Compare against a reference ESTree JSON file instead of printing",
  "  -h, --help             Print help",
  "  -V, --version          Print version"]

/-- The response to a command that is not carried out. -/
def ofStop : Command.Stop → Response
  | .usage => { code := 2 }
  | .version => { stdout := line "normalize-estree 0.2.0" }
  | .help => { stdout := String.join (help.map line) }

/-- The response to a command that fails. -/
def ofFailure (f : Failure) : Response := { code := 1, stderr := line ("error: " ++ f.message) }

/-- The response to a command that is carried out. Only differences make it unsuccessful. -/
def ofFinding (pretty : Bool) : Finding → Response
  | .tree json => { stdout := line (if pretty then json.pretty else json.compact) }
  | .differences ds =>
    { code := if ds.isEmpty then 0 else 1, stdout := String.join (ds.map (line ·.text)) }

/-- The response to a command. -/
def ofCommand (c : Command) (s : Surroundings) : Response :=
  match c.outcome s with
  | .ok finding => ofFinding c.pretty finding
  | .error f => ofFailure f

/-- The response to a command line. -/
def ofArguments (args : List String) (s : Surroundings) : Response :=
  match Command.ofArguments args with
  | .ok c => ofCommand c s
  | .error stop => ofStop stop

end Response

end Estree
