import Estree.Options

/-!
# Command lines

A command line names one source file, and the options around it may stand in any order. `--` ends
the options. `Command.ofArguments` reads the arguments from left to right and stops at the first
that does not fit, or that asks for the version or for help instead.
-/

namespace Estree

/-- What a command line asks for. -/
structure Command where
  /-- The path of the source, `-` for standard input. -/
  input : String
  pretty : Bool := false
  script : Bool := false
  target : Option Target := none
  /-- The path of a file with options. -/
  config : Option String := none
  /-- The path of a tree to compare with. -/
  reference : Option String := none
  deriving DecidableEq, Repr, Inhabited

namespace Command

/-- Why there is nothing to convert. -/
inductive Stop where
  | usage
  | version
  | help
  deriving DecidableEq, Repr, Inhabited

/-- An option without a value. -/
inductive Flag where
  | pretty
  | script
  | version
  | help
  deriving DecidableEq, Repr

/-- An option with a value. -/
inductive Parameter where
  | target
  | config
  | reference
  deriving DecidableEq, Repr

def Flag.ofName? : String → Option Flag
  | "pretty" => some pretty
  | "script" => some script
  | "version" => some version
  | "help" => some help
  | _ => none

def Flag.ofLetter? : Char → Option Flag
  | 'p' => some pretty
  | 'V' => some version
  | 'h' => some help
  | _ => none

def Parameter.ofName? : String → Option Parameter
  | "target" => some target
  | "config" => some config
  | "compare" => some reference
  | _ => none

/-- What an argument looks like. -/
inductive Word where
  /-- The end of the options. -/
  | terminator
  /-- An option by its name, perhaps with a value after `=`. -/
  | long (name : String) (value : Option String)
  /-- Options by their letters. -/
  | short (letters : List Char)
  | plain
  deriving DecidableEq, Repr

/-- What an argument looks like. A single hyphen is no option. -/
def Word.ofString (s : String) : Word :=
  match s.toList with
  | ['-', '-'] => .terminator
  | '-' :: '-' :: cs =>
    let name := String.ofList (cs.takeWhile (· != '='))
    match cs.dropWhile (· != '=') with
    | [] => .long name none
    | _ :: value => .long name (some (String.ofList value))
  | '-' :: c :: cs => .short (c :: cs)
  | _ => .plain

/-- What the arguments so far say. -/
structure Draft where
  input : Option String := none
  pretty : Bool := false
  script : Bool := false
  target : Option Target := none
  config : Option String := none
  reference : Option String := none
  /-- The option whose value comes next. -/
  awaited : Option Parameter := none
  /-- Whether the options have ended. -/
  isLiteral : Bool := false
  deriving DecidableEq, Repr, Inhabited

namespace Draft

/-- Takes a source. There is only one, and its path is not empty. -/
def addInput (d : Draft) (path : String) : Except Stop Draft :=
  if d.input.isSome || path.isEmpty then .error .usage else .ok { d with input := some path }

/-- Takes an option without a value, at most once. -/
def addFlag (d : Draft) : Flag → Except Stop Draft
  | .pretty => if d.pretty then .error .usage else .ok { d with pretty := true }
  | .script => if d.script then .error .usage else .ok { d with script := true }
  | .version => .error .version
  | .help => .error .help

/-- Takes the value of an option, at most one. A path is not empty. -/
def addValue (d : Draft) (parameter : Parameter) (value : String) : Except Stop Draft :=
  let d := { d with awaited := none }
  match parameter with
  | .target =>
    match d.target, Target.ofName? value with
    | none, some target => .ok { d with target := some target }
    | _, _ => .error .usage
  | .config =>
    if d.config.isSome || value.isEmpty then .error .usage
    else .ok { d with config := some value }
  | .reference =>
    if d.reference.isSome || value.isEmpty then .error .usage
    else .ok { d with reference := some value }

/-- Takes an option by its name. -/
def addLong (d : Draft) (name : String) (value : Option String) : Except Stop Draft :=
  match Flag.ofName? name, Parameter.ofName? name, value with
  | some flag, _, none => d.addFlag flag
  | _, some parameter, some value => d.addValue parameter value
  | _, some parameter, none => .ok { d with awaited := some parameter }
  | _, _, _ => .error .usage

/-- Takes options by their letters. -/
def addShort (d : Draft) (letters : List Char) : Except Stop Draft :=
  letters.foldlM (fun d c => match Flag.ofLetter? c with
    | some flag => d.addFlag flag
    | none => .error .usage) d

/-- Takes an argument. An option that awaits its value takes a plain one only. -/
def add (d : Draft) (arg : String) : Except Stop Draft :=
  if d.isLiteral then d.addInput arg
  else match d.awaited, Word.ofString arg with
    | some parameter, .plain => d.addValue parameter arg
    | some _, _ => .error .usage
    | none, .plain => d.addInput arg
    | none, .terminator => .ok { d with isLiteral := true }
    | none, .long name value => d.addLong name value
    | none, .short letters => d.addShort letters

/-- The command, once all arguments are there. -/
def finish (d : Draft) : Except Stop Command :=
  match d.input, d.awaited with
  | some input, none =>
    .ok { input, pretty := d.pretty, script := d.script, target := d.target
          config := d.config, reference := d.reference }
  | _, _ => .error .usage

end Draft

/-- Reads the arguments of a command line. -/
def ofArguments (args : List String) : Except Stop Command := do
  (← args.foldlM Draft.add {}).finish

end Command

end Estree
