import Estree.Ast.Node
import Estree.Convert.Module
import Estree.Cst.Diagnostics
import Estree.Options
import Estree.Regex.Pattern

/-!
# Programs

`Convert.rule` is the rule for each role, and it gets a way to convert what is below. `Convert.run`
ties the knot: it applies the rules level by level. A tree of height `h` has no more than `h`
levels, so `Convert.convert` never runs out of them: it obeys the rules without any count, as
`Convert.convert_eq` says.

`Program.convert` converts the tree of a program, and `Program.check` also tells of the damage in
it.
-/

namespace Estree

namespace Convert

variable {μ : Type} (ctx : Context μ)

/-- The rule for a role, given a way to convert what is below. -/
def rule (convert : Converter μ) : Role → Cst → Outcome (Tree μ)
  | .moduleItem => moduleItem ctx convert
  | .statement => statement ctx convert
  | .block => block ctx convert
  | .forPart => forPart ctx convert
  | .declarator => declarator ctx convert
  | .switchCase => switchCase ctx convert
  | .catchClause => catchClause ctx convert
  | .expression => expression ctx convert
  | .objectMember => objectMember ctx convert
  | .propertyKey => propertyKey ctx convert
  | .parameter => parameter ctx convert
  | .classMember => classMember ctx convert
  | .binding => binding ctx convert
  | .bindingMember => bindingMember ctx convert
  | .target => target ctx convert (expression ctx convert)
  | .targetMember => targetMember ctx convert

/-- Applies the rules down to the given number of levels. -/
def run : Nat → Converter μ
  | 0 => fun _ n => ctx.unexpected n
  | levels + 1 => rule ctx (run levels)

/-- Converts syntax in a role. -/
def convert (role : Role) (n : Cst) : Outcome (Tree μ) := run ctx n.height role n

/-- Converts the tree of a program, which covers the whole text. A line for the shell at the start
is no part of the program. -/
def program (root : Cst) : Outcome (Tree μ) := do
  ctx.expect .program root
  let items := root.named.filter (·.kind != .hashBangLine)
  let body ← items.mapM (convert ctx .moduleItem)
  return ctx.nodeAt root 0 ctx.source.size (.program body ctx.sourceType)

end Convert

/-- An entry of the log of a conversion. -/
inductive LogEntry where
  /-- The tree has error or missing nodes. -/
  | damage (diagnostics : Nat) (file : String)
  /-- The conversion begins. -/
  | started (file : String) (target : Target)
  | event (e : Event)
  deriving DecidableEq, Repr, Inhabited

/-- The message of an entry; the beginning of a conversion has a name in its place. -/
def LogEntry.message : LogEntry → String
  | damage .. => "front-end reported syntax errors"
  | started .. => "convert"
  | event e => e.message

/-- The log of a conversion, and the program unless it failed. -/
structure Report where
  log : List LogEntry
  result : Except Unsupported Node

/-- The report of a conversion under options. -/
def Report.ofOutcome (options : Options) (outcome : Outcome Node) : Report where
  log := .started options.fileName options.target :: outcome.events.map .event
  result := outcome.result

namespace Program

/-- The context that options give for a text: nodes are labelled with their places in it. -/
def context (source : Source) (options : Options) : Context Label where
  source
  sourceType := options.sourceType
  compiles pattern flags := Regex.compiles pattern.toList flags.toList
  mark _ start stop := .ofBytes source options.fileName start stop

/-- Converts a tree over a text. -/
def convert (tree : Cst) (source : Source) (options : Options) : Report :=
  .ofOutcome options (Convert.program (context source options) tree)

/-- Converts a tree over a text, and first tells how many error and missing nodes it has. They do
not stop the conversion by themselves. -/
def check (tree : Cst) (source : Source) (options : Options) : Report :=
  let report := convert tree source options
  if tree.diagnostics = 0 then report
  else { report with log := .damage tree.diagnostics options.fileName :: report.log }

end Program

end Estree
