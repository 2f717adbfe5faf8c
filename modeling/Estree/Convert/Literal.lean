import Estree.Convert.Context
import Estree.Number.Literal
import Estree.Text.Escape

/-!
# Literals and templates

The text of a literal is kept as it is written, beside its value. A template alternates between
parts of its text and expressions, beginning and ending with text: `Cst.gaps` gives the extents of
these parts.
-/

namespace Estree

namespace Cst

/-- The substitutions of a template. -/
def substitutions (n : Cst) : List Cst := n.named.filter (·.kind = .templateSubstitution)

/-- The extents of the text from an offset on, between the given substitutions and up to `stop`. -/
def gapsFrom (start stop : Nat) : List Cst → List (Nat × Nat)
  | [] => [(start, max stop start)]
  | c :: cs => (start, c.head.start) :: gapsFrom c.head.stop stop cs

/-- The extents of the text of a template, without its delimiters of one byte each. -/
def gaps (n : Cst) : List (Nat × Nat) :=
  gapsFrom (n.head.start + 1) (n.head.stop - 1) n.substitutions

end Cst

namespace Convert

variable {μ : Type} (ctx : Context μ) (convert : Converter μ)

/-- Whether there is a character and it has one byte, as a quote has. -/
def isOneByte (c : Option Char) : Bool := c.any (·.utf8Size == 1)

/-- The text between the quotes of a string. -/
def unquoted (raw : List Char) : List Char :=
  if isOneByte raw.head? && isOneByte raw.getLast? then (raw.drop 1).dropLast else []

/-- The value of the text of a string with its quotes. Where an escape is invalid it is the text
itself. -/
def stringValue (raw : List Char) : String :=
  String.ofList ((cook .string (unquoted raw)).getD (unquoted raw))

/-- A literal of the given value. -/
def literalNode (n : Cst) (value : LiteralValue) (regex : Option RegexLiteral) : Tree μ :=
  ctx.node n (.literal value (ctx.text n) regex)

/-- A regular expression literal. One that does not compile is kept without a value. -/
def regexLiteral (n : Cst) : Outcome (Tree μ) := do
  let pattern := ctx.text (← ctx.field n "pattern")
  let flags := ((n.field? "flags").map ctx.text).getD ""
  let regex : RegexLiteral := ⟨pattern, flags⟩
  if ctx.compiles pattern flags then
    return literalNode ctx n (.regExp (some regex)) (some regex)
  else do
    Outcome.record (.unusableRegex pattern flags)
    return literalNode ctx n (.regExp none) (some regex)

/-- A literal. Every other kind of syntax is unexpected. -/
def literal (n : Cst) : Outcome (Tree μ) :=
  match n.kind with
  | .trueLiteral => return literalNode ctx n (.boolean true) none
  | .falseLiteral => return literalNode ctx n (.boolean false) none
  | .nullLiteral => return literalNode ctx n .null none
  | .number =>
    match NumericLiteral.value? (ctx.text n).toList with
    | some d => return literalNode ctx n (.number d) none
    | none => ctx.unexpected n
  | .string => return literalNode ctx n (.string (stringValue (ctx.text n).toList)) none
  | .regex => regexLiteral ctx n
  | _ => ctx.unexpected n

/-- The part of the text of a template between two byte offsets. -/
def templateElement (n : Cst) (tail : Bool) (extent : Nat × Nat) : Tree μ :=
  let raw := ctx.source.slice extent.1 extent.2
  ctx.nodeAt n extent.1 extent.2 <|
    .templateElement ⟨(cook .template raw).map String.ofList, String.ofList raw⟩ tail

/-- A template: one part of text more than there are expressions, and the last one is the tail. -/
def template (n : Cst) : Outcome (Tree μ) := do
  let expressions ← n.substitutions.mapM fun c => do convert .expression (← ctx.firstNamed c)
  let quasis := n.gaps.dropLast.map (templateElement ctx n false)
    ++ n.gaps.getLast?.toList.map (templateElement ctx n true)
  return ctx.node n (.templateLiteral quasis expressions)

end Convert

end Estree
