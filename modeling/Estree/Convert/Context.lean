import Estree.Ast.Tree
import Estree.Convert.Outcome
import Estree.Cst.Basic

/-!
# The context of a conversion

A conversion reads one text. What it looks up in the concrete tree or in the text, and how it makes
a node or stops, is here; the rules for the kinds of syntax are in the modules beside.

A node of the result is marked with what the context makes of its syntax and its extent in bytes. It
covers the text from the first to the last token of its syntax that is not extra, so comments at its
ends do not belong to it.
-/

namespace Estree

/-- What a conversion reads and what it puts on its nodes. -/
structure Context (μ : Type) where
  /-- The text that the concrete tree is read over. -/
  source : Source
  sourceType : SourceType
  /-- Whether a regular expression with a pattern and flags compiles. -/
  compiles : String → String → Bool
  /-- The mark of a node, from its syntax and the byte offsets of its start and end. -/
  mark : Cst → Nat → Nat → μ

/-- What a piece of syntax is to be read as. -/
inductive Role where
  /-- A statement, or an import or export. -/
  | moduleItem
  | statement
  /-- A statement in braces. -/
  | block
  /-- The first or second part of the head of a `for` statement. -/
  | forPart
  | declarator
  | switchCase
  | catchClause
  | expression
  | objectMember
  | propertyKey
  | parameter
  | classMember
  /-- A name or pattern that is declared. -/
  | binding
  | bindingMember
  /-- An expression or pattern that is assigned to. -/
  | target
  | targetMember
  deriving DecidableEq, Repr, Inhabited

/-- A way to convert syntax in every role. A rule gets one for the syntax below its own. -/
abbrev Converter (μ : Type) := Role → Cst → Outcome (Tree μ)

namespace Context

variable {μ : Type} (ctx : Context μ)

/-- The text that a node covers. -/
def text (n : Cst) : String := String.ofList (ctx.source.slice n.head.start n.head.stop)

/-- The node that a piece of syntax yields between two byte offsets. -/
def nodeAt (n : Cst) (start stop : Nat) (shape : Shape (Tree μ)) : Tree μ :=
  .mk shape (ctx.mark n start stop)

/-- The node that a piece of syntax yields as a whole. -/
def node (n : Cst) (shape : Shape (Tree μ)) : Tree μ := ctx.nodeAt n n.firstByte n.lastByte shape

/-- The failure at a piece of syntax. -/
def unsupported (n : Cst) : Unsupported := ⟨n.kindName, ctx.source.position n.head.start⟩

/-- Stops at a piece of syntax. -/
def unexpected {α : Type} (n : Cst) : Outcome α := .fail (ctx.unsupported n)

/-- The child in a field. Where it is missing the node that lacks it is unexpected. -/
def field (n : Cst) (name : String) : Outcome Cst :=
  match n.field? name with
  | some c => pure c
  | none => ctx.unexpected n

/-- The first named child. Where there is none the node is unexpected. -/
def firstNamed (n : Cst) : Outcome Cst :=
  match n.named.head? with
  | some c => pure c
  | none => ctx.unexpected n

/-- The identifier whose name is the text of a node. -/
def identifier (n : Cst) : Tree μ := ctx.node n (.identifier (ctx.text n))

/-- The private name that a node writes, without its number sign. -/
def privateIdentifier (n : Cst) : Tree μ :=
  let text := ctx.text n
  let name := match text.toList with
    | '#' :: rest => String.ofList rest
    | _ => text
  ctx.node n (.privateIdentifier name)

/-- Stops at a node unless it is of the given kind. -/
def expect (kind : Kind) (n : Cst) : Outcome Unit :=
  if n.kind = kind then pure () else ctx.unexpected n

/-- Stops at the first node of a list if there is one. -/
def reject (ns : List Cst) : Outcome Unit :=
  match ns with
  | [] => pure ()
  | n :: _ => ctx.unexpected n

end Context

/-- Runs a conversion on a value that may be absent. -/
def Outcome.onSome {α β : Type} (f : α → Outcome β) : Option α → Outcome (Option β)
  | none => pure none
  | some a => do return some (← f a)

namespace Cst

/-- The decorators among the named children. -/
def decorators (n : Cst) : List Cst := n.named.filter (·.head.label == "decorator")

/-- The slots of a list between brackets, each with its element or empty, given whether there is no
element since the last comma. A comma ends a slot; the last slot needs an element. -/
def slotsOf (empty : Bool) : List Cst → List (Option Cst)
  | [] => []
  | c :: cs =>
    if c.head.isNamed then some c :: slotsOf false cs
    else if c.isToken "," then (if empty then [none] else []) ++ slotsOf true cs
    else slotsOf empty cs

/-- The slots of an array or an array pattern. -/
def slots (n : Cst) : List (Option Cst) := slotsOf true n.parts

end Cst

end Estree
