import Estree.Convert.Function
import Estree.Proofs.Cst
import Estree.Proofs.Target.Basic

/-!
# Where names are declared and values assigned

A few places of a node declare what stands there (`Cst.Introduces`), and a few assign to it
(`Cst.AssignsTo`). Either way it may be a pattern, whose parts are declared or assigned to as the
whole is (`Cst.PatternPart`, `Cst.TargetPart`). So what is declared in a tree is what can be reached
from such a place by such parts (`Cst.IsDeclared`), and likewise what is assigned to
(`Cst.IsAssigned`).
-/

namespace Estree.Cst

/-- A node declares what stands in one of its places: a variable, a parameter, what a handler
catches, or the variable of a loop. -/
inductive Introduces (n c : Cst) : Prop
  | variable : n.kind = .variableDeclarator → n.field? "name" = some c → Introduces n c
  | pattern : n.isParameter → n.field? "pattern" = some c → Introduces n c
  | listed : n.kind = .formalParameters → c ∈ n.named → Introduces n c
  /-- The parameter of an arrow function without parentheses, or of a handler. -/
  | single : n.field? "parameter" = some c → Introduces n c
  | loop : n.kind = .forInStatement → (n.field? "kind").isSome → n.field? "left" = some c →
    Introduces n c

/-- A part of a pattern that the pattern declares. -/
inductive PatternPart (n c : Cst) : Prop
  | listed : n.kind = .objectPattern ∨ n.kind = .arrayPattern → c ∈ n.parts → PatternPart n c
  | defaulted : n.kind = .assignmentPattern ∨ n.kind = .objectAssignmentPattern →
    n.field? "left" = some c → PatternPart n c
  | rest : n.kind = .restPattern → n.named.head? = some c → PatternPart n c
  | value : n.kind = .pairPattern → n.field? "value" = some c → PatternPart n c

/-- A node assigns to what stands in its field `left`: an assignment, or a loop that declares no
variable. -/
inductive AssignsTo (n c : Cst) : Prop
  | assignment : n.kind = .assignmentExpression ∨ n.kind = .augmentedAssignmentExpression →
    n.field? "left" = some c → AssignsTo n c
  | loop : n.kind = .forInStatement → n.field? "kind" = none → n.field? "left" = some c →
    AssignsTo n c

/-- A part of a target that is assigned to with it. -/
inductive TargetPart (n c : Cst) : Prop
  | inside : n.kind.targetForm = .wrapper → n.named.head? = some c → TargetPart n c
  | listed : n.kind.targetForm = .object ∨ n.kind.targetForm = .array → c ∈ n.parts → TargetPart n c
  | defaulted : n.kind.targetForm = .defaulted ∨ n.kind.memberForm = .defaulted →
    n.field? "left" = some c → TargetPart n c
  | rest : n.kind.targetForm = .rest → n.named.head? = some c → TargetPart n c
  | value : n.kind.memberForm = .pair → n.field? "value" = some c → TargetPart n c

/-- What a node of a tree has in a place of one kind, and what is reached from there by parts. -/
inductive Reached (place part : Cst → Cst → Prop) (tree : Cst) : Cst → Prop
  | place {n c : Cst} : n.IsNode tree → place n c → Reached place part tree c
  | part {n c : Cst} : Reached place part tree n → part n c → Reached place part tree c

/-- A node of a tree is a name or pattern that is declared. -/
def IsDeclared (tree : Cst) : Cst → Prop := Reached Introduces PatternPart tree

/-- A node of a tree is something that is assigned to. -/
def IsAssigned (tree : Cst) : Cst → Prop := Reached AssignsTo TargetPart tree

variable {n c tree : Cst}

theorem AssignsTo.mem_children (h : n.AssignsTo c) : c ∈ n.children := by
  cases h with
  | assignment _ hc | loop _ _ hc => exact mem_children_of_field? hc

theorem TargetPart.mem_children (h : n.TargetPart c) : c ∈ n.children := by
  cases h with
  | inside _ hc | rest _ hc => exact mem_children_of_mem_named (List.mem_of_head? hc)
  | listed _ hc => exact mem_children_of_mem_parts hc
  | defaulted _ hc | value _ hc => exact mem_children_of_field? hc

theorem IsAssigned.isNode (h : IsAssigned tree c) : c.IsNode tree := by
  induction h with
  | place hn hc => exact .child hn hc.mem_children
  | part _ hc ih => exact .child ih hc.mem_children

end Estree.Cst
