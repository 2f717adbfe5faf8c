import Estree.Cst.Kind

/-!
# Concrete syntax trees

The tree of a text as an error-tolerant parser delivers it. A node covers a range of bytes. Beside
the *named* nodes of the grammar there are anonymous tokens, *extra* nodes that may stand anywhere
(comments, and text that the parser skipped over), *error* nodes, and *missing* ones that the parser
has made up.

Nothing but the accessors below looks at the children of a node. `parts`, `named`, `token?`,
`firstByte` and `lastByte` leave out extra nodes; a field is looked up among all children.
-/

namespace Estree

namespace Cst

/-- A node without its children. -/
structure Head where
  /-- The name of its kind, and the text of an anonymous token. -/
  label : String
  isNamed : Bool := false
  isExtra : Bool := false
  isError : Bool := false
  isMissing : Bool := false
  /-- The byte offsets of its start and end. -/
  start : Nat
  stop : Nat
  /-- The role that its parent has it in. -/
  field : Option String := none
  deriving DecidableEq, Repr, Inhabited

end Cst

/-- A concrete syntax tree. -/
inductive Cst where
  | node (head : Cst.Head) (children : List Cst)
  deriving Repr, Inhabited

namespace Cst

def head : Cst → Head
  | node h _ => h

/-- All children, extra ones included. -/
def children : Cst → List Cst
  | node _ cs => cs

@[simp] theorem head_node (h : Head) (cs : List Cst) : (node h cs).head = h := rfl

@[simp] theorem children_node (h : Head) (cs : List Cst) : (node h cs).children = cs := rfl

/-- Whether a node is an error or missing. -/
def isDamaged (n : Cst) : Bool := n.head.isError || n.head.isMissing

/-- What a node is. Anonymous tokens and damaged nodes are of no kind of their own. -/
def kind (n : Cst) : Kind :=
  if n.isDamaged || !n.head.isNamed then .other else .ofName n.head.label

/-- How a node is called in a message. A leading underscore is not part of a name. -/
def kindName (n : Cst) : String :=
  if n.head.isError || n.head.label == "ERROR" then "syntax error"
  else if !n.head.isNamed then "\"" ++ n.head.label ++ "\""
  else match n.head.label.toList with
    | '_' :: rest => String.ofList rest
    | _ => n.head.label

/-! ## Children -/

/-- The children that are not extra. -/
def parts (n : Cst) : List Cst := n.children.filter (!·.head.isExtra)

/-- The named children that are not extra. -/
def named (n : Cst) : List Cst := n.parts.filter (·.head.isNamed)

/-- The first child in a field. -/
def field? (n : Cst) (name : String) : Option Cst :=
  n.children.find? (·.head.field == some name)

/-- The children in a field that are not extra. -/
def fields (n : Cst) (name : String) : List Cst := n.parts.filter (·.head.field == some name)

/-- Whether a node is the anonymous token with this text. -/
def isToken (n : Cst) (text : String) : Bool := !n.head.isNamed && n.head.label == text

/-- The anonymous child with this text. -/
def token? (n : Cst) (text : String) : Option Cst := n.parts.find? (·.isToken text)

/-- Whether there is an anonymous child with this text. -/
def hasToken (n : Cst) (text : String) : Bool := (n.token? text).isSome

theorem mem_children_of_mem_parts {c n : Cst} (h : c ∈ n.parts) : c ∈ n.children :=
  (List.mem_filter.1 h).1

theorem mem_parts_of_mem_named {c n : Cst} (h : c ∈ n.named) : c ∈ n.parts :=
  (List.mem_filter.1 h).1

theorem mem_children_of_mem_named {c n : Cst} (h : c ∈ n.named) : c ∈ n.children :=
  mem_children_of_mem_parts (mem_parts_of_mem_named h)

theorem mem_children_of_field? {c n : Cst} {name : String} (h : n.field? name = some c) :
    c ∈ n.children := List.mem_of_find?_eq_some h

theorem mem_parts_of_mem_fields {c n : Cst} {name : String} (h : c ∈ n.fields name) :
    c ∈ n.parts := (List.mem_filter.1 h).1

theorem mem_parts_of_token? {c n : Cst} {text : String} (h : n.token? text = some c) :
    c ∈ n.parts := List.mem_of_find?_eq_some h

/-! ## Extent -/

mutual

/-- The start of the first token of a node that is not extra. -/
def firstByte : Cst → Nat
  | node h cs => firstByteOf h.start cs

/-- The start of the first token of the first child that is not extra. -/
def firstByteOf (default : Nat) : List Cst → Nat
  | [] => default
  | c :: cs => if c.head.isExtra then firstByteOf default cs else c.firstByte

end

mutual

/-- The end of the last token of a node that is not extra. -/
def lastByte : Cst → Nat
  | node h cs => lastByteOf h.stop cs

/-- The end of the last token of the last child that is not extra. -/
def lastByteOf (default : Nat) : List Cst → Nat
  | [] => default
  | c :: cs => lastByteOf (if c.head.isExtra then default else c.lastByte) cs

end

/-! ## Size -/

mutual

/-- How many levels a tree has. -/
def height : Cst → Nat
  | node _ cs => heights cs + 1

/-- The height of the highest of several trees. -/
def heights : List Cst → Nat
  | [] => 0
  | c :: cs => max c.height (heights cs)

end

theorem height_pos (n : Cst) : 0 < n.height := by
  cases n
  rw [height]
  omega

theorem height_le_heights {c : Cst} {cs : List Cst} (h : c ∈ cs) : c.height ≤ heights cs := by
  induction cs with
  | nil => cases h
  | cons d cs ih =>
    rw [heights]
    cases h with
    | head => exact Nat.le_max_left ..
    | tail _ h => exact Nat.le_trans (ih h) (Nat.le_max_right ..)

theorem height_lt_of_mem_children {c n : Cst} (h : c ∈ n.children) : c.height < n.height := by
  cases n with
  | node head cs =>
    have := height_le_heights h
    rw [height]
    simp only [children_node] at this
    omega

end Cst

end Estree
