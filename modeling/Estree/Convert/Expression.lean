import Estree.Convert.Function

/-!
# Expressions

Parentheses and type wrappers leave no trace: what they hold is converted in their place. Optional
chains have no mapping. The operands of nested comma expressions form one list.
-/

namespace Estree

/-- The operators of assignments. -/
def assignmentOperators : List String :=
  ["=", "+=", "-=", "*=", "/=", "%=", "<<=", ">>=", ">>>=", "|=", "^=", "&=", "**=", "&&=", "||=",
   "??="]

/-- The binary operators that need not evaluate their right operand. -/
def logicalOperators : List String := ["||", "&&", "??"]

def updateOperators : List String := ["++", "--"]

def unaryOperators : List String := ["-", "+", "!", "~", "typeof", "void", "delete"]

namespace Cst

/-- The expression in a type wrapper. In an assertion `<T>x` it comes last, in the others first. -/
def wrapped? (n : Cst) : Option Cst :=
  if n.kind = .typeAssertion then n.named.getLast? else n.named.head?

end Cst

namespace Convert

variable {μ : Type} (ctx : Context μ) (convert : Converter μ)

/-- Stops at the first mark of an optional chain among the children. -/
def rejectOptionalChain (n : Cst) : Outcome Unit :=
  ctx.reject (n.parts.filter (·.kind == .optionalChain))

/-- The text of an operator, which must be one of the given ones. -/
def operator (allowed : List String) (n : Cst) : Outcome String :=
  if allowed.contains (ctx.text n) then return ctx.text n else ctx.unexpected n

/-- The expression in a type wrapper. -/
def typeWrapper (n : Cst) : Outcome (Tree μ) :=
  match n.wrapped? with
  | some operand => convert .expression operand
  | none => ctx.unexpected n

def unary (n : Cst) : Outcome (Shape (Tree μ)) := do
  let operator ← operator ctx unaryOperators (← ctx.field n "operator")
  let argument ← convert .expression (← ctx.field n "argument")
  return .unaryExpression operator true argument

/-- An increment or decrement. The operator is a prefix if it starts first. -/
def update (n : Cst) : Outcome (Shape (Tree μ)) := do
  let mark ← ctx.field n "operator"
  let argument ← ctx.field n "argument"
  let operator ← operator ctx updateOperators mark
  let argumentNode ← convert .expression argument
  return .updateExpression operator (mark.head.start < argument.head.start) argumentNode

def binary (n : Cst) : Outcome (Shape (Tree μ)) := do
  let operator := ctx.text (← ctx.field n "operator")
  let left ← convert .expression (← ctx.field n "left")
  let right ← convert .expression (← ctx.field n "right")
  return if logicalOperators.contains operator then .logicalExpression operator left right
    else .binaryExpression operator left right

mutual

/-- Converts the operands of a comma expression and puts them behind those that are done. A comma
expression directly inside gives its own operands. -/
def flatten (done : Array (Tree μ)) : Cst → Outcome (Array (Tree μ))
  | .node _ cs => flattenAll done cs

/-- Converts the operands among children of a comma expression. -/
def flattenAll (done : Array (Tree μ)) : List Cst → Outcome (Array (Tree μ))
  | [] => return done
  | c :: cs =>
    if c.head.isExtra || !c.head.isNamed then flattenAll done cs
    else if c.kind = .sequenceExpression then do
      flattenAll (← flatten done c) cs
    else do
      flattenAll (done.push (← convert .expression c)) cs

end

/-- A comma expression. -/
def sequence (n : Cst) : Outcome (Shape (Tree μ)) := do
  return .sequenceExpression (← flatten convert #[] n).toList

/-- The operator of an assignment: a field, or the token of a plain one. -/
def assignmentMark (n : Cst) : Outcome Cst :=
  match n.field? "operator" with
  | some mark => return mark
  | none =>
    match n.token? "=" with
    | some mark => return mark
    | none => ctx.unexpected n

def assignment (n : Cst) : Outcome (Shape (Tree μ)) := do
  let operator ← operator ctx assignmentOperators (← assignmentMark ctx n)
  let left ← convert .target (← ctx.field n "left")
  let right ← convert .expression (← ctx.field n "right")
  return .assignmentExpression operator left right

def conditional (n : Cst) : Outcome (Shape (Tree μ)) := do
  let test ← convert .expression (← ctx.field n "condition")
  let consequent ← convert .expression (← ctx.field n "consequence")
  let alternate ← convert .expression (← ctx.field n "alternative")
  return .conditionalExpression test consequent alternate

/-- The arguments of a call in parentheses. -/
def arguments (n : Cst) : Outcome (List (Tree μ)) := do
  ctx.expect .arguments n
  n.named.mapM (convert .expression)

/-- A call, or a tagged template if a template stands in place of the arguments. -/
def call (n : Cst) : Outcome (Shape (Tree μ)) := do
  rejectOptionalChain ctx n
  let callee ← convert .expression (← ctx.field n "function")
  let list ← ctx.field n "arguments"
  if list.kind = .templateString then
    return .taggedTemplateExpression callee (← convert .expression list)
  else
    return .callExpression callee (← arguments ctx convert list)

/-- The arguments of a creation, which may be absent. -/
def creationArguments (n : Cst) : Outcome (List (Tree μ)) :=
  match n.field? "arguments" with
  | some list => arguments ctx convert list
  | none => return []

/-- The creation of an object. The arguments come first. -/
def creation (n : Cst) : Outcome (Shape (Tree μ)) := do
  let args ← creationArguments ctx convert n
  let callee ← convert .expression (← ctx.field n "constructor")
  return .newExpression callee args

/-- The property of a member expression after the point. -/
def memberName (n : Cst) : Tree μ :=
  if n.kind = .privatePropertyIdentifier then ctx.privateIdentifier n else ctx.identifier n

def member (n : Cst) : Outcome (Shape (Tree μ)) := do
  rejectOptionalChain ctx n
  let property ← ctx.field n "property"
  let object ← convert .expression (← ctx.field n "object")
  return .memberExpression object (memberName ctx property) false

def subscript (n : Cst) : Outcome (Shape (Tree μ)) := do
  rejectOptionalChain ctx n
  let object ← convert .expression (← ctx.field n "object")
  let index ← convert .expression (← ctx.field n "index")
  return .memberExpression object index true

/-- A spread element, in an array, an object or a list of arguments. -/
def spread (n : Cst) : Outcome (Shape (Tree μ)) := do
  return .spreadElement (← convert .expression (← ctx.firstNamed n))

/-- A member of an object literal. -/
def objectMember (n : Cst) : Outcome (Tree μ) :=
  ctx.node n <$> match n.kind with
    | .pair => pairProperty ctx convert .expression n
    | .shorthandPropertyIdentifier => return shorthandProperty ctx n
    | .methodDefinition => objectMethod ctx convert n
    | .spreadElement => spread ctx convert n
    | _ => ctx.unexpected n

def yieldExpression (n : Cst) : Outcome (Shape (Tree μ)) := do
  let argument ← Outcome.onSome (convert .expression) n.named.head?
  return .yieldExpression argument (n.hasToken "*")

/-- An expression. -/
def expression (n : Cst) : Outcome (Tree μ) :=
  if n.kind.isIdentifier then return ctx.identifier n
  else if n.kind.isTypeWrapper then typeWrapper ctx convert n
  else match n.kind with
    | .thisKeyword => return ctx.node n .thisExpression
    | .superKeyword => return ctx.node n .super
    | .privatePropertyIdentifier => return ctx.privateIdentifier n
    | .parenthesizedExpression => do convert .expression (← ctx.firstNamed n)
    | .binaryExpression => ctx.node n <$> binary ctx convert n
    | .sequenceExpression => ctx.node n <$> sequence convert n
    | .assignmentExpression | .augmentedAssignmentExpression =>
      ctx.node n <$> assignment ctx convert n
    | .unaryExpression => ctx.node n <$> unary ctx convert n
    | .updateExpression => ctx.node n <$> update ctx convert n
    | .ternaryExpression => ctx.node n <$> conditional ctx convert n
    | .callExpression => ctx.node n <$> call ctx convert n
    | .newExpression => ctx.node n <$> creation ctx convert n
    | .memberExpression => ctx.node n <$> member ctx convert n
    | .subscriptExpression => ctx.node n <$> subscript ctx convert n
    | .array => (ctx.node n <| .arrayExpression ·) <$> elements convert .expression n
    | .object => (ctx.node n <| .objectExpression ·) <$> n.named.mapM (convert .objectMember)
    | .spreadElement => ctx.node n <$> spread ctx convert n
    | .yieldExpression => ctx.node n <$> yieldExpression convert n
    | .awaitExpression => do
      return ctx.node n (.awaitExpression (← convert .expression (← ctx.firstNamed n)))
    | .arrowFunction => function ctx convert .arrow n
    | .functionExpression | .generatorFunction => function ctx convert .expression n
    | .classExpression => classLike ctx convert false n
    | .templateString => template ctx convert n
    | _ => literal ctx n

end Convert

end Estree
