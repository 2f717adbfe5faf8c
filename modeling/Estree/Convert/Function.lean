import Estree.Convert.Pattern

/-!
# Functions and classes

Type annotations, type parameters, return types and accessibility modifiers leave no trace. A
parameter `this`, which only carries a type, is left out. The body of a class is a list of methods
and accessors; every other member is unexpected.
-/

namespace Estree

namespace Cst

/-- Whether a node is a parameter of a function with its type. -/
def isParameter (n : Cst) : Bool := n.kind == .requiredParameter || n.kind == .optionalParameter

/-- Whether a node is a parameter `this`. -/
def isThisParameter (n : Cst) : Bool :=
  n.isParameter && n.decorators.isEmpty && (n.field? "pattern").any (·.kind == .thisKeyword)

/-- The texts of the anonymous tokens of a function or method before its name, if one is given, and
before its parameters. -/
def modifierTokens (n : Cst) (name : Option Cst) : List String :=
  let isBefore (c : Cst) : Bool :=
    name.all (c.head.start < ·.head.start) && c.kind != .formalParameters
  ((n.parts.takeWhile isBefore).filter (!·.head.isNamed)).map (·.head.label)

/-- The expression that a class extends: the value of the first extends clause, or a clause that is
an expression itself. What a class implements is of no kind and does not count. -/
def heritageClause? (n : Cst) : Option Cst :=
  (n.named.find? (·.kind == .classHeritage)).bind fun heritage =>
    heritage.named.find? (·.kind != .other)

end Cst

/-- The modifiers of a function or method. -/
structure Modifiers where
  isStatic : Bool
  isAsync : Bool
  generator : Bool
  getter : Bool
  setter : Bool
  deriving DecidableEq, Repr

/-- The modifiers that tokens write. One token may stand for two modifiers. -/
def Modifiers.ofTokens (tokens : List String) : Modifiers where
  isStatic := tokens.contains "static" || tokens.contains "static get"
  isAsync := tokens.contains "async"
  generator := tokens.contains "*"
  getter := tokens.contains "get" || tokens.contains "static get"
  setter := tokens.contains "set"

/-- The three forms of a function, which differ in whether it must, may or cannot have a name. -/
inductive FunctionForm where
  | declaration
  | expression
  | arrow
  deriving DecidableEq, Repr

/-- The shape of a function in a form. -/
def FunctionForm.shape {α : Type} (form : FunctionForm) (s : FunctionShape α) : Shape α :=
  match form with
  | declaration => .functionDeclaration s
  | expression => .functionExpression s
  | arrow => .arrowFunctionExpression s

namespace Convert

variable {μ : Type} (ctx : Context μ) (convert : Converter μ)

/-! ## Parameters -/

/-- A parameter, with its default value if it has one. -/
def parameter (n : Cst) : Outcome (Tree μ) :=
  if n.isParameter then do
    ctx.reject n.decorators
    let pattern ← ctx.field n "pattern"
    let left ← convert .binding pattern
    match n.field? "value" with
    | none => return left
    | some value =>
      let right ← convert .expression value
      return ctx.nodeAt n pattern.firstByte value.lastByte (.assignmentPattern left right)
  else binding ctx convert n

/-- The parameters of a list in parentheses. -/
def parameters (n : Cst) : Outcome (List (Tree μ)) := do
  ctx.expect .formalParameters n
  (n.named.filter (!·.isThisParameter)).mapM (convert .parameter)

/-! ## Functions -/

/-- The name of a function, as its form asks for. -/
def functionName (form : FunctionForm) (n : Cst) : Outcome (Option (Tree μ)) :=
  match form with
  | .declaration => do return some (ctx.identifier (← ctx.field n "name"))
  | .expression => return (n.field? "name").map ctx.identifier
  | .arrow => return none

/-- The parameters of a function. An arrow function may have a single one without parentheses. -/
def functionParameters (n : Cst) : Outcome (List (Tree μ)) :=
  match n.field? "parameter" with
  | some param => do return [← convert .binding param]
  | none => do parameters ctx convert (← ctx.field n "parameters")

/-- The body of a function. Only that of an arrow function may be an expression. -/
def functionBody (form : FunctionForm) (body : Cst) : Outcome (Tree μ) :=
  if body.kind = .statementBlock then convert .block body
  else if form = .arrow then convert .expression body
  else ctx.unexpected body

/-- A function of one of the three forms. -/
def function (form : FunctionForm) (n : Cst) : Outcome (Tree μ) := do
  let id ← functionName ctx form n
  let params ← functionParameters ctx convert n
  let body ← ctx.field n "body"
  let bodyNode ← functionBody ctx convert form body
  let modifiers := Modifiers.ofTokens (n.modifierTokens none)
  return ctx.node n <| form.shape {
    id
    params
    body := bodyNode
    generator := modifiers.generator || n.kind == .generatorFunction
      || n.kind == .generatorFunctionDeclaration
    isAsync := modifiers.isAsync
    expression := body.kind != .statementBlock }

/-! ## Methods -/

/-- The function of a method, from its parameters to its end. -/
def methodValue (n : Cst) (modifiers : Modifiers) : Outcome (Tree μ) := do
  let list ← ctx.field n "parameters"
  let body ← ctx.field n "body"
  let params ← parameters ctx convert list
  let bodyNode ← convert .block body
  return ctx.nodeAt n list.firstByte n.lastByte <| .functionExpression {
    id := none
    params
    body := bodyNode
    generator := modifiers.generator
    isAsync := modifiers.isAsync
    expression := false }

/-- A method or accessor of an object. -/
def objectMethod (n : Cst) : Outcome (Shape (Tree μ)) := do
  let name ← ctx.field n "name"
  let key ← convert .propertyKey name
  let modifiers := Modifiers.ofTokens (n.modifierTokens (some name))
  let kind : PropertyKind :=
    if modifiers.getter then .get else if modifiers.setter then .set else .init
  let value ← methodValue ctx convert n modifiers
  return .property key value kind (kind == .init) false (isComputed name)

/-- Whether the name of a method is that of a constructor. -/
def namesConstructor (name : Cst) : Bool :=
  if name.kind = .string then
    ctx.text name == "'constructor'" || ctx.text name == "\"constructor\""
  else name.kind.isIdentifier && ctx.text name == "constructor"

/-- What a method of a class defines. -/
def methodKind (name : Cst) (modifiers : Modifiers) : MethodKind :=
  if modifiers.getter then .get
  else if modifiers.setter then .set
  else if namesConstructor ctx name && !modifiers.isStatic then .constructor
  else .method

/-- A method or accessor of a class. The key of a constructor is an identifier, also if its name is
written as a string. -/
def classMember (n : Cst) : Outcome (Tree μ) := do
  ctx.expect .methodDefinition n
  let name ← ctx.field n "name"
  let modifiers := Modifiers.ofTokens (n.modifierTokens (some name))
  let key ← convert .propertyKey name
  let kind := methodKind ctx name modifiers
  let value ← methodValue ctx convert n modifiers
  let key := if kind = .constructor then ctx.node name (.identifier "constructor") else key
  return ctx.node n (.methodDefinition key value kind (isComputed name) modifiers.isStatic)

/-! ## Classes -/

/-- The body of a class, which covers the text between its braces. -/
def classBody (n : Cst) : Outcome (Tree μ) := do
  ctx.expect .classBody n
  let members ← n.named.mapM (convert .classMember)
  let start := ((n.token? "\x7b").map (·.head.stop)).getD n.head.start
  let stop := ((n.token? "\x7d").map (·.head.start)).getD n.head.stop
  return ctx.nodeAt n start stop (.classBody members)

/-- The expression that a class extends. -/
def superClass (n : Cst) : Outcome (Option Cst) :=
  match n.heritageClause? with
  | none => return none
  | some clause =>
    if clause.kind = .extendsClause then
      match clause.field? "value" with
      | some value => return some value
      | none => do return some (← ctx.firstNamed clause)
    else return some clause

/-- The name of a class. A declaration must have one. -/
def className (isDeclaration : Bool) (n : Cst) : Outcome (Option (Tree μ)) :=
  if isDeclaration then do return some (ctx.identifier (← ctx.field n "name"))
  else return (n.field? "name").map ctx.identifier

/-- A class. -/
def classLike (isDeclaration : Bool) (n : Cst) : Outcome (Tree μ) := do
  ctx.reject n.decorators
  let id ← className ctx isDeclaration n
  let superClass ← Outcome.onSome (convert .expression) (← superClass ctx n)
  let body ← classBody ctx convert (← ctx.field n "body")
  let shape : ClassShape (Tree μ) := { id, superClass, body }
  return ctx.node n (if isDeclaration then .classDeclaration shape else .classExpression shape)

end Convert

end Estree
