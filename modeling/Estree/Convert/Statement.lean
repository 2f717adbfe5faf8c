import Estree.Convert.Expression

/-!
# Statements and declarations

The statements of a block, of a function body and of the cases of a switch. Declarations of types,
enumerations and namespaces have no mapping.
-/

namespace Estree

namespace Cst

/-- Whether a part of the head of a `for` statement is there but says nothing. -/
def isEmptyPart (n : Cst) : Bool := n.kind == .emptyStatement || !n.head.isNamed

/-- Whether a node is the else clause around an alternative. -/
def isElseClause (n : Cst) : Bool := n.kind == .elseClause

end Cst

namespace Convert

variable {μ : Type} (ctx : Context μ) (convert : Converter μ)

/-- Statements in braces. -/
def block (n : Cst) : Outcome (Tree μ) := do
  ctx.expect .statementBlock n
  return ctx.node n (.blockStatement (← n.named.mapM (convert .statement)))

/-! ## Variables -/

/-- The kind of declaration that a keyword begins. -/
def variableKind (keyword : Cst) : Outcome VariableKind :=
  match VariableKind.ofName? (ctx.text keyword) with
  | some kind => return kind
  | none => ctx.unexpected keyword

/-- The kind of a declaration. One with `var` has its own kind of syntax. -/
def declarationKind (n : Cst) : Outcome VariableKind :=
  if n.kind = .variableDeclaration then return .var
  else do variableKind ctx (← ctx.field n "kind")

/-- A declared variable with its first value. -/
def declarator (n : Cst) : Outcome (Tree μ) := do
  ctx.expect .variableDeclarator n
  let init ← Outcome.onSome (convert .expression) (n.field? "value")
  let id ← convert .binding (← ctx.field n "name")
  return ctx.node n (.variableDeclarator id init)

/-- A declaration of variables that ends at the given byte offset. -/
def variableList (n : Cst) (stop : Nat) : Outcome (Tree μ) := do
  let kind ← declarationKind ctx n
  let declarations ← n.named.mapM (convert .declarator)
  return ctx.nodeAt n n.firstByte stop (.variableDeclaration declarations kind)

/-! ## Branches -/

/-- The statement of an alternative, without its else clause. -/
def alternative (n : Cst) : Outcome (Tree μ) :=
  if n.isElseClause then do convert .statement (← ctx.firstNamed n) else convert .statement n

/-- A branch. The alternative comes first. -/
def branch (n : Cst) : Outcome (Shape (Tree μ)) := do
  let alternate ← Outcome.onSome (alternative ctx convert) (n.field? "alternative")
  let test ← convert .expression (← ctx.field n "condition")
  let consequent ← convert .statement (← ctx.field n "consequence")
  return .ifStatement test consequent alternate

/-- The test of a case of a switch; the default case has none. -/
def caseTest (n : Cst) : Outcome (Option (Tree μ)) :=
  match n.kind with
  | .switchCase => do return some (← convert .expression (← ctx.field n "value"))
  | .switchDefault => return none
  | _ => ctx.unexpected n

/-- A case of a switch. -/
def switchCase (n : Cst) : Outcome (Tree μ) := do
  let test ← caseTest ctx convert n
  let consequent ← (n.fields "body").mapM (convert .statement)
  return ctx.node n (.switchCase test consequent)

def switch (n : Cst) : Outcome (Shape (Tree μ)) := do
  let discriminant ← convert .expression (← ctx.field n "value")
  let body ← ctx.field n "body"
  return .switchStatement discriminant (← body.named.mapM (convert .switchCase))

/-! ## Exceptions -/

/-- The handler of a `try` statement. -/
def catchClause (n : Cst) : Outcome (Tree μ) := do
  let param ← Outcome.onSome (convert .binding) (n.field? "parameter")
  let body ← convert .block (← ctx.field n "body")
  return ctx.node n (.catchClause param body)

/-- The block of the last clause of a `try` statement. -/
def finalizer (n : Cst) : Outcome (Tree μ) := do
  convert .block (← ctx.field n "body")

def tryStatement (n : Cst) : Outcome (Shape (Tree μ)) := do
  let body ← convert .block (← ctx.field n "body")
  let handler ← Outcome.onSome (convert .catchClause) (n.field? "handler")
  let finalizer ← Outcome.onSome (finalizer ctx convert) (n.field? "finalizer")
  return .tryStatement body handler finalizer

/-! ## Loops -/

/-- A part of the head of a `for` statement that says something. A declaration ends with its last
variable there, and not with the semicolon. -/
def forPart (n : Cst) : Outcome (Tree μ) :=
  match n.kind with
  | .lexicalDeclaration | .variableDeclaration =>
    variableList ctx convert n ((n.named.getLast?.map Cst.lastByte).getD n.lastByte)
  | .expressionStatement => do convert .expression (← ctx.firstNamed n)
  | _ => expression ctx convert n

/-- The parts of the head of a `for` statement. -/
def forLoop (n : Cst) : Outcome (Shape (Tree μ)) := do
  let part? (name : String) : Option Cst := (n.field? name).filter (!·.isEmptyPart)
  let init ← Outcome.onSome (convert .forPart) (part? "initializer")
  let test ← Outcome.onSome (convert .forPart) (part? "condition")
  let update ← Outcome.onSome (convert .expression) (n.field? "increment")
  let body ← convert .statement (← ctx.field n "body")
  return .forStatement init test update body

/-- The declaration in the head of a loop over the parts of an object: a variable that may have a
value. -/
def loopVariable (n keyword name : Cst) : Outcome (Tree μ) := do
  let kind ← variableKind ctx keyword
  let init ← Outcome.onSome (convert .expression) (n.field? "value")
  let stop := ((n.field? "value").getD name).lastByte
  let id ← convert .binding name
  let declarator := ctx.nodeAt n name.firstByte stop (.variableDeclarator id init)
  return ctx.nodeAt n keyword.head.start stop (.variableDeclaration [declarator] kind)

/-- What a loop assigns to in each round: a variable that it declares, or a target. -/
def loopTarget (n name : Cst) : Outcome (Tree μ) :=
  match n.field? "kind" with
  | some keyword => loopVariable ctx convert n keyword name
  | none => convert .target name

/-- A loop over the parts of an object. Its operator is looked at last. -/
def loopOver (n : Cst) : Outcome (Shape (Tree μ)) := do
  let name ← ctx.field n "left"
  let left ← loopTarget ctx convert n name
  let right ← convert .expression (← ctx.field n "right")
  let body ← convert .statement (← ctx.field n "body")
  let operator ← ctx.field n "operator"
  match ctx.text operator with
  | "in" => return .forInStatement left right body
  | "of" => return .forOfStatement left right body (n.hasToken "await")
  | _ => ctx.unexpected operator

def whileLoop (n : Cst) : Outcome (Shape (Tree μ)) := do
  let test ← convert .expression (← ctx.field n "condition")
  let body ← convert .statement (← ctx.field n "body")
  return .whileStatement test body

def doLoop (n : Cst) : Outcome (Shape (Tree μ)) := do
  let body ← convert .statement (← ctx.field n "body")
  let test ← convert .expression (← ctx.field n "condition")
  return .doWhileStatement body test

/-! ## Other statements -/

def withStatement (n : Cst) : Outcome (Shape (Tree μ)) := do
  let object ← convert .expression (← ctx.field n "object")
  let body ← convert .statement (← ctx.field n "body")
  return .withStatement object body

def labeled (n : Cst) : Outcome (Shape (Tree μ)) := do
  let label ← ctx.field n "label"
  let body ← convert .statement (← ctx.field n "body")
  return .labeledStatement (ctx.identifier label) body

/-- The label that a jump names. -/
def jumpLabel (n : Cst) : Option (Tree μ) := (n.field? "label").map ctx.identifier

/-- A statement. -/
def statement (n : Cst) : Outcome (Tree μ) :=
  match n.kind with
  | .statementBlock => block ctx convert n
  | .lexicalDeclaration | .variableDeclaration => variableList ctx convert n n.lastByte
  | .functionDeclaration | .generatorFunctionDeclaration => function ctx convert .declaration n
  | .classDeclaration => classLike ctx convert true n
  | .expressionStatement => do
    return ctx.node n (.expressionStatement (← convert .expression (← ctx.firstNamed n)))
  | .emptyStatement => return ctx.node n .emptyStatement
  | .debuggerStatement => return ctx.node n .debuggerStatement
  | .ifStatement => ctx.node n <$> branch ctx convert n
  | .switchStatement => ctx.node n <$> switch ctx convert n
  | .tryStatement => ctx.node n <$> tryStatement ctx convert n
  | .whileStatement => ctx.node n <$> whileLoop ctx convert n
  | .doStatement => ctx.node n <$> doLoop ctx convert n
  | .forStatement => ctx.node n <$> forLoop ctx convert n
  | .forInStatement => ctx.node n <$> loopOver ctx convert n
  | .withStatement => ctx.node n <$> withStatement ctx convert n
  | .breakStatement => return ctx.node n (.breakStatement (jumpLabel ctx n))
  | .continueStatement => return ctx.node n (.continueStatement (jumpLabel ctx n))
  | .returnStatement => do
    return ctx.node n
      (.returnStatement (← Outcome.onSome (convert .expression) n.named.head?))
  | .throwStatement => do
    return ctx.node n (.throwStatement (← convert .expression (← ctx.firstNamed n)))
  | .labeledStatement => ctx.node n <$> labeled ctx convert n
  | _ => ctx.unexpected n

end Convert

end Estree
