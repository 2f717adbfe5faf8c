import Estree.Json.Basic
import Estree.Options

/-!
# Shapes of syntax nodes

`Shape α` says what a node of an ESTree is, with its children of type `α`: one constructor per
`type`, so a child of a wrong sort cannot be confused with a missing one. `Shape.map` changes the
children, and `Shape.fields` lists the fields in the order in which they are written; what a node
looks like outside and which children it has both follow from that list.
-/

namespace Estree

/-! ## Values that nodes carry -/

/-- How a variable is declared. -/
inductive VariableKind where
  | var
  | let_
  | const
  deriving DecidableEq, Repr, Inhabited

namespace VariableKind

def name : VariableKind → String
  | var => "var"
  | let_ => "let"
  | const => "const"

def ofName? : String → Option VariableKind
  | "var" => some var
  | "let" => some let_
  | "const" => some const
  | _ => none

end VariableKind

/-- What a property of an object defines. -/
inductive PropertyKind where
  | init
  | get
  | set
  deriving DecidableEq, Repr, Inhabited

def PropertyKind.name : PropertyKind → String
  | init => "init"
  | get => "get"
  | set => "set"

/-- What a member of a class defines. -/
inductive MethodKind where
  | constructor
  | method
  | get
  | set
  deriving DecidableEq, Repr, Inhabited

def MethodKind.name : MethodKind → String
  | constructor => "constructor"
  | method => "method"
  | get => "get"
  | set => "set"

/-- A regular expression as it is written: pattern and flags. -/
structure RegexLiteral where
  pattern : String
  flags : String
  deriving DecidableEq, Repr, Inhabited

def RegexLiteral.toJson (r : RegexLiteral) : Json :=
  .object [("pattern", .string r.pattern), ("flags", .string r.flags)]

/-- The value of a literal. A regular expression that does not compile has none. -/
inductive LiteralValue where
  | null
  | boolean (b : Bool)
  | number (d : Double)
  | string (s : String)
  | regExp (compiled : Option RegexLiteral)
  deriving DecidableEq, Repr, Inhabited

namespace LiteralValue

/-- The largest magnitude up to which every integer is a double. -/
def maxInteger : Nat := Nat.pow 2 53

/-- A number as JSON: an integer if it is one that all doubles around it are exact for, and `null`
if it is not finite. -/
def numberToJson (d : Double) : Json :=
  match d.toInt? with
  | some n => if n.natAbs ≤ maxInteger then .number (.integer n) else .number (.double d)
  | none => if d.isFinite then .number (.double d) else .null

/-- A value as JSON. A compiled regular expression is an empty object. -/
def toJson : LiteralValue → Json
  | null => .null
  | boolean b => .bool b
  | number d => numberToJson d
  | string s => .string s
  | regExp (some _) => .object []
  | regExp none => .null

/-- A value without loss: numbers as doubles, regular expressions with pattern and flags. -/
def toExactJson : LiteralValue → Json
  | null => .null
  | boolean b => .bool b
  | number d => .number (.double d)
  | string s => .string s
  | regExp (some r) => r.toJson
  | regExp none => .object []

end LiteralValue

/-- The text of a part of a template, and its value if all its escapes are valid. -/
structure TemplateValue where
  cooked : Option String
  raw : String
  deriving DecidableEq, Repr, Inhabited

def TemplateValue.toJson (v : TemplateValue) : Json :=
  .object [("cooked", (v.cooked.map Json.string).getD .null), ("raw", .string v.raw)]

/-! ## Fields -/

/-- A field of a node: data, or children of one of four arrangements. -/
inductive Field (α : Type) where
  | flag (b : Bool)
  | text (s : String)
  | data (j : Json)
  | value (v : LiteralValue)
  | child (a : α)
  | optional (a : Option α)
  | list (as : List α)
  /-- A list with holes. -/
  | slots (as : List (Option α))

namespace Field

variable {α β : Type}

/-- The children that a field holds, in order. -/
def children : Field α → List α
  | child a => [a]
  | optional a => a.toList
  | list as => as
  | slots as => as.filterMap id
  | _ => []

def map (f : α → β) : Field α → Field β
  | flag b => flag b
  | text s => text s
  | data j => data j
  | value v => value v
  | child a => child (f a)
  | optional a => optional (a.map f)
  | list as => list (as.map f)
  | slots as => slots (as.map (·.map f))

/-- A field as JSON, given its children as JSON and a way to write literal values. What is absent
is `null`. -/
def toJson (literal : LiteralValue → Json) : Field Json → Json
  | flag b => .bool b
  | text s => .string s
  | data j => j
  | value v => literal v
  | child a => a
  | optional a => a.getD .null
  | list as => .array as
  | slots as => .array (as.map (·.getD .null))

theorem children_map (f : α → β) (x : Field α) : (x.map f).children = x.children.map f := by
  cases x with
  | optional a => cases a <;> rfl
  | slots as =>
    show (as.map (·.map f)).filterMap id = (as.filterMap id).map f
    rw [List.filterMap_map, List.map_filterMap]
    rfl
  | _ => rfl

end Field

/-! ## Shapes -/

/-- What function declarations, function expressions and arrow functions consist of. -/
structure FunctionShape (α : Type) where
  id : Option α
  params : List α
  body : α
  generator : Bool
  isAsync : Bool
  /-- Whether the body is an expression, which arrow functions alone may have. -/
  expression : Bool
  deriving Repr

namespace FunctionShape

variable {α β : Type}

def map (f : α → β) (s : FunctionShape α) : FunctionShape β where
  id := s.id.map f
  params := s.params.map f
  body := f s.body
  generator := s.generator
  isAsync := s.isAsync
  expression := s.expression

def fields (s : FunctionShape α) : List (String × Field α) :=
  [("id", .optional s.id), ("params", .list s.params), ("body", .child s.body),
   ("generator", .flag s.generator), ("async", .flag s.isAsync),
   ("expression", .flag s.expression)]

end FunctionShape

/-- What class declarations and class expressions consist of. -/
structure ClassShape (α : Type) where
  id : Option α
  superClass : Option α
  body : α
  deriving Repr

namespace ClassShape

variable {α β : Type}

def map (f : α → β) (s : ClassShape α) : ClassShape β where
  id := s.id.map f
  superClass := s.superClass.map f
  body := f s.body

def fields (s : ClassShape α) : List (String × Field α) :=
  [("id", .optional s.id), ("superClass", .optional s.superClass), ("body", .child s.body)]

end ClassShape

/-- What a node is, with children of type `α`. -/
inductive Shape (α : Type) where
  | program (body : List α) (sourceType : SourceType)
  | identifier (name : String)
  | privateIdentifier (name : String)
  | literal (value : LiteralValue) (raw : String) (regex : Option RegexLiteral)
  | templateLiteral (quasis expressions : List α)
  | templateElement (value : TemplateValue) (tail : Bool)
  | thisExpression
  | super
  | arrayExpression (elements : List (Option α))
  | objectExpression (properties : List α)
  | property (key value : α) (kind : PropertyKind) (method shorthand computed : Bool)
  | functionExpression (function : FunctionShape α)
  | arrowFunctionExpression (function : FunctionShape α)
  | classExpression (definition : ClassShape α)
  | unaryExpression (operator : String) (isPrefix : Bool) (argument : α)
  | updateExpression (operator : String) (isPrefix : Bool) (argument : α)
  | binaryExpression (operator : String) (left right : α)
  | logicalExpression (operator : String) (left right : α)
  | assignmentExpression (operator : String) (left right : α)
  | sequenceExpression (expressions : List α)
  | conditionalExpression (test consequent alternate : α)
  | callExpression (callee : α) (arguments : List α)
  | newExpression (callee : α) (arguments : List α)
  | memberExpression (object member : α) (computed : Bool)
  | spreadElement (argument : α)
  | yieldExpression (argument : Option α) (delegate : Bool)
  | awaitExpression (argument : α)
  | taggedTemplateExpression (tag quasi : α)
  | objectPattern (properties : List α)
  | arrayPattern (elements : List (Option α))
  | restElement (argument : α)
  | assignmentPattern (left right : α)
  | classBody (body : List α)
  | methodDefinition (key value : α) (kind : MethodKind) (computed isStatic : Bool)
  | expressionStatement (expression : α)
  | blockStatement (body : List α)
  | emptyStatement
  | debuggerStatement
  | withStatement (object body : α)
  | returnStatement (argument : Option α)
  | labeledStatement (label body : α)
  | breakStatement (label : Option α)
  | continueStatement (label : Option α)
  | ifStatement (test consequent : α) (alternate : Option α)
  | switchStatement (discriminant : α) (cases : List α)
  | switchCase (test : Option α) (consequent : List α)
  | throwStatement (argument : α)
  | tryStatement (block : α) (handler finalizer : Option α)
  | catchClause (param : Option α) (body : α)
  | whileStatement (test body : α)
  | doWhileStatement (body test : α)
  | forStatement (init test update : Option α) (body : α)
  | forInStatement (left right body : α)
  | forOfStatement (left right body : α) (isAwait : Bool)
  | functionDeclaration (function : FunctionShape α)
  | classDeclaration (definition : ClassShape α)
  | variableDeclaration (declarations : List α) (kind : VariableKind)
  | variableDeclarator (id : α) (init : Option α)
  | importDeclaration (specifiers : List α) (source : α)
  | importSpecifier (imported localName : α)
  | importDefaultSpecifier (localName : α)
  | importNamespaceSpecifier (localName : α)
  | exportNamedDeclaration (declaration : Option α) (specifiers : List α) (source : Option α)
  | exportSpecifier (localName exported : α)
  | exportDefaultDeclaration (declaration : α)
  | exportAllDeclaration (source : α) (exported : Option α)
  deriving Repr

namespace Shape

variable {α β : Type}

/-- The `type` of a node. -/
def typeName : Shape α → String
  | program .. => "Program"
  | identifier .. => "Identifier"
  | privateIdentifier .. => "PrivateIdentifier"
  | literal .. => "Literal"
  | templateLiteral .. => "TemplateLiteral"
  | templateElement .. => "TemplateElement"
  | thisExpression => "ThisExpression"
  | super => "Super"
  | arrayExpression .. => "ArrayExpression"
  | objectExpression .. => "ObjectExpression"
  | property .. => "Property"
  | functionExpression .. => "FunctionExpression"
  | arrowFunctionExpression .. => "ArrowFunctionExpression"
  | classExpression .. => "ClassExpression"
  | unaryExpression .. => "UnaryExpression"
  | updateExpression .. => "UpdateExpression"
  | binaryExpression .. => "BinaryExpression"
  | logicalExpression .. => "LogicalExpression"
  | assignmentExpression .. => "AssignmentExpression"
  | sequenceExpression .. => "SequenceExpression"
  | conditionalExpression .. => "ConditionalExpression"
  | callExpression .. => "CallExpression"
  | newExpression .. => "NewExpression"
  | memberExpression .. => "MemberExpression"
  | spreadElement .. => "SpreadElement"
  | yieldExpression .. => "YieldExpression"
  | awaitExpression .. => "AwaitExpression"
  | taggedTemplateExpression .. => "TaggedTemplateExpression"
  | objectPattern .. => "ObjectPattern"
  | arrayPattern .. => "ArrayPattern"
  | restElement .. => "RestElement"
  | assignmentPattern .. => "AssignmentPattern"
  | classBody .. => "ClassBody"
  | methodDefinition .. => "MethodDefinition"
  | expressionStatement .. => "ExpressionStatement"
  | blockStatement .. => "BlockStatement"
  | emptyStatement => "EmptyStatement"
  | debuggerStatement => "DebuggerStatement"
  | withStatement .. => "WithStatement"
  | returnStatement .. => "ReturnStatement"
  | labeledStatement .. => "LabeledStatement"
  | breakStatement .. => "BreakStatement"
  | continueStatement .. => "ContinueStatement"
  | ifStatement .. => "IfStatement"
  | switchStatement .. => "SwitchStatement"
  | switchCase .. => "SwitchCase"
  | throwStatement .. => "ThrowStatement"
  | tryStatement .. => "TryStatement"
  | catchClause .. => "CatchClause"
  | whileStatement .. => "WhileStatement"
  | doWhileStatement .. => "DoWhileStatement"
  | forStatement .. => "ForStatement"
  | forInStatement .. => "ForInStatement"
  | forOfStatement .. => "ForOfStatement"
  | functionDeclaration .. => "FunctionDeclaration"
  | classDeclaration .. => "ClassDeclaration"
  | variableDeclaration .. => "VariableDeclaration"
  | variableDeclarator .. => "VariableDeclarator"
  | importDeclaration .. => "ImportDeclaration"
  | importSpecifier .. => "ImportSpecifier"
  | importDefaultSpecifier .. => "ImportDefaultSpecifier"
  | importNamespaceSpecifier .. => "ImportNamespaceSpecifier"
  | exportNamedDeclaration .. => "ExportNamedDeclaration"
  | exportSpecifier .. => "ExportSpecifier"
  | exportDefaultDeclaration .. => "ExportDefaultDeclaration"
  | exportAllDeclaration .. => "ExportAllDeclaration"

/-- Applies a function to all children. -/
def map (f : α → β) : Shape α → Shape β
  | program body sourceType => program (body.map f) sourceType
  | identifier name => identifier name
  | privateIdentifier name => privateIdentifier name
  | literal value raw regex => literal value raw regex
  | templateLiteral quasis expressions => templateLiteral (quasis.map f) (expressions.map f)
  | templateElement value tail => templateElement value tail
  | thisExpression => thisExpression
  | super => super
  | arrayExpression elements => arrayExpression (elements.map (·.map f))
  | objectExpression properties => objectExpression (properties.map f)
  | property key value kind method shorthand computed =>
    property (f key) (f value) kind method shorthand computed
  | functionExpression function => functionExpression (function.map f)
  | arrowFunctionExpression function => arrowFunctionExpression (function.map f)
  | classExpression definition => classExpression (definition.map f)
  | unaryExpression operator isPrefix argument => unaryExpression operator isPrefix (f argument)
  | updateExpression operator isPrefix argument => updateExpression operator isPrefix (f argument)
  | binaryExpression operator left right => binaryExpression operator (f left) (f right)
  | logicalExpression operator left right => logicalExpression operator (f left) (f right)
  | assignmentExpression operator left right => assignmentExpression operator (f left) (f right)
  | sequenceExpression expressions => sequenceExpression (expressions.map f)
  | conditionalExpression test consequent alternate =>
    conditionalExpression (f test) (f consequent) (f alternate)
  | callExpression callee arguments => callExpression (f callee) (arguments.map f)
  | newExpression callee arguments => newExpression (f callee) (arguments.map f)
  | memberExpression object member computed => memberExpression (f object) (f member) computed
  | spreadElement argument => spreadElement (f argument)
  | yieldExpression argument delegate => yieldExpression (argument.map f) delegate
  | awaitExpression argument => awaitExpression (f argument)
  | taggedTemplateExpression tag quasi => taggedTemplateExpression (f tag) (f quasi)
  | objectPattern properties => objectPattern (properties.map f)
  | arrayPattern elements => arrayPattern (elements.map (·.map f))
  | restElement argument => restElement (f argument)
  | assignmentPattern left right => assignmentPattern (f left) (f right)
  | classBody body => classBody (body.map f)
  | methodDefinition key value kind computed isStatic =>
    methodDefinition (f key) (f value) kind computed isStatic
  | expressionStatement expression => expressionStatement (f expression)
  | blockStatement body => blockStatement (body.map f)
  | emptyStatement => emptyStatement
  | debuggerStatement => debuggerStatement
  | withStatement object body => withStatement (f object) (f body)
  | returnStatement argument => returnStatement (argument.map f)
  | labeledStatement label body => labeledStatement (f label) (f body)
  | breakStatement label => breakStatement (label.map f)
  | continueStatement label => continueStatement (label.map f)
  | ifStatement test consequent alternate => ifStatement (f test) (f consequent) (alternate.map f)
  | switchStatement discriminant cases => switchStatement (f discriminant) (cases.map f)
  | switchCase test consequent => switchCase (test.map f) (consequent.map f)
  | throwStatement argument => throwStatement (f argument)
  | tryStatement block handler finalizer =>
    tryStatement (f block) (handler.map f) (finalizer.map f)
  | catchClause param body => catchClause (param.map f) (f body)
  | whileStatement test body => whileStatement (f test) (f body)
  | doWhileStatement body test => doWhileStatement (f body) (f test)
  | forStatement init test update body =>
    forStatement (init.map f) (test.map f) (update.map f) (f body)
  | forInStatement left right body => forInStatement (f left) (f right) (f body)
  | forOfStatement left right body isAwait => forOfStatement (f left) (f right) (f body) isAwait
  | functionDeclaration function => functionDeclaration (function.map f)
  | classDeclaration definition => classDeclaration (definition.map f)
  | variableDeclaration declarations kind => variableDeclaration (declarations.map f) kind
  | variableDeclarator id init => variableDeclarator (f id) (init.map f)
  | importDeclaration specifiers source => importDeclaration (specifiers.map f) (f source)
  | importSpecifier imported localName => importSpecifier (f imported) (f localName)
  | importDefaultSpecifier localName => importDefaultSpecifier (f localName)
  | importNamespaceSpecifier localName => importNamespaceSpecifier (f localName)
  | exportNamedDeclaration declaration specifiers source =>
    exportNamedDeclaration (declaration.map f) (specifiers.map f) (source.map f)
  | exportSpecifier localName exported => exportSpecifier (f localName) (f exported)
  | exportDefaultDeclaration declaration => exportDefaultDeclaration (f declaration)
  | exportAllDeclaration source exported => exportAllDeclaration (f source) (exported.map f)

/-- The fields of a node with their names, in the order in which they are written. A literal has
the field `regex` only if it is a regular expression. -/
def fields : Shape α → List (String × Field α)
  | program body sourceType => [("body", .list body), ("sourceType", .text sourceType.name)]
  | identifier name => [("name", .text name)]
  | privateIdentifier name => [("name", .text name)]
  | literal value raw regex =>
    [("value", .value value), ("raw", .text raw)]
      ++ (regex.map fun r => ("regex", .data r.toJson)).toList
  | templateLiteral quasis expressions =>
    [("quasis", .list quasis), ("expressions", .list expressions)]
  | templateElement value tail => [("value", .data value.toJson), ("tail", .flag tail)]
  | thisExpression => []
  | super => []
  | arrayExpression elements => [("elements", .slots elements)]
  | objectExpression properties => [("properties", .list properties)]
  | property key value kind method shorthand computed =>
    [("key", .child key), ("value", .child value), ("kind", .text kind.name),
     ("method", .flag method), ("shorthand", .flag shorthand), ("computed", .flag computed)]
  | functionExpression function => function.fields
  | arrowFunctionExpression function => function.fields
  | classExpression definition => definition.fields
  | unaryExpression operator isPrefix argument =>
    [("operator", .text operator), ("prefix", .flag isPrefix), ("argument", .child argument)]
  | updateExpression operator isPrefix argument =>
    [("operator", .text operator), ("prefix", .flag isPrefix), ("argument", .child argument)]
  | binaryExpression operator left right =>
    [("operator", .text operator), ("left", .child left), ("right", .child right)]
  | logicalExpression operator left right =>
    [("operator", .text operator), ("left", .child left), ("right", .child right)]
  | assignmentExpression operator left right =>
    [("operator", .text operator), ("left", .child left), ("right", .child right)]
  | sequenceExpression expressions => [("expressions", .list expressions)]
  | conditionalExpression test consequent alternate =>
    [("test", .child test), ("consequent", .child consequent), ("alternate", .child alternate)]
  | callExpression callee arguments => [("callee", .child callee), ("arguments", .list arguments)]
  | newExpression callee arguments => [("callee", .child callee), ("arguments", .list arguments)]
  | memberExpression object member computed =>
    [("object", .child object), ("property", .child member), ("computed", .flag computed)]
  | spreadElement argument => [("argument", .child argument)]
  | yieldExpression argument delegate =>
    [("argument", .optional argument), ("delegate", .flag delegate)]
  | awaitExpression argument => [("argument", .child argument)]
  | taggedTemplateExpression tag quasi => [("tag", .child tag), ("quasi", .child quasi)]
  | objectPattern properties => [("properties", .list properties)]
  | arrayPattern elements => [("elements", .slots elements)]
  | restElement argument => [("argument", .child argument)]
  | assignmentPattern left right => [("left", .child left), ("right", .child right)]
  | classBody body => [("body", .list body)]
  | methodDefinition key value kind computed isStatic =>
    [("key", .child key), ("value", .child value), ("kind", .text kind.name),
     ("computed", .flag computed), ("static", .flag isStatic)]
  | expressionStatement expression => [("expression", .child expression)]
  | blockStatement body => [("body", .list body)]
  | emptyStatement => []
  | debuggerStatement => []
  | withStatement object body => [("object", .child object), ("body", .child body)]
  | returnStatement argument => [("argument", .optional argument)]
  | labeledStatement label body => [("label", .child label), ("body", .child body)]
  | breakStatement label => [("label", .optional label)]
  | continueStatement label => [("label", .optional label)]
  | ifStatement test consequent alternate =>
    [("test", .child test), ("consequent", .child consequent),
     ("alternate", .optional alternate)]
  | switchStatement discriminant cases =>
    [("discriminant", .child discriminant), ("cases", .list cases)]
  | switchCase test consequent => [("test", .optional test), ("consequent", .list consequent)]
  | throwStatement argument => [("argument", .child argument)]
  | tryStatement block handler finalizer =>
    [("block", .child block), ("handler", .optional handler), ("finalizer", .optional finalizer)]
  | catchClause param body => [("param", .optional param), ("body", .child body)]
  | whileStatement test body => [("test", .child test), ("body", .child body)]
  | doWhileStatement body test => [("body", .child body), ("test", .child test)]
  | forStatement init test update body =>
    [("init", .optional init), ("test", .optional test), ("update", .optional update),
     ("body", .child body)]
  | forInStatement left right body =>
    [("left", .child left), ("right", .child right), ("body", .child body)]
  | forOfStatement left right body isAwait =>
    [("left", .child left), ("right", .child right), ("body", .child body),
     ("await", .flag isAwait)]
  | functionDeclaration function => function.fields
  | classDeclaration definition => definition.fields
  | variableDeclaration declarations kind =>
    [("declarations", .list declarations), ("kind", .text kind.name)]
  | variableDeclarator id init => [("id", .child id), ("init", .optional init)]
  | importDeclaration specifiers source =>
    [("specifiers", .list specifiers), ("source", .child source)]
  | importSpecifier imported localName =>
    [("imported", .child imported), ("local", .child localName)]
  | importDefaultSpecifier localName => [("local", .child localName)]
  | importNamespaceSpecifier localName => [("local", .child localName)]
  | exportNamedDeclaration declaration specifiers source =>
    [("declaration", .optional declaration), ("specifiers", .list specifiers),
     ("source", .optional source)]
  | exportSpecifier localName exported =>
    [("local", .child localName), ("exported", .child exported)]
  | exportDefaultDeclaration declaration => [("declaration", .child declaration)]
  | exportAllDeclaration source exported =>
    [("source", .child source), ("exported", .optional exported)]

/-- The children of a node, in the order of its fields. -/
def children (s : Shape α) : List α := s.fields.flatMap (·.2.children)

theorem typeName_map (f : α → β) (s : Shape α) : (s.map f).typeName = s.typeName := by
  cases s <;> rfl

theorem fields_map (f : α → β) (s : Shape α) :
    (s.map f).fields = s.fields.map fun (name, x) => (name, x.map f) := by
  cases s with
  | literal value raw regex => cases regex <;> rfl
  | _ => rfl

theorem children_map (f : α → β) (s : Shape α) : (s.map f).children = s.children.map f := by
  simp [children, fields_map, List.flatMap_map, List.map_flatMap, Field.children_map]

end Shape

end Estree
