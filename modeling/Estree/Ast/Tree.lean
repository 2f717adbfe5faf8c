import Estree.Ast.Shape

/-!
# Syntax trees

A tree is a shape over trees with a mark, such as its place in a text. Whatever is computed from a
whole tree is a `Tree.fold`, which `Tree.fold_mk` describes: the children are folded first, and then
the tree over the results.
-/

namespace Estree

/-- A tree of shapes, with a mark at every node. -/
inductive Tree (μ : Type) where
  | mk (shape : Shape (Tree μ)) (mark : μ)

namespace Tree

variable {μ β : Type}

def shape : Tree μ → Shape (Tree μ)
  | mk s _ => s

def mark : Tree μ → μ
  | mk _ m => m

instance [Inhabited μ] : Inhabited (Tree μ) := ⟨mk .emptyStatement default⟩

def typeName (t : Tree μ) : String := t.shape.typeName

def children (t : Tree μ) : List (Tree μ) := t.shape.children

mutual

/-- Computes a value from the leaves up. -/
def fold (f : Shape β → μ → β) : Tree μ → β
  | mk s m => f (foldShape f s) m

/-- Folds the children of a shape. -/
def foldShape (f : Shape β → μ → β) : Shape (Tree μ) → Shape β
  | .program body sourceType => .program (foldList f body) sourceType
  | .identifier name => .identifier name
  | .privateIdentifier name => .privateIdentifier name
  | .literal value raw regex => .literal value raw regex
  | .templateLiteral quasis expressions =>
    .templateLiteral (foldList f quasis) (foldList f expressions)
  | .templateElement value tail => .templateElement value tail
  | .thisExpression => .thisExpression
  | .super => .super
  | .arrayExpression elements => .arrayExpression (foldSlots f elements)
  | .objectExpression properties => .objectExpression (foldList f properties)
  | .property key value kind method shorthand computed =>
    .property (key.fold f) (value.fold f) kind method shorthand computed
  | .functionExpression function => .functionExpression (foldFunction f function)
  | .arrowFunctionExpression function => .arrowFunctionExpression (foldFunction f function)
  | .classExpression definition => .classExpression (foldClass f definition)
  | .unaryExpression operator isPrefix argument =>
    .unaryExpression operator isPrefix (argument.fold f)
  | .updateExpression operator isPrefix argument =>
    .updateExpression operator isPrefix (argument.fold f)
  | .binaryExpression operator left right =>
    .binaryExpression operator (left.fold f) (right.fold f)
  | .logicalExpression operator left right =>
    .logicalExpression operator (left.fold f) (right.fold f)
  | .assignmentExpression operator left right =>
    .assignmentExpression operator (left.fold f) (right.fold f)
  | .sequenceExpression expressions => .sequenceExpression (foldList f expressions)
  | .conditionalExpression test consequent alternate =>
    .conditionalExpression (test.fold f) (consequent.fold f) (alternate.fold f)
  | .callExpression callee arguments => .callExpression (callee.fold f) (foldList f arguments)
  | .newExpression callee arguments => .newExpression (callee.fold f) (foldList f arguments)
  | .memberExpression object member computed =>
    .memberExpression (object.fold f) (member.fold f) computed
  | .spreadElement argument => .spreadElement (argument.fold f)
  | .yieldExpression argument delegate => .yieldExpression (foldOption f argument) delegate
  | .awaitExpression argument => .awaitExpression (argument.fold f)
  | .taggedTemplateExpression tag quasi => .taggedTemplateExpression (tag.fold f) (quasi.fold f)
  | .objectPattern properties => .objectPattern (foldList f properties)
  | .arrayPattern elements => .arrayPattern (foldSlots f elements)
  | .restElement argument => .restElement (argument.fold f)
  | .assignmentPattern left right => .assignmentPattern (left.fold f) (right.fold f)
  | .classBody body => .classBody (foldList f body)
  | .methodDefinition key value kind computed isStatic =>
    .methodDefinition (key.fold f) (value.fold f) kind computed isStatic
  | .expressionStatement expression => .expressionStatement (expression.fold f)
  | .blockStatement body => .blockStatement (foldList f body)
  | .emptyStatement => .emptyStatement
  | .debuggerStatement => .debuggerStatement
  | .withStatement object body => .withStatement (object.fold f) (body.fold f)
  | .returnStatement argument => .returnStatement (foldOption f argument)
  | .labeledStatement label body => .labeledStatement (label.fold f) (body.fold f)
  | .breakStatement label => .breakStatement (foldOption f label)
  | .continueStatement label => .continueStatement (foldOption f label)
  | .ifStatement test consequent alternate =>
    .ifStatement (test.fold f) (consequent.fold f) (foldOption f alternate)
  | .switchStatement discriminant cases =>
    .switchStatement (discriminant.fold f) (foldList f cases)
  | .switchCase test consequent => .switchCase (foldOption f test) (foldList f consequent)
  | .throwStatement argument => .throwStatement (argument.fold f)
  | .tryStatement block handler finalizer =>
    .tryStatement (block.fold f) (foldOption f handler) (foldOption f finalizer)
  | .catchClause param body => .catchClause (foldOption f param) (body.fold f)
  | .whileStatement test body => .whileStatement (test.fold f) (body.fold f)
  | .doWhileStatement body test => .doWhileStatement (body.fold f) (test.fold f)
  | .forStatement init test update body =>
    .forStatement (foldOption f init) (foldOption f test) (foldOption f update) (body.fold f)
  | .forInStatement left right body => .forInStatement (left.fold f) (right.fold f) (body.fold f)
  | .forOfStatement left right body isAwait =>
    .forOfStatement (left.fold f) (right.fold f) (body.fold f) isAwait
  | .functionDeclaration function => .functionDeclaration (foldFunction f function)
  | .classDeclaration definition => .classDeclaration (foldClass f definition)
  | .variableDeclaration declarations kind => .variableDeclaration (foldList f declarations) kind
  | .variableDeclarator id init => .variableDeclarator (id.fold f) (foldOption f init)
  | .importDeclaration specifiers source =>
    .importDeclaration (foldList f specifiers) (source.fold f)
  | .importSpecifier imported localName => .importSpecifier (imported.fold f) (localName.fold f)
  | .importDefaultSpecifier localName => .importDefaultSpecifier (localName.fold f)
  | .importNamespaceSpecifier localName => .importNamespaceSpecifier (localName.fold f)
  | .exportNamedDeclaration declaration specifiers source =>
    .exportNamedDeclaration (foldOption f declaration) (foldList f specifiers) (foldOption f source)
  | .exportSpecifier localName exported => .exportSpecifier (localName.fold f) (exported.fold f)
  | .exportDefaultDeclaration declaration => .exportDefaultDeclaration (declaration.fold f)
  | .exportAllDeclaration source exported =>
    .exportAllDeclaration (source.fold f) (foldOption f exported)

/-- Folds the parts of a function. -/
def foldFunction (f : Shape β → μ → β) : FunctionShape (Tree μ) → FunctionShape β
  | ⟨id, params, body, generator, isAsync, expression⟩ =>
    ⟨foldOption f id, foldList f params, body.fold f, generator, isAsync, expression⟩

/-- Folds the parts of a class. -/
def foldClass (f : Shape β → μ → β) : ClassShape (Tree μ) → ClassShape β
  | ⟨id, superClass, body⟩ => ⟨foldOption f id, foldOption f superClass, body.fold f⟩

/-- Folds every node of a list. -/
def foldList (f : Shape β → μ → β) : List (Tree μ) → List β
  | [] => []
  | n :: rest => n.fold f :: foldList f rest

/-- Folds the nodes of a list with holes. -/
def foldSlots (f : Shape β → μ → β) : List (Option (Tree μ)) → List (Option β)
  | [] => []
  | n :: rest => foldOption f n :: foldSlots f rest

/-- Folds a node that may be absent. -/
def foldOption (f : Shape β → μ → β) : Option (Tree μ) → Option β
  | none => none
  | some n => some (n.fold f)

end

variable (f : Shape β → μ → β)

private theorem foldList_eq_map (ns : List (Tree μ)) : foldList f ns = ns.map (fold f) := by
  induction ns with
  | nil => rfl
  | cons n ns ih => simp [foldList, ih]

private theorem foldOption_eq_map (n : Option (Tree μ)) : foldOption f n = n.map (fold f) := by
  cases n <;> rfl

private theorem foldSlots_eq_map (ns : List (Option (Tree μ))) :
    foldSlots f ns = ns.map (·.map (fold f)) := by
  induction ns with
  | nil => rfl
  | cons n ns ih => simp [foldSlots, foldOption_eq_map, ih]

private theorem foldFunction_eq_map (s : FunctionShape (Tree μ)) :
    foldFunction f s = s.map (fold f) := by
  cases s
  simp [foldFunction, FunctionShape.map, foldList_eq_map, foldOption_eq_map]

private theorem foldClass_eq_map (s : ClassShape (Tree μ)) : foldClass f s = s.map (fold f) := by
  cases s
  simp [foldClass, ClassShape.map, foldOption_eq_map]

private theorem foldShape_eq_map (s : Shape (Tree μ)) : foldShape f s = s.map (fold f) := by
  cases s <;> simp [foldShape, Shape.map, foldFunction_eq_map, foldClass_eq_map,
    foldList_eq_map, foldOption_eq_map, foldSlots_eq_map]

/-- A fold folds the children and then the node. -/
theorem fold_mk (s : Shape (Tree μ)) (m : μ) : (mk s m).fold f = f (s.map (fold f)) m := by
  rw [fold, foldShape_eq_map]

/-- The types of all nodes, each before those of its children. -/
def typeNames (t : Tree μ) : List String := t.fold fun s _ => s.typeName :: s.children.flatten

/-- The tree with its marks changed. -/
def map (g : μ → β) (t : Tree μ) : Tree β := t.fold fun s m => mk s (g m)

end Tree

end Estree
