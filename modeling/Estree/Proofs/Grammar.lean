import Estree.Proofs.Tree
import Mathlib.Tactic.FinCases

/-!
# The grammar of results

`Category.parts?` is a grammar of ESTrees, read from the top down: it says which shapes a category
has, and which category each child of such a shape is of. A tree conforms to a category if this
holds at each of its nodes (`Tree.Conforms`). What a property holds depends on where it stands, so
the members of object literals, of declared patterns and of assigned patterns are three categories.
-/

namespace Estree

/-- What may stand in one place of an ESTree. -/
inductive Category where
  | program
  /-- An element of the body of a program. -/
  | moduleItem
  /-- A statement or a declaration. -/
  | statement
  | block
  /-- An expression. `Super`, `SpreadElement` and `PrivateIdentifier` count as expressions too, wherever
  one may stand, since the rule for expressions yields them. -/
  | expression
  /-- A template literal. -/
  | template
  | templateElement
  | member
  | literal
  | identifier
  /-- A private name, with a number sign in the text. -/
  | privateName
  /-- What follows the point of a member expression. -/
  | memberName
  /-- The key of a property or method that is not computed. -/
  | propertyName
  /-- The name of something that is imported or exported. -/
  | exportName
  | objectMember
  /-- A name or pattern that is declared. -/
  | binding
  | bindingMember
  /-- What is assigned to. -/
  | target
  | targetMember
  | declarator
  | variableList
  | forInit
  /-- What a loop over the parts of an object assigns to. -/
  | forTarget
  | switchCase
  | catchClause
  | classBody
  | classMember
  | methodFunction
  | importSpecifier
  | exportSpecifier
  | defaultExport
  deriving DecidableEq, Repr

namespace Category

variable {α : Type}

/-- Children that are all of one category. -/
def each (cat : Category) (as : List α) : List (Category × α) := as.map (cat, ·)

@[simp] theorem map_snd_each (cat : Category) (as : List α) : (cat.each as).map Prod.snd = as := by
  simp [each, Function.comp_def]

@[simp] theorem forall_mem_each {cat : Category} {as : List α} {P : Category × α → Prop} :
    (∀ p ∈ cat.each as, P p) ↔ ∀ a ∈ as, P (cat, a) := List.forall_mem_map

/-! ## Productions -/

/-- The parts of a function whose body is of the given category. -/
def functionParts (body : Category) (s : FunctionShape α) : List (Category × α) :=
  each identifier s.id.toList ++ each binding s.params ++ [(body, s.body)]

def classParts (s : ClassShape α) : List (Category × α) :=
  each identifier s.id.toList ++ each expression s.superClass.toList ++ [(classBody, s.body)]

/-- The key of a property or method is an expression if it is computed. -/
def key (computed : Bool) : Category := if computed then expression else propertyName

def memberKey (computed : Bool) : Category := if computed then expression else memberName

def expressionParts? : Shape α → Option (List (Category × α))
  | .identifier _ | .privateIdentifier _ | .literal .. | .thisExpression | .super => some []
  | .templateLiteral quasis expressions =>
    some (each templateElement quasis ++ each expression expressions)
  | .arrayExpression elements => some (each expression (elements.filterMap id))
  | .objectExpression properties => some (each objectMember properties)
  | .functionExpression function => some (functionParts block function)
  | .arrowFunctionExpression function =>
    some (functionParts (if function.expression then expression else block) function)
  | .classExpression definition => some (classParts definition)
  | .unaryExpression _ _ a | .updateExpression _ _ a | .spreadElement a | .awaitExpression a =>
    some [(expression, a)]
  | .binaryExpression _ left right | .logicalExpression _ left right =>
    some [(expression, left), (expression, right)]
  | .assignmentExpression _ left right => some [(target, left), (expression, right)]
  | .sequenceExpression expressions => some (each expression expressions)
  | .conditionalExpression test consequent alternate =>
    some [(expression, test), (expression, consequent), (expression, alternate)]
  | .callExpression callee arguments | .newExpression callee arguments =>
    some ((expression, callee) :: each expression arguments)
  | .memberExpression object name computed =>
    some [(expression, object), (memberKey computed, name)]
  | .yieldExpression argument _ => some (each expression argument.toList)
  | .taggedTemplateExpression tag quasi => some [(expression, tag), (template, quasi)]
  | _ => none

/-- The parts of a pattern, given the categories of patterns and of members of objects in it. -/
def patternParts? (pattern entry : Category) : Shape α → Option (List (Category × α))
  | .identifier _ => some []
  | .objectPattern properties => some (each entry properties)
  | .arrayPattern elements => some (each pattern (elements.filterMap id))
  | .assignmentPattern left right => some [(pattern, left), (expression, right)]
  | .restElement argument => some [(pattern, argument)]
  | _ => none

/-- The parts of a member of an object pattern. The key of a shorthand property is what it sets. -/
def patternMemberParts? (pattern : Category) : Shape α → Option (List (Category × α))
  | .property name value .init false shorthand computed =>
    some [(if shorthand then pattern else key computed, name), (pattern, value)]
  | .restElement argument => some [(pattern, argument)]
  | _ => none

def targetParts? : Shape α → Option (List (Category × α))
  | .memberExpression object name computed =>
    some [(expression, object), (memberKey computed, name)]
  | s => patternParts? target targetMember s

def statementParts? : Shape α → Option (List (Category × α))
  | .expressionStatement e | .throwStatement e => some [(expression, e)]
  | .blockStatement body => some (each statement body)
  | .emptyStatement | .debuggerStatement => some []
  | .withStatement head body | .whileStatement head body =>
    some [(expression, head), (statement, body)]
  | .doWhileStatement body test => some [(statement, body), (expression, test)]
  | .returnStatement argument => some (each expression argument.toList)
  | .labeledStatement label body => some [(identifier, label), (statement, body)]
  | .breakStatement label | .continueStatement label => some (each identifier label.toList)
  | .ifStatement test consequent alternate =>
    some ([(expression, test), (statement, consequent)] ++ each statement alternate.toList)
  | .switchStatement discriminant cases =>
    some ((expression, discriminant) :: each switchCase cases)
  | .tryStatement body handler finalizer =>
    some ((block, body) :: (each catchClause handler.toList ++ each block finalizer.toList))
  | .forStatement init test update body =>
    some (each forInit init.toList ++ each expression test.toList ++ each expression update.toList
      ++ [(statement, body)])
  | .forInStatement left right body | .forOfStatement left right body _ =>
    some [(forTarget, left), (expression, right), (statement, body)]
  | .functionDeclaration function => some (functionParts block function)
  | .classDeclaration definition => some (classParts definition)
  | .variableDeclaration declarations _ => some (each declarator declarations)
  | _ => none

def moduleParts? : Shape α → Option (List (Category × α))
  | .importDeclaration specifiers source =>
    some (each importSpecifier specifiers ++ [(literal, source)])
  | .exportNamedDeclaration declaration specifiers source =>
    some (each statement declaration.toList ++ each exportSpecifier specifiers
      ++ each literal source.toList)
  | .exportDefaultDeclaration declaration => some [(defaultExport, declaration)]
  | .exportAllDeclaration source exported =>
    some ((literal, source) :: each exportName exported.toList)
  | _ => none

/-- The parts of a shape with their categories, if the shape is one of a category. -/
def parts? : Category → Shape α → Option (List (Category × α))
  | program, .program body _ => some (each moduleItem body)
  | moduleItem, s => (moduleParts? s).or (statementParts? s)
  | statement, s => statementParts? s
  | block, .blockStatement body => some (each statement body)
  | expression, s => expressionParts? s
  | template, .templateLiteral quasis expressions =>
    some (each templateElement quasis ++ each expression expressions)
  | templateElement, .templateElement .. => some []
  | member, .memberExpression object name computed =>
    some [(expression, object), (memberKey computed, name)]
  | literal, .literal .. => some []
  | identifier, .identifier _ => some []
  | privateName, .privateIdentifier _ => some []
  | memberName, .identifier _ | memberName, .privateIdentifier _ => some []
  | propertyName, .identifier _ | propertyName, .privateIdentifier _
  | propertyName, .literal .. => some []
  | exportName, .identifier _ | exportName, .literal .. => some []
  | objectMember, .property name value _ _ _ computed =>
    some [(key computed, name), (expression, value)]
  | objectMember, .spreadElement argument => some [(expression, argument)]
  | binding, s => patternParts? binding bindingMember s
  | bindingMember, s => patternMemberParts? binding s
  | target, s => targetParts? s
  | targetMember, s => patternMemberParts? target s
  | declarator, .variableDeclarator id init =>
    some ((binding, id) :: each expression init.toList)
  | variableList, .variableDeclaration declarations _ => some (each declarator declarations)
  | forInit, .variableDeclaration declarations _ => some (each declarator declarations)
  | forInit, s => expressionParts? s
  | forTarget, .variableDeclaration declarations _ => some (each declarator declarations)
  | forTarget, s => targetParts? s
  | switchCase, .switchCase test consequent =>
    some (each expression test.toList ++ each statement consequent)
  | catchClause, .catchClause param body => some (each binding param.toList ++ [(block, body)])
  | classBody, .classBody body => some (each classMember body)
  | classMember, .methodDefinition name value _ computed _ =>
    some [(key computed, name), (methodFunction, value)]
  | methodFunction, .functionExpression function => some (functionParts block function)
  | importSpecifier, .importSpecifier imported localName =>
    some [(exportName, imported), (exportName, localName)]
  | importSpecifier, .importDefaultSpecifier localName
  | importSpecifier, .importNamespaceSpecifier localName => some [(identifier, localName)]
  | exportSpecifier, .exportSpecifier localName exported =>
    some [(exportName, localName), (exportName, exported)]
  | defaultExport, s => (statementParts? s).or (expressionParts? s)
  | _, _ => none

/-! ## The parts are the children -/

section
variable {s : Shape α} {ps : List (Category × α)}

theorem expressionParts?_children (h : expressionParts? s = some ps) :
    ps.map Prod.snd = s.children := by
  cases s <;> cases h <;>
    simp [Shape.children, Shape.fields, Field.children, functionParts, classParts,
      FunctionShape.fields, ClassShape.fields]

theorem patternParts?_children {pattern entry : Category}
    (h : patternParts? pattern entry s = some ps) : ps.map Prod.snd = s.children := by
  cases s <;> cases h <;> simp [Shape.children, Shape.fields, Field.children]

theorem patternMemberParts?_children {pattern : Category}
    (h : patternMemberParts? pattern s = some ps) : ps.map Prod.snd = s.children := by
  unfold patternMemberParts? at h
  split at h <;> cases h <;> rfl

theorem targetParts?_children (h : targetParts? s = some ps) : ps.map Prod.snd = s.children := by
  unfold targetParts? at h
  split at h
  · cases h
    rfl
  · exact patternParts?_children h

theorem statementParts?_children (h : statementParts? s = some ps) :
    ps.map Prod.snd = s.children := by
  cases s <;> cases h <;>
    simp [Shape.children, Shape.fields, Field.children, functionParts, classParts,
      FunctionShape.fields, ClassShape.fields]

theorem moduleParts?_children (h : moduleParts? s = some ps) : ps.map Prod.snd = s.children := by
  cases s <;> cases h <;> simp [Shape.children, Shape.fields, Field.children]

/-- A production gives every child a category, in order. -/
theorem parts?_children {cat : Category} (h : cat.parts? s = some ps) :
    ps.map Prod.snd = s.children := by
  have or_children {x y : Option (List (Category × α))}
      (hx : ∀ ps, x = some ps → ps.map Prod.snd = s.children)
      (hy : ∀ ps, y = some ps → ps.map Prod.snd = s.children) (h : x.or y = some ps) :
      ps.map Prod.snd = s.children := by
    rcases Option.or_eq_some_iff.1 h with h | ⟨_, h⟩
    · exact hx ps h
    · exact hy ps h
  unfold parts? at h
  split at h
  all_goals first
    | exact expressionParts?_children h
    | exact statementParts?_children h
    | exact targetParts?_children h
    | exact patternParts?_children h
    | exact patternMemberParts?_children h
    | exact or_children (fun _ => moduleParts?_children) (fun _ => statementParts?_children) h
    | exact or_children (fun _ => statementParts?_children) (fun _ => expressionParts?_children) h
    | cases h <;> simp [Shape.children, Shape.fields, Field.children]

end

/-! ## Programs and their items stand nowhere else -/

/-- Whether a category is one of what stands below the items of a program. -/
def inner : Category → Bool
  | program | moduleItem => false
  | _ => true

section
variable {s : Shape α} {ps : List (Category × α)}

theorem forall_inner_functionParts {body : Category} {f : FunctionShape α} (hbody : body.inner) :
    ∀ p ∈ functionParts body f, p.1.inner := by
  simp only [functionParts, List.forall_mem_append, List.forall_mem_singleton, forall_mem_each]
  exact ⟨⟨fun _ _ => rfl, fun _ _ => rfl⟩, hbody⟩

theorem inner_key (computed : Bool) : (key computed).inner := by cases computed <;> rfl

theorem inner_memberKey (computed : Bool) : (memberKey computed).inner := by
  cases computed <;> rfl

theorem expressionParts?_inner (h : expressionParts? s = some ps) : ∀ p ∈ ps, p.1.inner := by
  cases s <;> cases h
  case functionExpression => exact forall_inner_functionParts rfl
  case arrowFunctionExpression => exact forall_inner_functionParts (by split <;> rfl)
  case memberExpression =>
    exact List.forall_mem_cons.2 ⟨rfl, List.forall_mem_singleton.2 (inner_memberKey _)⟩
  all_goals simp only [classParts, List.forall_mem_append, List.forall_mem_cons, forall_mem_each,
    List.not_mem_nil, false_implies, implies_true, inner, and_self]

theorem patternParts?_inner {pattern entry : Category} (hp : pattern.inner) (he : entry.inner)
    (h : patternParts? pattern entry s = some ps) : ∀ p ∈ ps, p.1.inner := by
  cases s <;> cases h
  case identifier => exact nofun
  case objectPattern => exact forall_mem_each.2 fun _ _ => he
  case arrayPattern => exact forall_mem_each.2 fun _ _ => hp
  case restElement => exact List.forall_mem_singleton.2 hp
  case assignmentPattern => exact List.forall_mem_cons.2 ⟨hp, List.forall_mem_singleton.2 rfl⟩

theorem patternMemberParts?_inner {pattern : Category} (hp : pattern.inner)
    (h : patternMemberParts? pattern s = some ps) : ∀ p ∈ ps, p.1.inner := by
  unfold patternMemberParts? at h
  split at h <;> cases h
  · refine List.forall_mem_cons.2 ⟨?_, List.forall_mem_singleton.2 hp⟩
    split
    · exact hp
    · exact inner_key _
  · exact List.forall_mem_singleton.2 hp

theorem targetParts?_inner (h : targetParts? s = some ps) : ∀ p ∈ ps, p.1.inner := by
  unfold targetParts? at h
  split at h
  · cases h
    exact List.forall_mem_cons.2 ⟨rfl, List.forall_mem_singleton.2 (inner_memberKey _)⟩
  · exact patternParts?_inner rfl rfl h

theorem statementParts?_inner (h : statementParts? s = some ps) : ∀ p ∈ ps, p.1.inner := by
  cases s <;> cases h
  case functionDeclaration => exact forall_inner_functionParts rfl
  all_goals simp only [classParts, List.forall_mem_append, List.forall_mem_cons, forall_mem_each,
    List.not_mem_nil, false_implies, implies_true, inner, and_self]

theorem moduleParts?_inner (h : moduleParts? s = some ps) : ∀ p ∈ ps, p.1.inner := by
  cases s <;> cases h <;>
    simp only [List.forall_mem_append, List.forall_mem_cons, forall_mem_each, List.not_mem_nil,
      false_implies, implies_true, inner, and_self]

/-- Only a program has items, and nothing has a program. -/
theorem parts?_inner {cat : Category} (hcat : cat ≠ program) (h : cat.parts? s = some ps) :
    ∀ p ∈ ps, p.1.inner := by
  have or_inner {x y : Option (List (Category × α))}
      (hx : ∀ ps, x = some ps → ∀ p ∈ ps, p.1.inner)
      (hy : ∀ ps, y = some ps → ∀ p ∈ ps, p.1.inner) (h : x.or y = some ps) :
      ∀ p ∈ ps, p.1.inner := by
    rcases Option.or_eq_some_iff.1 h with h | ⟨_, h⟩
    · exact hx ps h
    · exact hy ps h
  unfold parts? at h
  split at h
  all_goals first
    | exact expressionParts?_inner h
    | exact statementParts?_inner h
    | exact targetParts?_inner h
    | exact patternParts?_inner rfl rfl h
    | exact patternMemberParts?_inner rfl h
    | exact or_inner (fun _ => moduleParts?_inner) (fun _ => statementParts?_inner) h
    | exact or_inner (fun _ => statementParts?_inner) (fun _ => expressionParts?_inner) h
    | exact absurd rfl hcat
    | cases h
  all_goals simp only [functionParts, List.forall_mem_append, List.forall_mem_cons,
    forall_mem_each, List.not_mem_nil, false_implies, implies_true, inner_key, inner_memberKey,
    and_true]
  all_goals simp only [inner, implies_true, and_self]

/-- An inner category has no imports and no exports. -/
theorem moduleParts?_eq_none {cat : Category} (hcat : cat.inner) (h : cat.parts? s = some ps) :
    moduleParts? s = none := by
  cases s with
  | importDeclaration | exportNamedDeclaration | exportDefaultDeclaration | exportAllDeclaration =>
    cases cat <;> first | (cases hcat; done) | cases h
  | _ => rfl

end

/-! ## Wider categories -/

/-- A category is wider than another if it has all of its productions. -/
instance : LE Category where
  le a b := ∀ ⦃α : Type⦄ (s : Shape α) ps, a.parts? s = some ps → b.parts? s = some ps

theorem le_refl (cat : Category) : cat ≤ cat := fun _ _ _ h => h

/-- Nothing but the category of programs is wider than it. -/
theorem ne_program_of_le {a b : Category} (hle : a ≤ b) (hb : b ≠ program) : a ≠ program := by
  rintro rfl
  have h := hle (.program [] .module : Shape Unit) [] rfl
  cases b <;> first | exact absurd rfl hb | cases h

/-- A category with an inner one as a wider one is inner itself. -/
theorem inner_of_le {a b : Category} (hle : a ≤ b) (hb : b.inner) : a.inner := by
  cases a with
  | program => exact absurd rfl (ne_program_of_le hle (by rintro rfl; cases hb))
  | moduleItem =>
    have h := hle (.importDeclaration [] () : Shape Unit) _ rfl
    cases moduleParts?_eq_none hb h
  | _ => rfl

/-- Categories with a wider one beside them. -/
def inclusions : List (Category × Category) :=
  [(statement, moduleItem), (statement, defaultExport), (block, statement),
   (variableList, statement), (variableList, forInit), (variableList, forTarget),
   (expression, defaultExport), (expression, forInit), (target, forTarget),
   (member, expression), (member, target), (template, expression), (methodFunction, expression),
   (identifier, expression), (identifier, memberName), (identifier, propertyName),
   (identifier, exportName), (identifier, binding), (identifier, target),
   (privateName, expression), (privateName, memberName), (privateName, propertyName),
   (literal, expression), (literal, propertyName), (literal, exportName)]

theorem le_of_contains {a b : Category} (h : inclusions.contains (a, b)) : a ≤ b := by
  have hmem := List.contains_iff_mem.1 h
  intro α s ps hs
  fin_cases hmem <;> cases s <;> first | exact hs | cases hs

end Category

/-! ## Conformance -/

namespace Tree

variable {μ ν : Type}

/-- A tree conforms to a category if its shape has a production in it, and each child conforms to
the category that the production gives it. -/
inductive Conforms : Category → Tree μ → Prop
  | mk {cat : Category} {s : Shape (Tree μ)} {m : μ} {ps : List (Category × Tree μ)} :
    cat.parts? s = some ps → (∀ p ∈ ps, Conforms p.1 p.2) → Conforms cat (.mk s m)

theorem Conforms.widen {cat cat' : Category} {t : Tree μ} (hle : cat ≤ cat') :
    Conforms cat t → Conforms cat' t
  | mk hparts h => mk (hle _ _ hparts) h

/-- A child of a tree that conforms to a category conforms to a category too: an item of a program to
that of items, every other child to an inner one. -/
theorem Conforms.child {cat : Category} {t c : Tree μ} (h : Conforms cat t)
    (hc : c ∈ t.children) :
    ∃ cat', Conforms cat' c ∧ if cat = .program then cat' = .moduleItem else cat'.inner := by
  cases h with
  | @mk _ s _ ps hparts hps =>
    rw [children, shape, ← Category.parts?_children hparts] at hc
    obtain ⟨⟨cat', c⟩, hp, rfl⟩ := List.mem_map.1 hc
    refine ⟨cat', hps _ hp, ?_⟩
    split
    case isFalse hcat => exact Category.parts?_inner hcat hparts _ hp
    case isTrue hcat =>
      subst hcat
      cases s <;> cases hparts
      obtain ⟨_, _, hitem⟩ := List.mem_map.1 hp
      exact (congrArg Prod.fst hitem).symm

theorem Conforms.node {cat : Category} {s t : Tree μ} (h : Conforms cat t) (hs : IsNode s t) :
    ∃ cat', Conforms cat' s := by
  induction hs with
  | root => exact ⟨cat, h⟩
  | child _ hc ih =>
    obtain ⟨cat', hs⟩ := ih h
    obtain ⟨cat'', hchild, _⟩ := hs.child hc
    exact ⟨cat'', hchild⟩

theorem Conforms.typeName_eq {t : Tree μ} : Conforms .program t → t.typeName = "Program"
  | @mk _ _ s _ _ hparts _ => by
    cases s <;> cases hparts
    rfl

theorem Conforms.typeName_ne {cat : Category} {t : Tree μ} (hcat : cat ≠ .program) :
    Conforms cat t → t.typeName ≠ "Program"
  | @mk _ _ s _ _ hparts _ => by
    intro hname
    cases s with
    | program => cases cat <;> first | exact absurd rfl hcat | cases hparts
    | _ => simp [typeName, shape, Shape.typeName] at hname

/-- What conforms to an inner category is no import and no export. -/
theorem Conforms.moduleParts?_eq_none {cat : Category} {t : Tree μ} (hcat : cat.inner) :
    Conforms cat t → Category.moduleParts? t.shape = none
  | mk hparts _ => Category.moduleParts?_eq_none hcat hparts

end Tree

end Estree
