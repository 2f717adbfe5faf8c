import Estree.Convert.Program
import Estree.Proofs.Cst
import Estree.Proofs.Outcome
import Estree.Proofs.Place
import Estree.Proofs.Tree

/-!
# Simulations between conversions

Two conversions run alike if the trees and texts that they read look alike wherever a rule looks.
`Simulation` lists what a rule may see of a node: its head but for the offsets, the fields that it
looks up, the parts of most nodes, its text where it is read as a name, a literal, an operator or a
keyword, and of the offsets nothing but comparisons. What is built is compared after a change of
marks on either side.

The trees need not have the same nodes. A type wrapper on the left may stand over what is on the right
(`Simulation.Over`), though only where an expression, a target or a declared name may stand
(`Cst.opensTo`); functions, classes and calls may have more parts on the left than those that their
rules see, and parameters may be of two kinds. A type wrapper that is declared may be refused, which
excuses the failure on the left. Where the nodes are the same, less has to be shown (`Likeness`).

A rule hands nothing to its converter but syntax lower than its own, so what is asked of the
converters (`Simulation.Lower`) only concerns lower syntax. It hands on a type wrapper only in the
roles of expressions, of targets and of what is declared (`Simulation.May`). The rules themselves are
gone through in the modules beside.
-/

namespace Estree

/-! ## Kinds of nodes -/

namespace Kind

/-- The fields of a node of this kind whose text is read by the rule for it: names and labels,
operators, the keyword of a declaration, and the parts of a regular expression. -/
def readFields : Kind → List String
  | regex => ["pattern", "flags"]
  | functionDeclaration | generatorFunctionDeclaration | functionExpression | generatorFunction
  | classDeclaration | classExpression => ["name"]
  | labeledStatement | breakStatement | continueStatement => ["label"]
  | importSpecifier => ["alias"]
  | memberExpression => ["property"]
  | unaryExpression | updateExpression | binaryExpression | assignmentExpression
  | augmentedAssignmentExpression => ["operator"]
  | forInStatement => ["operator", "kind"]
  | lexicalDeclaration => ["kind"]
  | _ => []

/-- The fields of a node of this kind in which neither an expression stands nor a pattern. -/
def closedFields (k : Kind) : List String :=
  k.readFields ++ match k with
    | functionDeclaration | generatorFunctionDeclaration | functionExpression
    | generatorFunction => ["parameters", "body"]
    | arrowFunction => ["parameters"]
    | methodDefinition => ["name", "parameters", "body"]
    | classDeclaration | classExpression | switchCase | switchDefault | forStatement
    | forInStatement | whileStatement | doStatement | withStatement | labeledStatement => ["body"]
    | ifStatement => ["consequence", "alternative"]
    | tryStatement => ["body", "handler", "finalizer"]
    | pair | pairPattern => ["key"]
    | callExpression | newExpression => ["arguments"]
    | importStatement => ["source"]
    | exportStatement => ["declaration", "source"]
    | importSpecifier | exportSpecifier => ["name", "alias"]
    | _ => []

theorem contains_closedFields {k : Kind} {name : String} (h : k.readFields.contains name) :
    k.closedFields.contains name :=
  List.contains_iff_mem.2 (List.mem_append_left _ (List.contains_iff_mem.1 h))

/-- Whether a node of this kind is a list of statements, of declarations, of members or of names. -/
def isClosedList : Kind → Bool
  | program | statementBlock | lexicalDeclaration | variableDeclaration | elseClause | classBody
  | object | objectPattern | importStatement | importClause | namespaceImport | namedImports
  | exportClause | namespaceExport => true
  | _ => false

/-- Whether a node of this kind may have types among its parts: a function, a parameter, a variable,
a clause that declares one, a call, or a class. -/
def takesTypes : Kind → Bool
  | functionDeclaration | generatorFunctionDeclaration | functionExpression | generatorFunction
  | arrowFunction | methodDefinition | requiredParameter | optionalParameter | variableDeclarator
  | catchClause | callExpression | newExpression | extendsClause | classDeclaration
  | classExpression => true
  | _ => false

/-- Whether the rules for a node of this kind may look at all of its parts. -/
def isPlain (k : Kind) : Bool := !(k.takesTypes || k == formalParameters || k == classHeritage)

def typeWrappers : List Kind := [asExpression, satisfiesExpression, nonNullExpression, typeAssertion]

/-- The kinds of expression that may stand in a type wrapper, other than type wrappers. Expressions
without a mapping are of no kind of their own. -/
def operands : List Kind :=
  [identifier, undefinedName, thisKeyword, superKeyword, number, string, regex, trueLiteral,
   falseLiteral, nullLiteral, templateString, array, object, functionExpression, generatorFunction,
   arrowFunction, classExpression, assignmentExpression, augmentedAssignmentExpression,
   binaryExpression, unaryExpression, updateExpression, ternaryExpression, callExpression,
   newExpression, memberExpression, subscriptExpression, parenthesizedExpression, yieldExpression,
   awaitExpression, other]

theorem isTypeWrapper_iff {k : Kind} : k.isTypeWrapper ↔ k ∈ typeWrappers := by
  cases k <;> simp [isTypeWrapper, typeWrappers]

theorem eq_of_isTypeWrapper {k : Kind} (h : k.isTypeWrapper) :
    k = .asExpression ∨ k = .satisfiesExpression ∨ k = .nonNullExpression ∨ k = .typeAssertion := by
  simpa [typeWrappers] using isTypeWrapper_iff.1 h

theorem ne_of_isTypeWrapper {k l : Kind} (h : k.isTypeWrapper) (hl : l.isTypeWrapper = false) :
    k ≠ l := by
  rintro rfl
  exact Bool.false_ne_true (hl.symm.trans h)

theorem isPlain_of_isClosedList {k : Kind} (h : k.isClosedList) : k.isPlain := by
  cases k <;> first | rfl | cases h

theorem isPlain_of_isTypeWrapper {k : Kind} (h : k.isTypeWrapper) : k.isPlain := by
  have hall : typeWrappers.all isPlain := rfl
  exact List.all_eq_true.1 hall k (isTypeWrapper_iff.1 h)

end Kind

/-- Whether neither a pattern is read in a role nor a clause that catches. -/
def Role.isPlain : Role → Bool
  | binding | bindingMember | parameter | target | targetMember | catchClause => false
  | _ => true

namespace Cst

/-! ## What a rule sees of a node -/

/-- Two heads agree in everything but their offsets and their fields. -/
structure Head.Alike (h k : Head) : Prop where
  label : h.label = k.label
  isNamed : h.isNamed = k.isNamed
  isExtra : h.isExtra = k.isExtra
  isError : h.isError = k.isError
  isMissing : h.isMissing = k.isMissing

theorem Head.Alike.refl (h : Head) : h.Alike h := ⟨rfl, rfl, rfl, rfl, rfl⟩

theorem Head.Alike.kind_eq {n m : Cst} (h : n.head.Alike m.head) : n.kind = m.kind := by
  simp [kind, isDamaged, h.label, h.isNamed, h.isError, h.isMissing]

theorem Head.Alike.kindName_eq {n m : Cst} (h : n.head.Alike m.head) : n.kindName = m.kindName := by
  simp [kindName, h.label, h.isNamed, h.isError]

/-- Whether the text of a node may be read for its own sake, as a name or a literal. -/
def isRead (n : Cst) : Bool :=
  n.kind.isIdentifier
    || [.privatePropertyIdentifier, .trueLiteral, .falseLiteral, .nullLiteral, .number, .string,
        .regex].contains n.kind

theorem isRead_of_isIdentifier {n : Cst} (h : n.kind.isIdentifier) : n.isRead := by
  simp [isRead, h]

/-- Whether a rule for a node may look up a field. The field `body` of a case is never asked for,
unless the case is a clause of a `try`. -/
def mayLookUp (n : Cst) (name : String) : Bool :=
  fieldNames.contains name && (name != "body" || !n.isCase)

/-- A rule that looks up the field `body` knows a kind of its node that is not that of a case. -/
theorem mayLookUp_of_kind {n : Cst} {k : Kind} {name : String} (hk : n.kind = k)
    (hname : fieldNames.contains name)
    (h : [Kind.other, .switchCase, .switchDefault].contains k = false) : n.mayLookUp name := by
  have hcase : n.isCase = false := by
    by_contra hcase
    rcases kind_of_isCase (eq_true_of_ne_false hcase) with h' | h' | h' <;> simp [← hk, h'] at h
  rw [mayLookUp, hname, hcase]
  simp

/-- Whether a child stands where a node may have an expression or a pattern. -/
def opensTo (n c : Cst) : Bool :=
  !n.kind.isClosedList && c.head.field.all (!n.kind.closedFields.contains ·)

theorem not_opensTo_of_field? {n c : Cst} {name : String} (hc : n.field? name = some c)
    (hname : n.kind.closedFields.contains name) : n.opensTo c = false := by
  rw [opensTo, field_of_field? hc, Option.all_some, hname]
  exact Bool.and_false _

theorem not_opensTo_of_isClosedList {n c : Cst} (h : n.kind.isClosedList) :
    n.opensTo c = false := by
  rw [opensTo, h]
  rfl

/-- Whether a node may be the operand of a type wrapper, apart from another type wrapper. -/
def isOperand (n : Cst) : Bool :=
  n.head.isNamed && n.head.label != "decorator" && Kind.operands.contains n.kind

theorem mem_operands {n : Cst} (h : n.isOperand) : n.kind ∈ Kind.operands := by
  rw [isOperand, Bool.and_eq_true] at h
  exact List.contains_iff_mem.1 h.2

theorem isNamed_of_isOperand {n : Cst} (h : n.isOperand) : n.head.isNamed := by
  rw [isOperand, Bool.and_eq_true, Bool.and_eq_true] at h
  exact h.1.1

theorem isNamed_of_mem_named {n c : Cst} (h : c ∈ n.named) : c.head.isNamed :=
  (List.mem_filter.1 h).2

theorem isNamed_of_kind {n : Cst} (h : n.kind ≠ .other) : n.head.isNamed := by
  unfold kind at h
  split at h
  · exact absurd rfl h
  · next hdamaged =>
    rw [Bool.or_eq_true_iff, not_or] at hdamaged
    simpa using hdamaged.2

end Cst

/-! ## Related lists -/

section

variable {α β : Type} {R : α → β → Prop} {as : List α} {bs : List β}

theorem forall₂_filter {p : α → Bool} {q : β → Bool} (h : List.Forall₂ R as bs)
    (hp : ∀ a b, R a b → p a = q b) : List.Forall₂ R (as.filter p) (bs.filter q) :=
  List.rel_filter (fun a b hab => iff_of_eq (congrArg (· = true) (hp a b hab))) h

/-- Filtering related lists keeps what the filter says of the items. -/
theorem forall₂_filter_and {p : α → Bool} {q : β → Bool} (h : List.Forall₂ R as bs)
    (hp : ∀ a b, R a b → p a = q b) :
    List.Forall₂ (fun a b => R a b ∧ p a) (as.filter p) (bs.filter q) := by
  induction h with
  | nil => exact .nil
  | @cons a b as bs hab _ ih =>
    rw [List.filter_cons, List.filter_cons, ← hp a b hab]
    split
    · exact .cons ⟨hab, by assumption⟩ ih
    · exact ih

theorem optionRel_head? (h : List.Forall₂ R as bs) : Option.Rel R as.head? bs.head? := by
  cases h with
  | nil => exact .none
  | cons h _ => exact .some h

theorem optionRel_getLast? (h : List.Forall₂ R as bs) :
    Option.Rel R as.getLast? bs.getLast? := by
  induction h with
  | nil => exact .none
  | @cons a b as bs h hs ih =>
    cases hs with
    | nil => exact .some h
    | cons h' hs' => simpa [List.getLast?_cons_cons] using ih

theorem optionRel_find? {p : α → Bool} {q : β → Bool} (h : List.Forall₂ R as bs)
    (hp : ∀ a b, R a b → p a = q b) :
    Option.Rel (fun a b => R a b ∧ p a) (as.find? p) (bs.find? q) := by
  rw [← List.head?_filter, ← List.head?_filter]
  exact optionRel_head? (forall₂_filter_and h hp)

theorem optionRel_mono {P : α → β → Prop} {o : Option α} {p : Option β} (h : Option.Rel R o p)
    (hRP : ∀ a b, o = some a → p = some b → R a b → P a b) : Option.Rel P o p := by
  cases h with
  | none => exact .none
  | some h => exact .some (hRP _ _ rfl rfl h)

theorem forall₂_map {f : α → β} (h : ∀ a ∈ as, R a (f a)) : List.Forall₂ R as (as.map f) := by
  rwa [List.forall₂_map_right_iff, List.forall₂_same]

theorem optionRel_map {f : α → β} {o : Option α} (h : ∀ a, o = some a → R a (f a)) :
    Option.Rel R o (o.map f) := by
  cases o with
  | none => exact .none
  | some a => exact .some (h a rfl)

theorem forall₂_dropLast (h : List.Forall₂ R as bs) : List.Forall₂ R as.dropLast bs.dropLast := by
  rw [List.dropLast_eq_take, List.dropLast_eq_take, h.length_eq]
  exact List.forall₂_take _ h

/-- Two lists are related item by item, but for items of the first that `Q` holds of. -/
inductive Forall₂But (R : α → β → Prop) (Q : α → Prop) : List α → List β → Prop
  | nil : Forall₂But R Q [] []
  | cons {a : α} {b : β} {as : List α} {bs : List β} : R a b → Forall₂But R Q as bs →
    Forall₂But R Q (a :: as) (b :: bs)
  | skip {a : α} {as : List α} {bs : List β} : Q a → Forall₂But R Q as bs →
    Forall₂But R Q (a :: as) bs

theorem Forall₂But.of_forall₂ {Q : α → Prop} (h : List.Forall₂ R as bs) : Forall₂But R Q as bs := by
  induction h with
  | nil => exact .nil
  | cons h _ ih => exact .cons h ih

theorem forall₂_toList {o : Option α} {p : Option β} (h : Option.Rel R o p) :
    List.Forall₂ R o.toList p.toList := by
  cases h with
  | none => exact .nil
  | some h => exact .cons h .nil

/-- Where related nodes are named alike and the same tokens, so are the slots that they fill. -/
theorem Cst.slotsOf_rel {R : Cst → Cst → Prop} {cs ds : List Cst}
    (hnamed : ∀ c d, R c d → c.head.isNamed = d.head.isNamed)
    (htoken : ∀ c d, R c d → c.isToken "," = d.isToken ",") (h : List.Forall₂ R cs ds)
    (empty : Bool) : List.Forall₂ (Option.Rel R) (slotsOf empty cs) (slotsOf empty ds) := by
  induction h generalizing empty with
  | nil => exact .nil
  | @cons c d cs ds h _ ih =>
    rw [slotsOf, slotsOf, hnamed c d h, htoken c d h]
    split
    · exact .cons (.some h) (ih false)
    · split
      · refine List.rel_append ?_ (ih true)
        split
        · exact .cons .none .nil
        · exact .nil
      · exact ih empty

/-- Related items stand at the same place. -/
theorem forall₂_mem_zip (h : List.Forall₂ R as bs) :
    List.Forall₂ (fun a b => R a b ∧ (a, b) ∈ as.zip bs) as bs := by
  induction h with
  | nil => exact .nil
  | cons h _ ih =>
    exact .cons ⟨h, List.mem_cons_self⟩ (ih.imp fun _ _ h => ⟨h.1, List.mem_cons_of_mem _ h.2⟩)

end

/-- The anonymous tokens before the first of several nodes that is ruled out. -/
theorem labels_takeWhile {R : Cst → Cst → Prop} {p q : Cst → Bool} {cs ds : List Cst}
    (h : List.Forall₂ R cs ds) (hR : ∀ c d, R c d → c.head.Alike d.head ∧ p c = q d) :
    ((cs.takeWhile p).filter (!·.head.isNamed)).map (·.head.label)
      = ((ds.takeWhile q).filter (!·.head.isNamed)).map (·.head.label) := by
  induction h with
  | nil => rfl
  | @cons c d cs ds hcd _ ih =>
    obtain ⟨hhead, hp⟩ := hR c d hcd
    rw [List.takeWhile_cons, List.takeWhile_cons, hp]
    split
    · rw [List.filter_cons, List.filter_cons, hhead.isNamed]
      split
      · rw [List.map_cons, List.map_cons, ih, hhead.label]
      · exact ih
    · rfl

/-! ## Simulations -/

/-- Which nodes of two trees are seen alike. -/
structure Sight where
  Rel : Cst → Cst → Prop
  /-- The left node is a type wrapper over what the right one is. -/
  Over : Cst → Cst → Prop
  /-- The nodes are parameters, possibly of two kinds. -/
  Param : Cst → Cst → Prop

/-- Two nodes stand for the same: they are seen alike, perhaps below a type wrapper. -/
def Sight.Kin (V : Sight) (n m : Cst) : Prop := V.Rel n m ∨ V.Over n m

/-- A list of parameters cannot be converted past this one, which has a type wrapper for a pattern. -/
structure Context.Blocks {μ : Type} (ctx : Context μ) (X : Unsupported → Prop) (n : Cst) : Prop where
  isParameter : n.isParameter
  decorators : n.decorators = []
  pattern : ∃ p, n.field? "pattern" = some p ∧ p.kind.isTypeWrapper ∧ X (ctx.unsupported p)

/-- What is seen of a type wrapper over another node. -/
structure Sight.Wraps (V : Sight) (n m : Cst) : Prop where
  wrapper : n.kind.isTypeWrapper
  operand : m.isOperand
  wrapped : ∃ c, n.wrapped? = some c ∧ V.Kin c m

/-- What is seen of two parameters. -/
structure Sight.Parameters (V : Sight) (E : Cst → Cst → Prop) (n m : Cst) : Prop where
  left : n.isParameter
  right : m.isParameter
  decorators : List.Forall₂ V.Rel n.decorators m.decorators
  pattern : Option.Rel V.Kin (n.field? "pattern") (m.field? "pattern")
  missing : n.field? "pattern" = none → E n m
  value : Option.Rel V.Kin (n.field? "value") (m.field? "value")

/-- Two contexts agree on which regular expressions compile. -/
def Context.CompilesLike {μ ν : Type} (ctx₁ : Context μ) (ctx₂ : Context ν) : Prop :=
  ctx₁.compiles = ctx₂.compiles

theorem Context.CompilesLike.refl {μ : Type} (ctx : Context μ) : ctx.CompilesLike ctx :=
  Eq.refl ctx.compiles

/-- How two conversions may be compared: which nodes they see alike, which failures count as the
same, and what is compared of the marks. -/
structure Comparison (κ : Type) {μ ν : Type} (ctx₁ : Context μ) (ctx₂ : Context ν) where
  Rel : Cst → Cst → Prop
  Fail : Unsupported → Unsupported → Prop
  left : μ → κ
  right : ν → κ
  /-- Whether the marks show offsets. -/
  placed : Prop
  compiles : ctx₁.CompilesLike ctx₂
  head : ∀ {n m}, Rel n m → n.head.Alike m.head
  fail : ∀ {n m}, Rel n m → Fail (ctx₁.unsupported n) (ctx₂.unsupported m)
  text : ∀ {n m}, Rel n m → n.isRead → ctx₁.text n = ctx₂.text m
  /-- The token of a plain assignment. -/
  assignText : ∀ {n m c d}, Rel n m →
    n.kind = .assignmentExpression ∨ n.kind = .augmentedAssignmentExpression →
    n.field? "operator" = none → n.token? "=" = some c → m.token? "=" = some d →
    ctx₁.text c = ctx₂.text d
  /-- The keyword that stands for a name in an import or export. -/
  defaultText : ∀ {n m c d name}, Rel n m → n.kind = .importSpecifier ∨ n.kind = .exportSpecifier →
    ["name", "alias"].contains name → n.field? name = some c → m.field? name = some d →
    c.isToken "default" → ctx₁.text c = ctx₂.text d
  /-- Which of operator and operand of an update starts first. -/
  operatorFirst : ∀ {n m a b c d}, Rel n m → n.kind = .updateExpression →
    n.field? "operator" = some a → n.field? "argument" = some b → m.field? "operator" = some c →
    m.field? "argument" = some d → updateOperators.contains (ctx₁.text a) →
    (a.head.start < b.head.start ↔ c.head.start < d.head.start)
  gaps : ∀ {n m}, Rel n m → n.kind = .templateString →
    List.Forall₂ (fun x y => (placed → x = y) ∧
      ctx₁.source.slice x.1 x.2 = ctx₂.source.slice y.1 y.2) n.gaps m.gaps
  start : ∀ {n m}, Rel n m → placed → n.head.start = m.head.start
  stop : ∀ {n m}, Rel n m → placed → n.head.stop = m.head.stop

/-- A comparison of conversions whose trees need not have the same nodes. -/
structure Simulation (κ : Type) {μ ν : Type} (ctx₁ : Context μ) (ctx₂ : Context ν) extends
    Sight, Comparison κ ctx₁ ctx₂ where
  /-- A first conversion that stops with such a failure need not be compared. -/
  Excused : Unsupported → Prop
  /-- The left node stands where a name or pattern is declared. -/
  Declares : Cst → Prop
  /-- The left node stands where something is assigned to. -/
  Assigns : Cst → Prop
  introduces : ∀ {n m c}, Rel n m ∨ Param n m → n.Introduces c → Declares c
  patternPart : ∀ {n c}, Declares n → n.PatternPart c → Declares c
  assigns : ∀ {n m c}, Rel n m → n.AssignsTo c → Assigns c
  targetPart : ∀ {n c}, Assigns n → n.TargetPart c → Assigns c
  wraps : ∀ {n m}, Over n m → toSight.Wraps n m
  /-- Where a type wrapper stands. -/
  opens : ∀ {n m c d}, Rel n m → c ∈ n.children → Over c d → n.opensTo c
  /-- A type wrapper that is declared is refused. -/
  refused : ∀ {n m}, Over n m → Declares n → Excused (ctx₁.unsupported n)
  /-- No assertion is assigned to: there the type would be taken for the target. -/
  unasserted : ∀ {n m}, Over n m → Assigns n → n.kind ≠ .typeAssertion
  parts : ∀ {n m}, Rel n m → n.kind.isPlain →
    List.Forall₂ (fun c d => toSight.Kin c d ∧ c.head.field = d.head.field) n.parts m.parts
  field : ∀ {n m name}, Rel n m → n.mayLookUp name →
    Option.Rel toSight.Kin (n.field? name) (m.field? name)
  /-- A field whose text is read. -/
  readField : ∀ {n m name}, Rel n m → n.kind.readFields.contains name →
    Option.Rel (fun c d => Rel c d ∧ ctx₁.text c = ctx₂.text d) (n.field? name) (m.field? name)
  /-- A clause of a `try`. -/
  clause : ∀ {n m name}, Rel n m → n.kind = .tryStatement → ["handler", "finalizer"].contains name →
    Option.Rel (fun c d => Rel c d ∧ Option.Rel Rel (c.field? "body") (d.field? "body"))
      (n.field? name) (m.field? name)
  switchBody : ∀ {n m c d}, Rel n m → n.kind = .switchStatement → n.field? "body" = some c →
    m.field? "body" = some d → List.Forall₂ Rel c.named d.named
  /-- The name that a namespace is imported as. -/
  firstText : ∀ {n m}, Rel n m → n.kind = .namespaceImport →
    Option.Rel (fun c d => Rel c d ∧ ctx₁.text c = ctx₂.text d) n.named.head? m.named.head?
  functionModifiers : ∀ {n m}, Rel n m →
    Modifiers.ofTokens (n.modifierTokens none) = Modifiers.ofTokens (m.modifierTokens none)
  methodModifiers : ∀ {n m c d}, Rel n m → n.field? "name" = some c → m.field? "name" = some d →
    Rel c d →
    Modifiers.ofTokens (n.modifierTokens (some c)) = Modifiers.ofTokens (m.modifierTokens (some d))
  decorators : ∀ {n m}, Rel n m → List.Forall₂ Rel n.decorators m.decorators
  optionalChains : ∀ {n m}, Rel n m → List.Forall₂ Rel (n.parts.filter (·.kind == .optionalChain))
    (m.parts.filter (·.kind == .optionalChain))
  heritage : ∀ {n m}, Rel n m → n.kind = .classDeclaration ∨ n.kind = .classExpression →
    Option.Rel Rel n.heritageClause? m.heritageClause?
  extended : ∀ {n m}, Rel n m → n.kind = .extendsClause → n.field? "value" = none →
    Option.Rel toSight.Kin n.named.head? m.named.head?
  parameterList : ∀ {n m}, Rel n m → n.kind = .formalParameters →
    Forall₂But (fun c d => toSight.Kin c d ∨ Param c d) (ctx₁.Blocks Excused)
      (n.named.filter (!·.isThisParameter)) (m.named.filter (!·.isThisParameter))
  parameterPair : ∀ {n m}, Param n m →
    toSight.Parameters (fun c d => Fail (ctx₁.unsupported c) (ctx₂.unsupported d)) n m
  firstByte : ∀ {n m}, toSight.Kin n m → placed → n.firstByte = m.firstByte
  lastByte : ∀ {n m}, toSight.Kin n m → placed → n.lastByte = m.lastByte
  mark : ∀ {n m a b c d}, Rel n m ∨ Param n m → (placed → a = c) → (placed → b = d) →
    left (ctx₁.mark n a b) = right (ctx₂.mark m c d)

namespace Simulation

variable {κ μ ν : Type} {ctx₁ : Context μ} {ctx₂ : Context ν} (S : Simulation κ ctx₁ ctx₂)

/-! ## What is compared -/

/-- Two shapes agree after the change of marks. -/
abbrev ShapeRel (s : Shape (Tree μ)) (t : Shape (Tree ν)) : Prop :=
  s.map (Tree.map S.left) = t.map (Tree.map S.right)

abbrev TreeRel (s : Tree μ) (t : Tree ν) : Prop := s.map S.left = t.map S.right

abbrev ListRel (s : List (Tree μ)) (t : List (Tree ν)) : Prop :=
  s.map (Tree.map S.left) = t.map (Tree.map S.right)

abbrev OptionRel (s : Option (Tree μ)) (t : Option (Tree ν)) : Prop :=
  s.map (Tree.map S.left) = t.map (Tree.map S.right)

abbrev SlotsRel (s : List (Option (Tree μ))) (t : List (Option (Tree ν))) : Prop :=
  s.map (Option.map (Tree.map S.left)) = t.map (Option.map (Tree.map S.right))

/-- Two conversions run alike, with results that `V` relates. -/
abbrev Same {α β : Type} (V : α → β → Prop) (x : Outcome α) (y : Outcome β) : Prop :=
  Outcome.Alike S.Excused S.Fail V x y

/-- Two nodes stand for the same, and the left one is lower than another node. -/
structure Sub (n c d : Cst) : Prop where
  kin : S.Kin c d
  lt : c.height < n.height

/-- Two nodes are seen alike, and the left one is lower than another node. -/
structure Low (n c d : Cst) : Prop where
  rel : S.Rel c d
  lt : c.height < n.height

/-- A node may be read in a role: a pattern where something is declared or assigned to. -/
def Stands : Role → Cst → Prop
  | .binding, n | .bindingMember, n | .parameter, n => S.Declares n
  | .target, n | .targetMember, n => S.Assigns n
  | _, _ => True

/-- A node may be read in a role even if it is a type wrapper. -/
def May : Role → Cst → Prop
  | .expression, _ | .forPart, _ => True
  | .binding, n | .parameter, n => S.Declares n
  | .target, n => S.Assigns n
  | _, _ => False

/-- Two converters run alike on what is lower than a node on the left. -/
structure Lower (n : Cst) (f : Converter μ) (g : Converter ν) : Prop where
  kin : ∀ role c d, S.May role c → S.Sub n c d → S.Same S.TreeRel (f role c) (g role d)
  rel : ∀ role c d, S.Stands role c → S.Low n c d →
    (role = .catchClause → Option.Rel S.Rel (c.field? "body") (d.field? "body")) →
    S.Same S.TreeRel (f role c) (g role d)
  parameter : ∀ c d, S.Param c d → c.height < n.height →
    S.Same S.TreeRel (f .parameter c) (g .parameter d)
  blocked : ∀ c, ctx₁.Blocks S.Excused c → c.height < n.height → (f .parameter c).Stops S.Excused

variable {S} {n m c d : Cst}

theorem Low.sub (h : S.Low n c d) : S.Sub n c d := ⟨.inl h.rel, h.lt⟩

theorem Sub.trans {n' m' : Cst} (h : S.Sub c n' m') (hlt : c.height < n.height) : S.Sub n n' m' :=
  ⟨h.kin, Nat.lt_trans h.lt hlt⟩

theorem Low.trans {n' m' : Cst} (h : S.Low c n' m') (hlt : c.height < n.height) : S.Low n n' m' :=
  ⟨h.rel, Nat.lt_trans h.lt hlt⟩

theorem Lower.mono {f : Converter μ} {g : Converter ν} (hf : S.Lower n f g)
    (hlt : c.height < n.height) : S.Lower c f g where
  kin role c' d' hmay h' := hf.kin role c' d' hmay (h'.trans hlt)
  rel role c' d' hstands h' := hf.rel role c' d' hstands (h'.trans hlt)
  parameter c' d' h' hlt' := hf.parameter c' d' h' (Nat.lt_trans hlt' hlt)
  blocked c' h' hlt' := hf.blocked c' h' (Nat.lt_trans hlt' hlt)

theorem Stands.of_may {role : Role} (h : S.May role n) : S.Stands role n := by
  cases role with
  | binding | parameter | target => exact h
  | expression | forPart => trivial
  | _ => exact h.elim

theorem Stands.of_isPlain {role : Role} (h : role.isPlain) : S.Stands role n := by
  cases role with
  | binding | bindingMember | parameter | target | targetMember => cases h
  | _ => trivial

/-! ## What nodes that stand for the same have in common -/

theorem kind_eq (h : S.Rel n m) : n.kind = m.kind := (S.head h).kind_eq

section
variable (h : S.Kin n m)
include h

/-- What is not true of any expression is true of both or of neither. -/
theorem kind_pred {p : Kind → Bool}
    (hp : (Kind.typeWrappers ++ Kind.operands).all (!p ·)) : p n.kind = p m.kind := by
  rcases h with h | h
  · rw [kind_eq h]
  · rw [List.all_append, Bool.and_eq_true] at hp
    have hover := S.wraps h
    have hleft := List.all_eq_true.1 hp.1 _ (Kind.isTypeWrapper_iff.1 hover.wrapper)
    have hright := List.all_eq_true.1 hp.2 _ (Cst.mem_operands hover.operand)
    rw [Bool.not_eq_true'] at hleft hright
    rw [hleft, hright]

/-- A node of a kind that is not that of a type wrapper is seen alike. -/
theorem rel_of_kind (hk : n.kind.isTypeWrapper = false) : S.Rel n m := by
  rcases h with h | h
  · exact h
  · exact absurd (S.wraps h).wrapper (by simp [hk])

theorem isNamed_eq : n.head.isNamed = m.head.isNamed := by
  rcases h with h | h
  · exact (S.head h).isNamed
  · have hover := S.wraps h
    have hleft : n.head.isNamed := Cst.isNamed_of_kind (Kind.ne_of_isTypeWrapper hover.wrapper rfl)
    rw [hleft, Cst.isNamed_of_isOperand hover.operand]

/-- Only a named node is a type wrapper. -/
theorem rel_of_isNamed (hn : n.head.isNamed = false) : S.Rel n m :=
  rel_of_kind h <| by simp [Cst.kind, hn, Kind.isTypeWrapper]

theorem isToken_eq (text : String) : n.isToken text = m.isToken text := by
  cases hn : n.head.isNamed with
  | true => simp [Cst.isToken, hn, ← isNamed_eq h]
  | false =>
    have hhead := S.head (rel_of_isNamed h hn)
    simp [Cst.isToken, hhead.label, hhead.isNamed]

theorem rel_of_isToken {text : String} (ht : n.isToken text) : S.Rel n m :=
  rel_of_isNamed h (by simp [Cst.isToken] at ht; exact ht.1)

end

theorem isParameter_eq (h : S.Rel n m) : n.isParameter = m.isParameter := by
  rw [Cst.isParameter, Cst.isParameter, kind_eq h]

theorem Sub.forall₂ {cs ds : List Cst} (h : List.Forall₂ S.Kin cs ds)
    (hc : ∀ c ∈ cs, c.height < n.height) : List.Forall₂ (S.Sub n) cs ds := by
  induction h with
  | nil => exact .nil
  | cons h _ ih =>
    exact .cons ⟨h, hc _ List.mem_cons_self⟩ (ih fun c h => hc c (.tail _ h))

section
variable (h : S.Rel n m)
include h

theorem parts_sub (hk : n.kind.isPlain) : List.Forall₂ (S.Sub n) n.parts m.parts :=
  Sub.forall₂ ((S.parts h hk).imp fun _ _ h => h.1) fun _ => Cst.height_lt_of_mem_parts

theorem named_sub (hk : n.kind.isPlain) : List.Forall₂ (S.Sub n) n.named m.named :=
  forall₂_filter (parts_sub h hk) fun _ _ h => isNamed_eq h.kin

theorem field_sub (name : String) (hname : n.mayLookUp name) :
    Option.Rel (S.Sub n) (n.field? name) (m.field? name) :=
  optionRel_mono (S.field h hname) fun _ _ hc _ h => ⟨h, Cst.height_lt_of_field? hc⟩

/-- Where neither an expression stands nor a pattern, nodes that stand for the same are seen alike. -/
theorem rel_of_closed (hc : c ∈ n.children) (hclosed : n.opensTo c = false) (hcd : S.Kin c d) :
    S.Rel c d :=
  hcd.resolve_right fun hover => absurd (S.opens h hc hover) (by simp [hclosed])

theorem field_low (name : String) (hname : n.mayLookUp name)
    (hclosed : n.kind.closedFields.contains name) :
    Option.Rel (S.Low n) (n.field? name) (m.field? name) :=
  optionRel_mono (field_sub h name hname) fun _ _ hc _ hcd =>
    ⟨rel_of_closed h (Cst.mem_children_of_field? hc) (Cst.not_opensTo_of_field? hc hclosed) hcd.kin,
      hcd.lt⟩

theorem named_low (hk : n.kind.isClosedList) : List.Forall₂ (S.Low n) n.named m.named :=
  (forall₂_mem_zip (named_sub h (Kind.isPlain_of_isClosedList hk))).imp fun _ _ ⟨hcd, hmem⟩ =>
    ⟨rel_of_closed h (Cst.mem_children_of_mem_named (List.of_mem_zip hmem).1)
      (Cst.not_opensTo_of_isClosedList hk) hcd.kin, hcd.lt⟩

end

/-! ## Building nodes -/

theorem nodeAt_of {a b a' b' : Nat} {s : Shape (Tree μ)} {t : Shape (Tree ν)}
    (h : S.Rel n m ∨ S.Param n m) (ha : S.placed → a = a') (hb : S.placed → b = b')
    (hs : S.ShapeRel s t) : S.TreeRel (ctx₁.nodeAt n a b s) (ctx₂.nodeAt m a' b' t) := by
  unfold TreeRel Context.nodeAt
  rw [Tree.map_mk, Tree.map_mk, S.mark h ha hb, hs]

section
variable (h : S.Rel n m)
include h

theorem nodeAt {a b a' b' : Nat} {s : Shape (Tree μ)} {t : Shape (Tree ν)}
    (ha : S.placed → a = a') (hb : S.placed → b = b') (hs : S.ShapeRel s t) :
    S.TreeRel (ctx₁.nodeAt n a b s) (ctx₂.nodeAt m a' b' t) := nodeAt_of (.inl h) ha hb hs

theorem node {s : Shape (Tree μ)} {t : Shape (Tree ν)} (hs : S.ShapeRel s t) :
    S.TreeRel (ctx₁.node n s) (ctx₂.node m t) :=
  nodeAt h (S.firstByte (.inl h)) (S.lastByte (.inl h)) hs

theorem identifier (htext : ctx₁.text n = ctx₂.text m) :
    S.TreeRel (ctx₁.identifier n) (ctx₂.identifier m) := by
  unfold Context.identifier
  exact node h (by rw [htext]; rfl)

theorem privateIdentifier (htext : ctx₁.text n = ctx₂.text m) :
    S.TreeRel (ctx₁.privateIdentifier n) (ctx₂.privateIdentifier m) := by
  unfold Context.privateIdentifier
  exact node h (by rw [htext]; rfl)

end

/-! ## Running alike -/

section

variable {α β : Type} {V : α → β → Prop}

theorem unexpected (h : S.Rel n m) : S.Same V (ctx₁.unexpected n) (ctx₂.unexpected m) :=
  .fail (S.fail h)

theorem expect (h : S.Rel n m) (kind : Kind) :
    S.Same (fun _ _ => n.kind = kind) (ctx₁.expect kind n) (ctx₂.expect kind m) := by
  unfold Context.expect
  rw [← kind_eq h]
  split
  · exact .pure ‹_›
  · exact unexpected h

variable {k : Cst → Outcome α} {l : Cst → Outcome β}

/-- What follows a look-up runs alike if it does on what is found. -/
theorem bindFound {R : Cst → Cst → Prop} {name : String} (h : S.Rel n m)
    (hfield : Option.Rel R (n.field? name) (m.field? name))
    (hk : ∀ c d, n.field? name = some c → m.field? name = some d → R c d → S.Same V (k c) (l d)) :
    S.Same V (ctx₁.field n name >>= k) (ctx₂.field m name >>= l) := by
  unfold Context.field
  generalize hn : n.field? name = o, hm : m.field? name = p at hfield
  cases hfield with
  | none => exact .bind (V := fun _ _ => False) (unexpected h) fun _ _ _ _ hab => hab.elim
  | @some c d hcd =>
    simp only [pure_bind]
    exact hk c d hn hm hcd

theorem bindField {name : String} (h : S.Rel n m) (hname : n.mayLookUp name)
    (hk : ∀ c d, n.field? name = some c → m.field? name = some d → S.Sub n c d →
      S.Same V (k c) (l d)) :
    S.Same V (ctx₁.field n name >>= k) (ctx₂.field m name >>= l) :=
  bindFound h (field_sub h name hname) hk

/-- What follows the look-up of a field in which neither an expression stands nor a pattern. -/
theorem bindClosed {name : String} (h : S.Rel n m) (hname : n.mayLookUp name)
    (hclosed : n.kind.closedFields.contains name)
    (hk : ∀ c d, n.field? name = some c → m.field? name = some d → S.Low n c d →
      S.Same V (k c) (l d)) :
    S.Same V (ctx₁.field n name >>= k) (ctx₂.field m name >>= l) :=
  bindFound h (field_low h name hname hclosed) hk

/-- What follows the look-up of a field whose text is read. -/
theorem bindRead {name : String} (h : S.Rel n m) (hname : n.kind.readFields.contains name)
    (hk : ∀ c d, n.field? name = some c → S.Rel c d → ctx₁.text c = ctx₂.text d →
      S.Same V (k c) (l d)) :
    S.Same V (ctx₁.field n name >>= k) (ctx₂.field m name >>= l) :=
  bindFound h (S.readField h hname) fun c d hc _ hcd => hk c d hc hcd.1 hcd.2

/-- What follows the look-up of the first named child runs alike if it does on what is found. -/
theorem bindHead {R : Cst → Cst → Prop} (h : S.Rel n m)
    (hfirst : Option.Rel R n.named.head? m.named.head?)
    (hk : ∀ c d, n.named.head? = some c → R c d → S.Same V (k c) (l d)) :
    S.Same V (ctx₁.firstNamed n >>= k) (ctx₂.firstNamed m >>= l) := by
  unfold Context.firstNamed
  generalize hn : n.named.head? = o, m.named.head? = p at hfirst
  cases hfirst with
  | none => exact .bind (V := fun _ _ => False) (unexpected h) fun _ _ _ _ hab => hab.elim
  | @some c d hcd =>
    simp only [pure_bind]
    exact hk c d hn hcd

theorem bindFirst (h : S.Rel n m) (hplain : n.kind.isPlain)
    (hk : ∀ c d, n.named.head? = some c → S.Sub n c d → S.Same V (k c) (l d)) :
    S.Same V (ctx₁.firstNamed n >>= k) (ctx₂.firstNamed m >>= l) :=
  bindHead h (optionRel_head? (named_sub h hplain)) hk

end

theorem reject {ns ms : List Cst} (h : List.Forall₂ S.Rel ns ms) :
    S.Same (fun _ _ => True) (ctx₁.reject ns) (ctx₂.reject ms) := by
  cases h with
  | nil => exact .pure trivial
  | cons h _ => exact unexpected h

theorem listRel_of_forall₂ {ts : List (Tree μ)} {us : List (Tree ν)}
    (h : List.Forall₂ S.TreeRel ts us) : S.ListRel ts us := by
  unfold ListRel
  induction h with
  | nil => rfl
  | cons h _ ih => rw [List.map_cons, List.map_cons, h, ih]

theorem optionRel_of_rel {t : Option (Tree μ)} {u : Option (Tree ν)}
    (h : Option.Rel S.TreeRel t u) : S.OptionRel t u := by
  cases h with
  | none => rfl
  | some h => exact congrArg some h

theorem slotsRel_of_forall₂ {ts : List (Option (Tree μ))} {us : List (Option (Tree ν))}
    (h : List.Forall₂ (Option.Rel S.TreeRel) ts us) : S.SlotsRel ts us := by
  unfold SlotsRel
  induction h with
  | nil => rfl
  | cons h _ ih => rw [List.map_cons, List.map_cons, optionRel_of_rel h, ih]

theorem listRel_flatten {ts : List (List (Tree μ))} {us : List (List (Tree ν))}
    (htu : List.Forall₂ S.ListRel ts us) : S.ListRel ts.flatten us.flatten := by
  unfold ListRel
  rw [List.map_flatten, List.map_flatten]
  induction htu with
  | nil => rfl
  | cons h _ ih => rw [List.map_cons, List.map_cons, List.flatten_cons, List.flatten_cons, h, ih]

theorem treeRel_getD {o : Option (Tree μ)} {p : Option (Tree ν)} {t : Tree μ} {u : Tree ν}
    (h : S.OptionRel o p) (htu : S.TreeRel t u) : S.TreeRel (o.getD t) (p.getD u) := by
  unfold TreeRel
  rw [← Option.getD_map (Tree.map S.left), ← Option.getD_map (Tree.map S.right), h, htu]

/-! ## Handing lower syntax to the converters -/

namespace Lower

variable {f : Converter μ} {g : Converter ν} (hf : S.Lower n f g) {role : Role}
include hf

theorem apply (hmay : S.May role c) (h : S.Sub n c d) :
    S.Same S.TreeRel (f role c) (g role d) := hf.kin role c d hmay h

theorem mapM {cs ds : List Cst} (hmay : ∀ c ∈ cs, S.May role c)
    (h : List.Forall₂ (S.Sub n) cs ds) :
    S.Same S.ListRel (cs.mapM (f role)) (ds.mapM (g role)) :=
  (Outcome.Alike.mapM h fun c hc _ _ h => hf.apply (hmay c hc) h).mono fun _ _ => listRel_of_forall₂

theorem onSome {o p : Option Cst} (hmay : ∀ c, o = some c → S.May role c)
    (h : Option.Rel (S.Sub n) o p) :
    S.Same S.OptionRel (Outcome.onSome (f role) o) (Outcome.onSome (g role) p) :=
  (Outcome.Alike.onSome h fun c _ hc _ h => hf.apply (hmay c hc) h).mono fun _ _ => optionRel_of_rel

/-- The parts of a pattern, which stand for what the pattern does. -/
theorem mapMembers {cs ds : List Cst} (hrole : role != .catchClause)
    (hstands : ∀ c ∈ cs, S.Stands role c) (h : List.Forall₂ (S.Low n) cs ds) :
    S.Same S.ListRel (cs.mapM (f role)) (ds.mapM (g role)) :=
  (Outcome.Alike.mapM h fun c hc d _ h =>
    hf.rel role c d (hstands c hc) h fun h' => absurd h' (bne_iff_ne.1 hrole)).mono
      fun _ _ => listRel_of_forall₂

/-! ### Expressions, statements and clauses -/

theorem expression (h : S.Sub n c d) : S.Same S.TreeRel (f .expression c) (g .expression d) :=
  hf.apply trivial h

theorem expressions {cs ds : List Cst} (h : List.Forall₂ (S.Sub n) cs ds) :
    S.Same S.ListRel (cs.mapM (f .expression)) (ds.mapM (g .expression)) :=
  hf.mapM (fun _ _ => trivial) h

theorem onExpression {o p : Option Cst} (h : Option.Rel (S.Sub n) o p) :
    S.Same S.OptionRel (Outcome.onSome (f .expression) o) (Outcome.onSome (g .expression) p) :=
  hf.onSome (fun _ _ => trivial) h

/-- A node that is seen alike may also be read in the roles of statements, clauses and keys. -/
theorem plain (hrole : role.isPlain) (h : S.Low n c d) : S.Same S.TreeRel (f role c) (g role d) :=
  hf.rel role c d (.of_isPlain hrole) h fun h' => absurd hrole (by simp [h', Role.isPlain])

theorem mapPlain (hrole : role.isPlain) {cs ds : List Cst} (h : List.Forall₂ (S.Low n) cs ds) :
    S.Same S.ListRel (cs.mapM (f role)) (ds.mapM (g role)) :=
  (Outcome.Alike.mapM h fun _ _ _ _ h => hf.plain hrole h).mono fun _ _ => listRel_of_forall₂

variable {α β : Type} {V : α → β → Prop} {k : Tree μ → Outcome α} {l : Tree ν → Outcome β}

theorem bindField {name : String} (hmay : ∀ c, n.field? name = some c → S.May role c)
    (h : S.Rel n m) (hname : n.mayLookUp name)
    (hk : ∀ t u, S.TreeRel t u → S.Same V (k t) (l u)) :
    S.Same V (ctx₁.field n name >>= fun c => f role c >>= k)
      (ctx₂.field m name >>= fun d => g role d >>= l) :=
  Simulation.bindField h hname fun c _ hc _ hcd =>
    (hf.apply (hmay c hc) hcd).bind fun t u _ _ htu => hk t u htu

/-- What follows the conversion of an expression in a field. -/
theorem bindExpression {name : String} (h : S.Rel n m) (hname : n.mayLookUp name)
    (hk : ∀ t u, S.TreeRel t u → S.Same V (k t) (l u)) :
    S.Same V (ctx₁.field n name >>= fun c => f .expression c >>= k)
      (ctx₂.field m name >>= fun d => g .expression d >>= l) :=
  hf.bindField (fun _ _ => trivial) h hname hk

/-- What follows the conversion of a statement in a field. -/
theorem bindStatement {name : String} (h : S.Rel n m) (hname : n.mayLookUp name)
    (hclosed : n.kind.closedFields.contains name)
    (hk : ∀ t u, S.TreeRel t u → S.Same V (k t) (l u)) :
    S.Same V (ctx₁.field n name >>= fun c => f .statement c >>= k)
      (ctx₂.field m name >>= fun d => g .statement d >>= l) :=
  bindClosed h hname hclosed fun _ _ _ _ hcd =>
    (hf.plain rfl hcd).bind fun t u _ _ htu => hk t u htu

theorem bindFirst (hmay : ∀ c, n.named.head? = some c → S.May role c) (h : S.Rel n m)
    (hplain : n.kind.isPlain) (hk : ∀ t u, S.TreeRel t u → S.Same V (k t) (l u)) :
    S.Same V (ctx₁.firstNamed n >>= fun c => f role c >>= k)
      (ctx₂.firstNamed m >>= fun d => g role d >>= l) :=
  Simulation.bindFirst h hplain fun c _ hc hcd =>
    (hf.apply (hmay c hc) hcd).bind fun t u _ _ htu => hk t u htu

/-- What follows the conversion of the expression that stands first. -/
theorem bindFirstExpression (h : S.Rel n m) (hplain : n.kind.isPlain)
    (hk : ∀ t u, S.TreeRel t u → S.Same V (k t) (l u)) :
    S.Same V (ctx₁.firstNamed n >>= fun c => f .expression c >>= k)
      (ctx₂.firstNamed m >>= fun d => g .expression d >>= l) :=
  hf.bindFirst (fun _ _ => trivial) h hplain hk

theorem first (hmay : ∀ c, n.named.head? = some c → S.May role c) (h : S.Rel n m)
    (hplain : n.kind.isPlain) :
    S.Same S.TreeRel (ctx₁.firstNamed n >>= f role) (ctx₂.firstNamed m >>= g role) :=
  Simulation.bindFirst h hplain fun c _ hc hcd => hf.apply (hmay c hc) hcd

theorem firstExpression (h : S.Rel n m) (hplain : n.kind.isPlain) :
    S.Same S.TreeRel (ctx₁.firstNamed n >>= f .expression)
      (ctx₂.firstNamed m >>= g .expression) :=
  hf.first (fun _ _ => trivial) h hplain

end Lower

end Simulation

end Estree
