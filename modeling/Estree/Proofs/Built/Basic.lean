import Estree.Proofs.Grammar
import Estree.Proofs.Outcome
import Estree.Proofs.Row
import Estree.Proofs.Target.Basic

/-!
# How results come about

`Built ctx cat n t` says that the tree `t` of category `cat` is what a conversion may build from the
syntax `n`. It is independent of the order in which the rules do their work: it tells of each node
from which syntax it was made, which extent it was given, and that its children were built from
syntax below. Most nodes cover their syntax as a whole (`Built.node`); the others have a case of
their own. The rules are gone through in the modules beside.
-/

namespace Estree

namespace Cst

/-- Whether a rule for `n` may look at `c`: one of its parts, or a child in a field. -/
def Sees (n c : Cst) : Prop := c ∈ n.parts ∨ ∃ name ∈ fieldNames, n.field? name = some c

theorem Sees.of_field? {n c : Cst} {name : String} (h : n.field? name = some c)
    (hname : fieldNames.contains name) : n.Sees c :=
  .inr ⟨name, List.contains_iff_mem.1 hname, h⟩

theorem Sees.of_mem_named {n c : Cst} (h : c ∈ n.named) : n.Sees c := .inl (mem_parts_of_mem_named h)

theorem Sees.of_head?_named {n c : Cst} (h : n.named.head? = some c) : n.Sees c :=
  .of_mem_named (List.mem_of_head? h)

theorem Sees.mem_children {n c : Cst} (h : n.Sees c) : c ∈ n.children := by
  rcases h with h | ⟨_, _, h⟩
  · exact mem_children_of_mem_parts h
  · exact mem_children_of_field? h

/-- Where no extra child is in a field, a rule only looks at parts. -/
theorem Sees.mem_parts {n c : Cst} (h : n.Sees c)
    (hextras : ∀ d ∈ n.extras, ∀ name ∈ fieldNames, d.head.field ≠ some name) : c ∈ n.parts := by
  rcases h with h | ⟨name, hname, h⟩
  · exact h
  · have hmem := mem_children_of_field? h
    refine List.mem_filter.2 ⟨hmem, ?_⟩
    by_contra hx
    exact hextras c (mem_extras.2 ⟨hmem, by simpa using hx⟩) name hname (field_of_field? h)

theorem Everywhere.sees {P : Cst → Prop} {n c : Cst} (h : n.Everywhere P) (hc : n.Sees c) :
    c.Everywhere P := h.child hc.mem_children

/-- The kinds of syntax with the field whose text they take for a name, whatever stands there. -/
def trustedFields : List (Kind × String) :=
  [(.memberExpression, "property"), (.functionDeclaration, "name"),
   (.generatorFunctionDeclaration, "name"), (.functionExpression, "name"),
   (.generatorFunction, "name"), (.classDeclaration, "name"), (.classExpression, "name"),
   (.labeledStatement, "label"), (.breakStatement, "label"), (.continueStatement, "label"),
   (.importSpecifier, "alias")]

/-- The kinds of syntax with a field where the keyword `default` may stand for a name. -/
def keywordFields : List (Kind × String) :=
  [(.importSpecifier, "name"), (.exportSpecifier, "name"), (.exportSpecifier, "alias")]

theorem Sees.of_keywordFields {n c : Cst} {name : String} (hn : (n.kind, name) ∈ keywordFields)
    (hc : n.field? name = some c) : n.Sees c :=
  have hnames : ∀ p ∈ keywordFields, p.2 ∈ fieldNames := by decide
  .inr ⟨name, hnames _ hn, hc⟩

/-- A rule for `n` takes the text of `c` for a name without asking whether it was made up. The
keyword `default` is known by its label alone. -/
inductive Trusts (n : Cst) : Cst → Prop
  | field {c : Cst} {name : String} :
    (n.kind, name) ∈ trustedFields → n.field? name = some c → Trusts n c
  | star {c : Cst} : n.kind = .namespaceImport → n.named.head? = some c → Trusts n c
  | keyword {c : Cst} {name : String} :
    (n.kind, name) ∈ keywordFields → n.field? name = some c → c.isToken "default" → Trusts n c

theorem Trusts.sees {n c : Cst} (h : n.Trusts c) : n.Sees c := by
  cases h with
  | @field name hn hc =>
    have hnames : ∀ p ∈ trustedFields, p.2 ∈ fieldNames := by decide
    exact .inr ⟨name, hnames _ hn, hc⟩
  | star _ hc => exact .of_head?_named hc
  | keyword hn hc => exact .of_keywordFields hn hc

/-- The syntax of an operator: a field, or the token of a plain assignment. -/
def operatorMark? (n : Cst) : Option Cst := (n.field? "operator").or (n.token? "=")

theorem operatorMark?_of_field? {n c : Cst} (h : n.field? "operator" = some c) :
    n.operatorMark? = some c := by
  rw [operatorMark?, h, Option.some_or]

end Cst

/-- The text that a node of a result claims for its own. -/
def Shape.text? {α : Type} : Shape α → Option String
  | .identifier name => some name
  | .privateIdentifier name => some name
  | .literal _ raw _ => some raw
  | .templateElement value _ => some value.raw
  | _ => none

/-- The name that a node is. -/
def Shape.name? {α : Type} : Shape α → Option String
  | .identifier name => some name
  | .privateIdentifier name => some name
  | _ => none

theorem Shape.name?_eq_none {α : Type} {s : Shape α} (h : s.text? = none) : s.name? = none := by
  cases s with
  | identifier | privateIdentifier => cases h
  | _ => rfl

/-- The operator of a node. -/
def Shape.operator? {α : Type} : Shape α → Option String
  | .unaryExpression operator _ _ => some operator
  | .updateExpression operator _ _ => some operator
  | .binaryExpression operator _ _ => some operator
  | .logicalExpression operator _ _ => some operator
  | .assignmentExpression operator _ _ => some operator
  | _ => none

/-- The operators that a node may have, where its rule asks for one of them. -/
def Shape.operators? {α : Type} : Shape α → Option (List String)
  | .unaryExpression .. => some unaryOperators
  | .updateExpression .. => some updateOperators
  | .logicalExpression .. => some logicalOperators
  | .assignmentExpression .. => some assignmentOperators
  | _ => none

/-- The category of what a rule for a role builds. -/
def Role.category : Role → Cst → Category
  | .moduleItem, _ => .moduleItem
  | .statement, _ => .statement
  | .block, _ => .block
  | .forPart, n =>
    if n.kind = .lexicalDeclaration ∨ n.kind = .variableDeclaration then .variableList
    else .expression
  | .declarator, _ => .declarator
  | .switchCase, _ => .switchCase
  | .catchClause, _ => .catchClause
  | .expression, n =>
    if n.kind = .templateString then .template
    else if n.kind = .memberExpression ∨ n.kind = .subscriptExpression then .member
    else .expression
  | .objectMember, _ => .objectMember
  | .propertyKey, n => .key (Convert.isComputed n)
  | .parameter, _ => .binding
  | .classMember, _ => .classMember
  | .binding, _ => .binding
  | .bindingMember, _ => .bindingMember
  | .target, _ => .target
  | .targetMember, _ => .targetMember

theorem Role.category_expression_le (n : Cst) : expression.category n ≤ .expression := by
  rw [category]
  split
  · exact Category.le_of_contains rfl
  · split
    · exact Category.le_of_contains rfl
    · exact Category.le_refl _

theorem Role.category_forPart_le (n : Cst) : forPart.category n ≤ .forInit := by
  rw [category]
  split <;> exact Category.le_of_contains rfl

variable {μ : Type}

/-- A tree stands between two byte offsets. -/
inductive Context.LiesIn (ctx : Context μ) (a b : Nat) : Tree μ → Prop
  | nodeAt {n : Cst} {start stop : Nat} {s : Shape (Tree μ)} :
    a ≤ start → stop ≤ b → LiesIn ctx a b (ctx.nodeAt n start stop s)

/-- The children in the lists of a node stand in rows inside its syntax. -/
structure Context.Ordered (ctx : Context μ) (n : Cst) (s : Shape (Tree μ)) : Prop where
  rows : ∀ ts ∈ s.rows, n.Rows ctx.LiesIn ts
  alternates : s.Alternates

/-- What a node assigns to, declarations apart. -/
def Shape.assigned? : Shape (Tree μ) → Option (Tree μ)
  | .assignmentExpression _ left _ => some left
  | .forInStatement left _ _ | .forOfStatement left _ _ _ =>
    if left.typeName = "VariableDeclaration" then none else some left
  | _ => none

/-- What a node assigns to comes from a target in its syntax. -/
def Context.Assigns (ctx : Context μ) (n : Cst) (s : Shape (Tree μ)) : Prop :=
  ∀ left, s.assigned? = some left → ∃ c, n.field? "left" = some c ∧ ctx.Yields c left

/-- The operator of a node is written in its syntax, and one that its rule asks for. -/
def Context.Operates (ctx : Context μ) (n : Cst) (s : Shape (Tree μ)) : Prop :=
  ∀ operator, s.operator? = some operator →
    (∃ c, n.operatorMark? = some c ∧ operator = ctx.text c) ∧
    ∀ allowed, s.operators? = some allowed → operator ∈ allowed

/-- A node suits its syntax: in its lists, in what it assigns to and in its operator. -/
structure Context.Suits (ctx : Context μ) (n : Cst) (s : Shape (Tree μ)) : Prop
    extends ctx.Ordered n s where
  assigns : ctx.Assigns n s
  operates : ctx.Operates n s

/-- What a conversion may build from a piece of syntax. -/
inductive Built (ctx : Context μ) : Category → Cst → Tree μ → Prop
  /-- A node that covers its syntax, without a text of its own. -/
  | node {cat : Category} {n : Cst} {s : Shape (Tree μ)} {ps : List (Category × Tree μ)} :
    s.text? = none → ctx.Suits n s → cat.parts? s = some ps → (∀ p ∈ ps, Built ctx p.1 n p.2) →
    Built ctx cat n (ctx.node n s)
  /-- What is built from syntax below may stand for the whole. -/
  | within {cat : Category} {n c : Cst} {t : Tree μ} :
    n.Sees c → Built ctx cat c t → Built ctx cat n t
  | widen {cat cat' : Category} {n : Cst} {t : Tree μ} :
    cat ≤ cat' → Built ctx cat n t → Built ctx cat' n t
  | identifier {n : Cst} : n.kind.isIdentifier → Built ctx .identifier n (ctx.identifier n)
  /-- A name that is not known to be one. -/
  | trusted {n c : Cst} : n.Trusts c → Built ctx .identifier n (ctx.identifier c)
  | privateIdentifier {n : Cst} : n.kind = .privatePropertyIdentifier →
    Built ctx .privateName n (ctx.privateIdentifier n)
  | literal {n : Cst} {value : LiteralValue} {regex : Option RegexLiteral} :
    Built ctx .literal n (Convert.literalNode ctx n value regex)
  /-- A part of the text of a template. -/
  | templateElement {n : Cst} {extent : Nat × Nat} {tail : Bool} :
    n.kind = .templateString → extent ∈ n.gaps →
    Built ctx .templateElement n (Convert.templateElement ctx n tail extent)
  /-- A parameter with a default value ends with the value. -/
  | defaultParameter {n pattern value : Cst} {left right : Tree μ} :
    n.isParameter → n.field? "pattern" = some pattern → n.field? "value" = some value →
    Built ctx .binding pattern left → Built ctx .expression value right →
    Built ctx .binding n
      (ctx.nodeAt n pattern.firstByte value.lastByte (.assignmentPattern left right))
  /-- The function of a method begins with its parameters. -/
  | methodFunction {n list body : Cst} {params : List (Tree μ)} {block : Tree μ}
    {generator isAsync : Bool} :
    n.kind = .methodDefinition → n.field? "parameters" = some list →
    n.field? "body" = some body → list.Rows ctx.LiesIn params →
    (∀ t ∈ params, Built ctx .binding list t) →
    Built ctx .block body block →
    Built ctx .methodFunction n (ctx.nodeAt n list.firstByte n.lastByte
      (.functionExpression ⟨none, params, block, generator, isAsync, false⟩))
  /-- A constructor whose name is written as a string. -/
  | constructor {n name : Cst} {value : Tree μ} {isStatic : Bool} :
    n.field? "name" = some name → name.kind = .string →
    ctx.text name ∈ ["'constructor'", "\"constructor\""] → Built ctx .methodFunction n value →
    Built ctx .classMember n (ctx.node n (.methodDefinition
      (ctx.node name (.identifier "constructor")) value .constructor false isStatic))
  /-- The body of a class lies between its braces. -/
  | classBody {n : Cst} {origin : Tree μ → Cst} {members : List (Tree μ)} :
    n.kind = .classBody → n.Rows ctx.LiesIn members → (∀ t ∈ members, origin t ∈ n.named) →
    (∀ t ∈ members, Built ctx .classMember (origin t) t) →
    Built ctx .classBody n (ctx.nodeAt n
      (((n.token? "\x7b").map (·.head.stop)).getD n.head.start)
      (((n.token? "\x7d").map (·.head.start)).getD n.head.stop) (.classBody members))
  /-- A declaration in the head of a loop ends with its last variable. -/
  | variableList {n : Cst} {origin : Tree μ → Cst} {declarations : List (Tree μ)}
    {kind : VariableKind} :
    n.Rows ctx.LiesIn declarations → (∀ t ∈ declarations, origin t ∈ n.named) →
    (∀ t ∈ declarations, Built ctx .declarator (origin t) t) →
    Built ctx .variableList n (ctx.nodeAt n n.firstByte
      ((n.named.getLast?.map Cst.lastByte).getD n.lastByte)
      (.variableDeclaration declarations kind))
  /-- A variable that a loop over the parts of an object declares. -/
  | loopVariable {n keyword name : Cst} {value : Option Cst} {id : Tree μ}
    {init : Option (Tree μ)} {kind : VariableKind} :
    n.kind = .forInStatement → n.field? "kind" = some keyword → n.field? "left" = some name →
    n.field? "value" = value → Built ctx .binding name id →
    (∀ t, init = some t → ∃ c, value = some c) →
    (∀ t, init = some t → Built ctx .expression (value.getD name) t) →
    Built ctx .variableList n (ctx.nodeAt n keyword.head.start (value.getD name).lastByte
      (.variableDeclaration [ctx.nodeAt n name.firstByte (value.getD name).lastByte
        (.variableDeclarator id init)] kind))
  /-- A `for` statement, whose test may be a declaration if that is what stands there. -/
  | forLoop {n : Cst} {init test update : Option (Tree μ)} {body : Tree μ} (condition : Cst) :
    n.kind = .forStatement → (∀ t, init = some t → Built ctx .forInit n t) →
    (∀ t, test = some t → n.field? "condition" = some condition) →
    (∀ t, test = some t → Built ctx (Role.forPart.category condition) condition t) →
    (∀ t, update = some t → Built ctx .expression n t) → Built ctx .statement n body →
    Built ctx .statement n (ctx.node n (.forStatement init test update body))

/-- A rule makes of `n` a shape over what is built from it. -/
structure Made (ctx : Context μ) (cat : Category) (n : Cst) (s : Shape (Tree μ)) : Prop where
  text : s.text? = none
  suits : ctx.Suits n s
  parts : ∃ ps, cat.parts? s = some ps ∧ ∀ p ∈ ps, Built ctx p.1 n p.2

/-- A converter only builds what may be built, and a target is what its syntax yields. -/
structure Sound (ctx : Context μ) (f : Converter μ) : Prop where
  built : ∀ role c t, (f role c).result = .ok t → Built ctx (role.category c) c t
  yields : ∀ c t, (f .target c).result = .ok t → ctx.Yields c t

variable {ctx : Context μ} {cat : Category} {n c : Cst} {t : Tree μ} {s : Shape (Tree μ)}

theorem Made.built (h : Made ctx cat n s) : Built ctx cat n (ctx.node n s) := by
  obtain ⟨text, suits, ps, hparts, hbuilt⟩ := h
  exact .node text suits hparts hbuilt

theorem Made.map {x : Outcome (Shape (Tree μ))}
    (hx : ∀ s, x.result = .ok s → Made ctx cat n s)
    (h : (ctx.node n <$> x).result = .ok t) : Built ctx cat n t := by
  obtain ⟨s, hs, rfl⟩ := Outcome.result_map_eq_ok.1 h
  exact (hx s hs).built

/-! ## Where trees stand -/

theorem Context.LiesIn.mono {a b a' b' : Nat} (h : ctx.LiesIn a b t) (ha : a' ≤ a) (hb : b ≤ b') :
    ctx.LiesIn a' b' t := by
  cases h with
  | nodeAt hstart hstop => exact .nodeAt (Nat.le_trans ha hstart) (Nat.le_trans hstop hb)

theorem Context.LiesIn.node (hn : n.Everywhere Cst.Arranged) :
    ctx.LiesIn n.head.start n.head.stop (ctx.node n s) :=
  .nodeAt hn.nested.extent.start_le hn.nested.extent.le_stop

/-- What is built from a piece of syntax stands inside its span, if the spans in it are in order. -/
theorem Built.liesIn (h : Built ctx cat n t) (hn : n.Everywhere Cst.Arranged) :
    ctx.LiesIn n.head.start n.head.stop t := by
  induction h with
  | node | identifier | privateIdentifier | literal | constructor | forLoop => exact .node hn
  | within hc _ ih =>
    have ⟨hstart, hstop⟩ := hn.root.inside _ hc.mem_children
    exact (ih (hn.sees hc)).mono hstart hstop
  | trusted hc =>
    have ⟨hstart, hstop⟩ := hn.root.inside _ hc.sees.mem_children
    exact (Context.LiesIn.node (hn.sees hc.sees)).mono hstart hstop
  | widen _ _ ih => exact ih hn
  | templateElement hk hgap =>
    have ⟨hstart, hstop⟩ := (hn.root.template hk).gaps_inside hn.nested _ hgap
    exact .nodeAt hstart hstop
  | defaultParameter _ hpattern hvalue =>
    have hstart := hn.nested.child_within (Cst.mem_children_of_field? hpattern)
    have hstop := hn.nested.child_within (Cst.mem_children_of_field? hvalue)
    exact .nodeAt hstart.1 hstop.2
  | methodFunction _ hlist =>
    have hstart := hn.nested.child_within (Cst.mem_children_of_field? hlist)
    exact .nodeAt hstart.1 hn.nested.extent.le_stop
  | @classBody n =>
    have inside {text : String} {c : Cst} (hc : n.token? text = some c) :
        n.head.start ≤ c.head.start ∧ c.head.start ≤ c.head.stop ∧ c.head.stop ≤ n.head.stop := by
      have hmem := Cst.mem_parts_of_token? hc
      have := hn.root.inside c (Cst.mem_children_of_mem_parts hmem)
      exact ⟨this.1, (hn.part hmem).root.forward, this.2⟩
    refine .nodeAt ?_ ?_
    · cases hopening : n.token? "\x7b" with
      | none => exact Nat.le_refl _
      | some c => exact Nat.le_trans (inside hopening).1 (inside hopening).2.1
    · cases hclosing : n.token? "\x7d" with
      | none => exact Nat.le_refl _
      | some c => exact Nat.le_trans (inside hclosing).2.1 (inside hclosing).2.2
  | variableList =>
    exact .nodeAt hn.nested.extent.start_le
      (Nat.le_trans hn.nested.lastNamed_le.2 hn.nested.extent.le_stop)
  | loopVariable _ hkeyword hname hvalue =>
    have hlast := Cst.getD_field?_mem_children "value" (Cst.mem_children_of_field? hname)
    exact .nodeAt (hn.root.inside _ (Cst.mem_children_of_field? hkeyword)).1
      (hvalue ▸ (hn.nested.child_within hlast).2)

/-! ## Lists in order -/

theorem Context.Ordered.none (h : s.rows = []) : ctx.Ordered n s where
  rows := h ▸ nofun
  alternates := by
    cases s with
    | templateLiteral => cases h
    | _ => trivial

theorem Context.Ordered.one {ts : List (Tree μ)} (h : s.rows = [ts]) (hs : s.Alternates)
    (hts : n.Rows ctx.LiesIn ts) : ctx.Ordered n s where
  rows := h ▸ List.forall_mem_singleton.2 hts
  alternates := hs

theorem Context.Assigns.of_none (h : s.assigned? = none) : ctx.Assigns n s := by
  intro left hleft
  cases h.symm.trans hleft

theorem Context.Operates.of_none (h : s.operator? = none) : ctx.Operates n s := by
  intro operator hoperator
  cases h.symm.trans hoperator

theorem Context.Operates.of_mark {operator : String} (hs : s.operator? = some operator)
    (hc : n.operatorMark? = some c) (htext : operator = ctx.text c)
    (hallowed : ∀ allowed, s.operators? = some allowed → operator ∈ allowed) :
    ctx.Operates n s := by
  intro operator' hoperator'
  obtain rfl := Option.some.inj (hs.symm.trans hoperator')
  exact ⟨⟨c, hc, htext⟩, hallowed⟩

theorem Context.Suits.none
    (h : (s.rows, s.assigned?, s.operator?) = ([], Option.none, Option.none)) : ctx.Suits n s := by
  simp only [Prod.mk.injEq] at h
  exact ⟨.none h.1, .of_none h.2.1, .of_none h.2.2⟩

theorem Context.Suits.one {ts : List (Tree μ)}
    (h : (s.rows, s.assigned?, s.operator?) = ([ts], Option.none, Option.none))
    (hs : s.Alternates) (hts : n.Rows ctx.LiesIn ts) : ctx.Suits n s := by
  simp only [Prod.mk.injEq] at h
  exact ⟨.one h.1 hs hts, .of_none h.2.1, .of_none h.2.2⟩

/-! ## Nodes and the syntax that they stem from -/

/-- A private name is the text of its syntax, without a number sign if there is one. -/
theorem Context.privateIdentifier_cases (ctx : Context μ) (n : Cst) :
    (∃ rest, (ctx.text n).toList = '#' :: rest ∧
      ctx.privateIdentifier n = ctx.node n (.privateIdentifier (String.ofList rest))) ∨
    ((∀ rest, (ctx.text n).toList ≠ '#' :: rest) ∧
      ctx.privateIdentifier n = ctx.node n (.privateIdentifier (ctx.text n))) := by
  unfold privateIdentifier
  dsimp only
  split
  case h_1 rest h => exact .inl ⟨rest, h, rfl⟩
  case h_2 h => exact .inr ⟨h, rfl⟩

/-- How a node comes from a piece of syntax. A name is the text of a piece of the right kind, or of
one that the syntax around it trusts; any other node suits its piece. -/
inductive Context.Stems (ctx : Context μ) (Q : Cst → Prop) (n : Cst) : Shape (Tree μ) → Prop
  | nameless {s : Shape (Tree μ)} : s.name? = none → ctx.Suits n s → Stems ctx Q n s
  | identifier : n.kind.isIdentifier → Stems ctx Q n (.identifier (ctx.text n))
  | trusted {p : Cst} : p.Everywhere Q → p.Trusts n → Stems ctx Q n (.identifier (ctx.text n))
  | privateIdentifier {name : String} : n.kind = .privatePropertyIdentifier →
    ctx.text n = name ∨ ctx.text n = "#" ++ name → Stems ctx Q n (.privateIdentifier name)
  /-- A constructor whose name is written as a string. -/
  | constructor : n.kind = .string → Stems ctx Q n (.identifier "constructor")

/-- Every node of a tree stems from a piece of syntax that has a property everywhere. -/
def Context.AllStem (ctx : Context μ) (Q : Cst → Prop) (t : Tree μ) : Prop :=
  t.Everywhere fun u => ∃ n : Cst, n.Everywhere Q ∧ (∃ a b, u.mark = ctx.mark n a b) ∧
    ctx.Stems Q n u.shape

section

variable {Q : Cst → Prop} {a b : Nat}

theorem Context.Stems.suits (h : ctx.Stems Q n s) : ctx.Suits n s := by
  cases h with
  | nameless _ hs => exact hs
  | identifier | trusted | privateIdentifier | constructor => exact .none rfl

theorem Context.AllStem.node (hn : n.Everywhere Q) (hs : ctx.Stems Q n s)
    (hc : ∀ c ∈ s.children, ctx.AllStem Q c) : ctx.AllStem Q (ctx.nodeAt n a b s) :=
  .mk ⟨n, hn, ⟨a, b, rfl⟩, hs⟩ hc

theorem Context.AllStem.privateIdentifier (hn : n.Everywhere Q)
    (hk : n.kind = .privatePropertyIdentifier) : ctx.AllStem Q (ctx.privateIdentifier n) := by
  rcases ctx.privateIdentifier_cases n with ⟨rest, htext, heq⟩ | ⟨_, heq⟩
  · have htext : ctx.text n = "#" ++ String.ofList rest := String.toList_inj.1 (by simp [htext])
    exact heq ▸ .node hn (.privateIdentifier hk (.inr htext)) nofun
  · exact heq ▸ .node hn (.privateIdentifier hk (.inl rfl)) nofun

/-- The nodes of what is built from syntax stem from the syntax that they are built from. -/
theorem Built.allStem (h : Built ctx cat n t) (hn : n.Everywhere Q) : ctx.AllStem Q t := by
  induction h with
  | node htext hsuits hparts _ ih =>
    refine .node hn (.nameless (Shape.name?_eq_none htext) hsuits) fun c hc => ?_
    rw [← Category.parts?_children hparts] at hc
    obtain ⟨p, hp, rfl⟩ := List.mem_map.1 hc
    exact ih p hp hn
  | within hc _ ih => exact ih (hn.sees hc)
  | widen _ _ ih => exact ih hn
  | identifier hk => exact .node hn (.identifier hk) nofun
  | trusted hc => exact .node (hn.sees hc.sees) (.trusted hn hc) nofun
  | privateIdentifier hk => exact .privateIdentifier hn hk
  | templateElement => exact .node hn (.nameless rfl (.none rfl)) nofun
  | @literal n value regex =>
    refine .node hn (.nameless (by cases regex <;> rfl) (.none (by cases regex <;> rfl))) ?_
    rw [Shape.children_literal]
    exact nofun
  | defaultParameter _ hpattern hvalue _ _ ihleft ihright =>
    have hleft := ihleft (hn.field? hpattern)
    have hright := ihright (hn.field? hvalue)
    exact .node hn (.nameless rfl (.none rfl))
      (List.forall_mem_cons.2 ⟨hleft, List.forall_mem_singleton.2 hright⟩)
  | @methodFunction n list body params block _ _ _ hlist hbody hrow _ _ ihparams ihblock =>
    have hrow := hrow.child (Cst.mem_children_of_field? hlist)
    refine .node hn (.nameless rfl (.one rfl trivial hrow)) fun c hc => ?_
    have hc : c ∈ params ∨ c = block := by simpa using hc
    rcases hc with hc | rfl
    · exact ihparams c hc (hn.field? hlist)
    · exact ihblock (hn.field? hbody)
  | @constructor n name value _ hname hk _ _ ih =>
    have hkey : ctx.AllStem Q (ctx.node name (.identifier "constructor")) :=
      .node (hn.field? hname) (.constructor hk) nofun
    exact .node hn (.nameless rfl (.none rfl))
      (List.forall_mem_cons.2 ⟨hkey, List.forall_mem_singleton.2 (ih hn)⟩)
  | @classBody n origin members _ hrow horigin _ ih =>
    refine .node hn (.nameless rfl (.one rfl trivial hrow)) fun c hc => ?_
    have hc : c ∈ members := by simpa using hc
    exact ih c hc (hn.named (horigin c hc))
  | @variableList n origin declarations _ hrow horigin _ ih =>
    refine .node hn (.nameless rfl (.one rfl trivial hrow)) fun c hc => ?_
    have hc : c ∈ declarations := by simpa using hc
    exact ih c hc (hn.named (horigin c hc))
  | @loopVariable n keyword name value id init _ _ _ hname hvalue _ hsome _ ihid ihinit =>
    have hnm := Cst.mem_children_of_field? hname
    have hlast := Cst.getD_field?_mem_children "value" hnm
    have hrow : n.Rows ctx.LiesIn [ctx.nodeAt n name.firstByte (value.getD name).lastByte
        (.variableDeclarator id init)] := .singleton fun hn =>
      .nodeAt (hn.nested.child_within hnm).1 (hvalue ▸ (hn.nested.child_within hlast).2)
    refine .node hn (.nameless rfl (.one rfl trivial hrow)) (List.forall_mem_singleton.2 ?_)
    refine .node hn (.nameless rfl (.none rfl)) fun c hc => ?_
    have hc : c = id ∨ init = some c := by simpa using hc
    rcases hc with rfl | hc
    · exact ihid (hn.field? hname)
    · obtain ⟨d, rfl⟩ := hsome c hc
      exact ihinit c hc (hn.field? hvalue)
  | @forLoop n init test update body condition _ _ hcondition _ _ _ ihinit ihtest ihupdate ihbody =>
    refine .node hn (.nameless rfl (.none rfl)) fun c hc => ?_
    have hc : init = some c ∨ test = some c ∨ update = some c ∨ c = body := by
      simpa [or_assoc] using hc
    rcases hc with hc | hc | hc | rfl
    · exact ihinit c hc hn
    · exact ihtest c hc (hn.field? (hcondition c hc))
    · exact ihupdate c hc hn
    · exact ihbody hn

end

/-! ## Converters -/

/-- What is built from syntax in a row is a row. -/
theorem Cst.Rows.mapM {g : Cst → Outcome (Tree μ)} {cs : List Cst} {ts : List (Tree μ)}
    (hcs : n.Rows Cst.LiesIn cs) (hg : ∀ c t, (g c).result = .ok t → ∃ cat, Built ctx cat c t)
    (h : (cs.mapM g).result = .ok ts) : n.Rows ctx.LiesIn ts := by
  refine hcs.forall₂ ((Outcome.result_mapM_eq_ok.1 h).imp fun c t hct a b hc => ?_)
  obtain ⟨cat, ht⟩ := hg c t hct
  exact (ht.liesIn hc.arranged).mono hc.start hc.stop

theorem Built.identifier_le (hcat : Category.inclusions.contains (Category.identifier, cat))
    (hk : n.kind.isIdentifier) : Built ctx cat n (ctx.identifier n) :=
  .widen (Category.le_of_contains hcat) (.identifier hk)

theorem Built.trusted_le (hcat : Category.inclusions.contains (Category.identifier, cat))
    (hc : n.Trusts c) : Built ctx cat n (ctx.identifier c) :=
  .widen (Category.le_of_contains hcat) (.trusted hc)

theorem Built.privateIdentifier_le (hcat : Category.inclusions.contains (Category.privateName, cat))
    (hk : n.kind = .privatePropertyIdentifier) : Built ctx cat n (ctx.privateIdentifier n) :=
  .widen (Category.le_of_contains hcat) (.privateIdentifier hk)

namespace Sound

variable {f : Converter μ} (hf : Sound ctx f) {r : Role}
include hf

theorem sees (hcat : ∀ c, r.category c ≤ cat) (hc : n.Sees c)
    (h : (f r c).result = .ok t) : Built ctx cat n t :=
  .within hc (.widen (hcat c) (hf.built r c t h))

theorem field (hcat : ∀ c, r.category c ≤ cat) {name : String}
    (hc : n.field? name = some c) (hname : Cst.fieldNames.contains name)
    (h : (f r c).result = .ok t) : Built ctx cat n t := hf.sees hcat (.of_field? hc hname) h

theorem first (hcat : ∀ c, r.category c ≤ cat)
    (h : (ctx.firstNamed n >>= f r).result = .ok t) : Built ctx cat n t := by
  obtain ⟨c, hc, ht⟩ := Outcome.result_bind_eq_ok.1 h
  exact hf.sees hcat (.of_head?_named (Context.result_firstNamed.1 hc)) ht

theorem mapM (hcat : ∀ c, r.category c ≤ cat) {cs : List Cst} {ts : List (Tree μ)}
    (hcs : ∀ c ∈ cs, n.Sees c) (h : (cs.mapM (f r)).result = .ok ts) :
    ∀ t ∈ ts, Built ctx cat n t := by
  intro t ht
  obtain ⟨c, hc, hct⟩ := Outcome.exists_of_mem_mapM h ht
  exact hf.sees hcat (hcs c hc) hct

theorem named (hcat : ∀ c, r.category c ≤ cat) {ts : List (Tree μ)}
    (h : (n.named.mapM (f r)).result = .ok ts) : ∀ t ∈ ts, Built ctx cat n t :=
  hf.mapM hcat (fun _ => .of_mem_named) h

/-- What a converter builds from syntax in a row is a row. -/
theorem rows {cs : List Cst} {ts : List (Tree μ)} (hcs : n.Rows Cst.LiesIn cs)
    (h : (cs.mapM (f r)).result = .ok ts) : n.Rows ctx.LiesIn ts :=
  hcs.mapM (fun c t ht => ⟨_, hf.built r c t ht⟩) h

theorem option (hcat : ∀ c, r.category c ≤ cat) {o : Option Cst} {o' : Option (Tree μ)}
    (ho : ∀ c, o = some c → n.Sees c) (h : (Outcome.onSome (f r) o).result = .ok o') :
    ∀ t ∈ o'.toList, Built ctx cat n t := by
  intro t ht
  obtain rfl := Option.mem_toList.1 ht
  cases Outcome.result_onSome_eq_ok.1 h with
  | some hct => exact hf.sees hcat (ho _ rfl) hct

theorem field? (hcat : ∀ c, r.category c ≤ cat) {name : String} {o' : Option (Tree μ)}
    (hname : Cst.fieldNames.contains name)
    (h : (Outcome.onSome (f r) (n.field? name)).result = .ok o') :
    ∀ t ∈ o'.toList, Built ctx cat n t := hf.option hcat (fun _ hc => .of_field? hc hname) h

end Sound

end Estree
