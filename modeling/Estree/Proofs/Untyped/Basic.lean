import Estree.Proofs.Simulation.Basic
import Estree.Proofs.Spans

/-!
# Deleting types

`Cst.untyped` deletes types: annotations, type parameters and arguments, modifiers of access, the
tokens that only types need, what a class implements, and parameters `this`. An optional parameter
becomes a required one, and a type wrapper gives way to its operand.

Where types stand only where the grammar has them (`Cst.TypesPlaced`), what a rule finds in a node is
found in the node without types as well: named children and parts, but for the deleted ones, and
fields.
-/

namespace Estree.Cst

/-- Whether a node is a type, a modifier of access, or a token that only types need. -/
def isTypePart (n : Cst) : Bool :=
  if n.head.isNamed then
    ["type_annotation", "type_parameters", "type_arguments", "accessibility_modifier",
      "override_modifier"].contains n.head.label
  else ["?", "!", "readonly"].contains n.head.label

/-- Whether a node says what a class implements. -/
def isImplements (n : Cst) : Bool := n.head.isNamed && n.head.label == "implements_clause"

/-- Whether a child stays when types are deleted. -/
def keeps (n c : Cst) : Bool :=
  !(n.kind.takesTypes && c.isTypePart) && !c.isImplements && !c.isThisParameter

/-- The head of a node, with the label of a required parameter for that of an optional one. -/
def required (n : Cst) : Head :=
  if n.kind = .optionalParameter then { n.head with label := "required_parameter" } else n.head

mutual

/-- A node without types. A type wrapper gives way to its operand, which takes its field. -/
def untyped : Cst → Cst
  | node head cs =>
    let pairs := untypedOf cs
    if (node head cs).kind.isTypeWrapper then
      let named := pairs.filter fun pair => !pair.1.head.isExtra && pair.1.head.isNamed
      let wrapped? :=
        if (node head cs).kind = .typeAssertion then named.getLast? else named.head?
      (wrapped?.map fun pair => pair.2.inField head.field).getD (node head cs)
    else
      node (node head cs).required
        ((pairs.filter fun pair => (node head cs).keeps pair.1).map (·.2))

/-- Several nodes, each with itself without types. -/
def untypedOf : List Cst → List (Cst × Cst)
  | [] => []
  | c :: cs => (c, c.untyped) :: untypedOf cs

end

/-- In a node types stand where the grammar has them. -/
structure TypesPlaced (n : Cst) : Prop where
  nests : n.Nests
  /-- What is deleted is in no field that is looked up, and neither are parameters. -/
  unlooked : ∀ c ∈ n.children, !n.keeps c || c.isParameter →
    ∀ name ∈ fieldNames, c.head.field ≠ some name
  heritage : n.kind = .classHeritage →
    ∀ c ∈ n.named, c.head.label = "extends_clause" ∨ c.isImplements
  implementer : ∀ c ∈ n.children, c.isImplements → n.kind = .classHeritage
  value : n.kind = .extendsClause → (n.field? "value").isSome
  parameters : ∀ c ∈ n.children, c.isParameter → n.kind = .formalParameters
  pattern : n.isParameter → (n.field? "pattern").isSome
  /-- A type wrapper is no extra node, and it has an operand that is an expression. -/
  operand : n.kind.isTypeWrapper →
    n.head.isExtra = false ∧ n.wrapped?.any fun c => c.isOperand || c.kind.isTypeWrapper
  /-- A type wrapper stands where an expression may stand, or a pattern. -/
  place : ∀ c ∈ n.children, c.kind.isTypeWrapper → n.opensTo c
  /-- No type wrapper is the block of a clause of a `try`. -/
  clause : n.kind = .tryStatement → ∀ name ∈ ["handler", "finalizer"], (n.field? name).all fun c =>
    (c.field? "body").all (!·.kind.isTypeWrapper)
  /-- No type wrapper is a case of a switch. -/
  switch : n.kind = .switchStatement → (n.field? "body").all fun c =>
    c.kind.isPlain && !c.kind.isTypeWrapper && c.named.all (!·.kind.isTypeWrapper)

instance : DecidablePred TypesPlaced := fun _ =>
  decidable_of_iff (_ ∧ _ ∧ _ ∧ _ ∧ _ ∧ _ ∧ _ ∧ _ ∧ _ ∧ _ ∧ _)
    ⟨fun ⟨h₁, h₂, h₃, h₄, h₅, h₆, h₇, h₈, h₉, h₁₀, h₁₁⟩ =>
        ⟨h₁, h₂, h₃, h₄, h₅, h₆, h₇, h₈, h₉, h₁₀, h₁₁⟩,
      fun ⟨h₁, h₂, h₃, h₄, h₅, h₆, h₇, h₈, h₉, h₁₀, h₁₁⟩ =>
        ⟨h₁, h₂, h₃, h₄, h₅, h₆, h₇, h₈, h₉, h₁₀, h₁₁⟩⟩

/-! ## The kinds of what is deleted -/

theorem kind_of_label {n : Cst} (h : Kind.ofName n.head.label = .other) : n.kind = .other := by
  rw [kind, h, ite_self]

theorem kind_of_isTypePart {n : Cst} (h : n.isTypePart) : n.kind = .other := by
  unfold isTypePart at h
  split at h
  case isTrue =>
    have hall : ["type_annotation", "type_parameters", "type_arguments", "accessibility_modifier",
      "override_modifier"].all (Kind.ofName · == .other) := by decide
    exact kind_of_label (beq_iff_eq.1 (List.all_eq_true.1 hall _ (List.contains_iff_mem.1 h)))
  case isFalse hn => simp [kind, hn]

theorem kind_of_isImplements {n : Cst} (h : n.isImplements) : n.kind = .other := by
  rw [isImplements, Bool.and_eq_true, beq_iff_eq] at h
  exact kind_of_label (by rw [h.2]; rfl)

/-- What is deleted is of no kind, or it is a parameter. -/
theorem kind_of_keeps {n c : Cst} (h : n.keeps c = false) : c.kind = .other ∨ c.isParameter := by
  simp only [keeps, Bool.and_eq_false_iff, Bool.not_eq_false'] at h
  rcases h with (h | h) | h
  · rw [Bool.and_eq_true] at h
    exact .inl (kind_of_isTypePart h.2)
  · exact .inl (kind_of_isImplements h)
  · rw [isThisParameter, Bool.and_eq_true, Bool.and_eq_true] at h
    exact .inr h.1.1

theorem keeps_of_kind {n c : Cst} (hother : c.kind ≠ .other) (hparam : c.isParameter = false) :
    n.keeps c := by
  by_contra h
  rcases kind_of_keeps (eq_false_of_ne_true h) with h | h
  · exact hother h
  · simp [hparam] at h

/-! ## Views of a node without types -/

theorem untypedOf_eq (cs : List Cst) : untypedOf cs = cs.map fun c => (c, c.untyped) := by
  induction cs with
  | nil => rfl
  | cons c cs ih => rw [untypedOf, ih, List.map_cons]

theorem untyped_of_plain {n : Cst} (h : n.kind.isTypeWrapper = false) :
    n.untyped = node n.required ((n.children.filter n.keeps).map untyped) := by
  obtain ⟨head, cs⟩ := n
  rw [untyped, h, if_neg Bool.false_ne_true, untypedOf_eq, List.filter_map, List.map_map]
  rfl

theorem untyped_of_isTypeWrapper {n : Cst} (h : n.kind.isTypeWrapper) :
    n.untyped = (n.wrapped?.map fun c => c.untyped.inField n.head.field).getD n := by
  obtain ⟨head, cs⟩ := n
  have hnamed : ((cs.map fun c => (c, c.untyped)).filter fun pair =>
      !pair.1.head.isExtra && pair.1.head.isNamed)
        = ((node head cs).named.map fun c => (c, c.untyped)) := by
    rw [List.filter_map, named, parts, List.filter_filter]
    simp only [Function.comp_def, children_node, Bool.and_comm]
  rw [untyped, if_pos h, untypedOf_eq, hnamed, wrapped?]
  dsimp only
  split
  · rw [List.getLast?_map, Option.map_map]
    rfl
  · rw [List.head?_map, Option.map_map]
    rfl

theorem untyped_of_wrapped? {n c : Cst} (h : n.kind.isTypeWrapper) (hc : n.wrapped? = some c) :
    n.untyped = c.untyped.inField n.head.field := by
  rw [untyped_of_isTypeWrapper h, hc, Option.map_some, Option.getD_some]

theorem children_untyped {n : Cst} (h : n.kind.isTypeWrapper = false) :
    n.untyped.children = (n.children.filter n.keeps).map untyped := by
  rw [untyped_of_plain h, children_node]

theorem field_untyped (n : Cst) : n.untyped.head.field = n.head.field := by
  cases hw : n.kind.isTypeWrapper with
  | false =>
    rw [untyped_of_plain hw, head_node, required]
    split <;> rfl
  | true =>
    rw [untyped_of_isTypeWrapper hw]
    cases n.wrapped? <;> rfl

/-- A node that is not a parameter keeps its head, and so does a required parameter. -/
theorem head_untyped {n : Cst} (hw : n.kind.isTypeWrapper = false)
    (hk : n.kind ≠ .optionalParameter) : n.untyped.head = n.head := by
  rw [untyped_of_plain hw, head_node, required, if_neg hk]

theorem kind_of_head {n m : Cst} (h : n.head = m.head) : n.kind = m.kind := by
  rw [kind, kind, isDamaged, isDamaged, h]

/-- Tokens stay as they are. -/
theorem head_untyped_of_token {n : Cst} (hn : n.head.isNamed = false) : n.untyped.head = n.head := by
  have hk : n.kind = .other := by simp [kind, hn]
  exact head_untyped (by rw [hk]; rfl) (by simp [hk])

theorem ne_optionalParameter {n : Cst} (h : n.isParameter = false) :
    n.kind ≠ .optionalParameter := fun hk => by simp [isParameter, hk] at h

theorem kind_untyped {n : Cst} (hw : n.kind.isTypeWrapper = false) (hp : n.isParameter = false) :
    n.untyped.kind = n.kind := kind_of_head (head_untyped hw (ne_optionalParameter hp))

theorem isTypeWrapper_of_isParameter {n : Cst} (h : n.isParameter) :
    n.kind.isTypeWrapper = false := by
  rw [isParameter, Bool.or_eq_true, beq_iff_eq, beq_iff_eq] at h
  rcases h with h | h <;> rw [h] <;> rfl

/-- A parameter is left as a required one. -/
theorem kind_untyped_of_isParameter {n : Cst} (h : n.isParameter) :
    n.untyped.kind = .requiredParameter := by
  have hw := isTypeWrapper_of_isParameter h
  rw [isParameter, Bool.or_eq_true, beq_iff_eq, beq_iff_eq] at h
  rcases h with h | h
  · rw [kind_of_head (head_untyped hw (by simp [h])), h]
  · have hintact : ¬(n.isDamaged || !n.head.isNamed) := fun hdamaged => by
      rw [kind, if_pos hdamaged] at h
      cases h
    have hhead : n.untyped.head = { n.head with label := "required_parameter" } := by
      rw [untyped_of_plain hw, head_node, required, if_pos h]
    rw [isDamaged] at hintact
    rw [kind, isDamaged, hhead, if_neg hintact]
    rfl

theorem isParameter_untyped {n : Cst} (h : n.isParameter) : n.untyped.isParameter := by
  rw [isParameter, kind_untyped_of_isParameter h]
  rfl

/-! ## What a type wrapper leaves -/

theorem isOperand_iff {n : Cst} : n.isOperand ↔
    n.head.isNamed ∧ n.head.label ≠ "decorator" ∧ n.kind ∈ Kind.operands := by
  simp [isOperand, and_assoc]

theorem isTypeWrapper_of_isOperand {n : Cst} (h : n.isOperand) : n.kind.isTypeWrapper = false := by
  have hall : Kind.operands.all (!·.isTypeWrapper) := by decide
  simpa using List.all_eq_true.1 hall _ (mem_operands h)

theorem isParameter_of_isOperand {n : Cst} (h : n.isOperand) : n.isParameter = false := by
  have hall : Kind.operands.all fun k => !(k == .requiredParameter || k == .optionalParameter) := by
    decide
  rw [isParameter, ← Bool.not_eq_true']
  exact List.all_eq_true.1 hall _ (mem_operands h)

theorem TypesPlaced.exists_wrapped {n : Cst} (h : n.TypesPlaced) (hw : n.kind.isTypeWrapper) :
    ∃ c, n.wrapped? = some c ∧ (c.isOperand ∨ c.kind.isTypeWrapper) := by
  have hany := (h.operand hw).2
  rw [Option.any_eq_true] at hany
  obtain ⟨c, hc, hkind⟩ := hany
  exact ⟨c, hc, by simpa using hkind⟩

theorem mem_named_of_wrapped? {n c : Cst} (h : n.wrapped? = some c) : c ∈ n.named := by
  unfold wrapped? at h
  split at h
  · exact List.mem_of_getLast? h
  · exact List.mem_of_head? h

/-- What a node leaves lies in its span, and where it is looked for in a list it is found in the same
place. What a type wrapper leaves is an expression. -/
structure Leaves (n : Cst) : Prop where
  isNamed : n.untyped.head.isNamed = n.head.isNamed
  isExtra : n.untyped.head.isExtra = n.head.isExtra
  start_le : n.head.start ≤ n.untyped.head.start
  forward : n.untyped.head.start ≤ n.untyped.head.stop
  le_stop : n.untyped.head.stop ≤ n.head.stop
  operand : n.kind.isTypeWrapper → n.untyped.isOperand

theorem Everywhere.leaves {n : Cst} (h : n.Everywhere TypesPlaced) : n.Leaves := by
  induction h with
  | @mk n h _ ih =>
    have hforward := h.nests.forward
    cases hw : n.kind.isTypeWrapper with
    | false =>
      have hhead : n.untyped.head = n.required := by rw [untyped_of_plain hw, head_node]
      unfold required at hhead
      constructor
      case operand => simp [hw]
      all_goals
        rw [hhead]
        split <;> first | rfl | exact Nat.le_refl _ | exact hforward
    | true =>
      obtain ⟨c, hc, hkind⟩ := h.exists_wrapped hw
      have hmem := mem_named_of_wrapped? hc
      have hin := mem_children_of_mem_named hmem
      have hleaves := ih c hin
      have hinside := h.nests.inside c hin
      have hextra : c.head.isExtra = false := by
        simpa using (List.mem_filter.1 (mem_parts_of_mem_named hmem)).2
      have hoperand : c.untyped.isOperand := by
        rcases hkind with hoperand | hwrapper
        · have hplain := isTypeWrapper_of_isOperand hoperand
          have hparam := isParameter_of_isOperand hoperand
          rw [isOperand, kind_untyped hplain hparam, head_untyped hplain (ne_optionalParameter hparam)]
          exact hoperand
        · exact hleaves.operand hwrapper
      have hnamed : n.head.isNamed := isNamed_of_kind (Kind.ne_of_isTypeWrapper hw rfl)
      have hforward' := hleaves.forward
      have hstart := Nat.le_trans hinside.1 hleaves.start_le
      have hstop := Nat.le_trans hleaves.le_stop hinside.2
      have hextra' := hleaves.isExtra.trans (hextra.trans (h.operand hw).1.symm)
      have hnamed' := (isNamed_of_isOperand hoperand).trans hnamed.symm
      have hview := untyped_of_wrapped? hw hc
      constructor <;> rw [hview]
      case operand => exact fun _ => hoperand
      all_goals assumption

/-! ## What is found without types -/

/-- Filtering what is left by something that deleted nodes do not have. -/
theorem filter_map_untyped {k p : Cst → Bool} {cs : List Cst}
    (h : ∀ c ∈ cs, (k c && p c.untyped) = p c) :
    ((cs.filter k).map untyped).filter p = (cs.filter p).map untyped := by
  rw [List.filter_map, List.filter_filter]
  refine congrArg (List.map untyped) (List.filter_congr fun c hc => ?_)
  rw [← h c hc, Bool.and_comm]
  rfl

/-- The kinds of nodes that types have to do with: type wrappers, expressions, which may stand in
one, parameters, and nodes of no kind. -/
def changing : List Kind :=
  Kind.typeWrappers ++ Kind.operands ++ [.requiredParameter, .optionalParameter]

/-- A node of another kind is found in its place when types are deleted, and no other is. -/
theorem keeps_and_kind {n c : Cst} (h : c.Everywhere TypesPlaced) {p : Kind → Bool}
    (hp : changing.all (!p ·)) : (n.keeps c && p c.untyped.kind) = p c.kind := by
  simp only [changing, List.all_append, Bool.and_eq_true, List.all_eq_true, Bool.not_eq_true'] at hp
  obtain ⟨⟨hwrappers, hoperands⟩, hparams⟩ := hp
  cases hw : c.kind.isTypeWrapper with
  | true =>
    rw [hoperands _ (mem_operands (h.leaves.operand hw)),
      hwrappers _ (Kind.isTypeWrapper_iff.1 hw), Bool.and_false]
  | false =>
    cases hparam : c.isParameter with
    | true =>
      have hk : c.kind ∈ [Kind.requiredParameter, .optionalParameter] := by
        simpa [isParameter] using hparam
      rw [kind_untyped_of_isParameter hparam, hparams _ List.mem_cons_self, hparams _ hk,
        Bool.and_false]
    | false =>
      rw [kind_untyped hw hparam]
      by_cases hother : c.kind = .other
      · rw [hother, hoperands _ (by decide), Bool.and_false]
      · rw [keeps_of_kind hother hparam, Bool.true_and]

section

variable {n : Cst} (h : n.Everywhere TypesPlaced) (hw : n.kind.isTypeWrapper = false)
include h hw

theorem parts_untyped : n.untyped.parts = (n.parts.filter n.keeps).map untyped := by
  rw [parts, children_untyped hw, List.filter_map, parts, List.filter_filter, List.filter_filter]
  refine congrArg (List.map untyped) (List.filter_congr fun c hc => ?_)
  rw [Function.comp_apply, (h.child hc).leaves.isExtra, Bool.and_comm]

theorem named_untyped : n.untyped.named = (n.named.filter n.keeps).map untyped := by
  rw [named, parts_untyped h hw, List.filter_map, named, List.filter_filter, List.filter_filter]
  refine congrArg (List.map untyped) (List.filter_congr fun c hc => ?_)
  rw [Function.comp_apply, (h.part hc).leaves.isNamed, Bool.and_comm]

/-- What is in a field that is looked up stays there. -/
theorem field?_untyped {name : String} (hname : name ∈ fieldNames) :
    n.untyped.field? name = (n.field? name).map untyped := by
  unfold field?
  rw [children_untyped hw, ← List.head?_filter, ← List.head?_filter, ← List.head?_map]
  refine congrArg List.head? (filter_map_untyped fun c hc => ?_)
  rw [field_untyped]
  cases hfield : c.head.field == some name with
  | false => rw [Bool.and_false]
  | true =>
    have hkeeps : n.keeps c := by
      by_contra hdeleted
      exact h.root.unlooked c hc (by simp [hdeleted]) name hname (beq_iff_eq.1 hfield)
    rw [hkeeps, Bool.true_and]

/-- Children of kinds that types have nothing to do with stay. -/
theorem filter_kind_untyped {p : Kind → Bool} (hp : changing.all (!p ·)) :
    n.untyped.parts.filter (p ·.kind) = (n.parts.filter (p ·.kind)).map untyped := by
  rw [parts_untyped h hw]
  exact filter_map_untyped fun c hc => keeps_and_kind (h.part hc) hp

theorem find?_kind_untyped {p : Kind → Bool} (hp : changing.all (!p ·)) :
    n.untyped.named.find? (p ·.kind) = (n.named.find? (p ·.kind)).map untyped := by
  rw [named_untyped h hw, ← List.head?_filter, ← List.head?_filter, ← List.head?_map]
  exact congrArg List.head? (filter_map_untyped fun c hc => keeps_and_kind (h.named hc) hp)

theorem decorators_untyped : n.untyped.decorators = n.decorators.map untyped := by
  rw [decorators, named_untyped h hw, decorators]
  refine filter_map_untyped fun c hc => ?_
  have hlabel {d : Cst} (hk : d.kind ≠ .other) : (d.head.label == "decorator") = false :=
    beq_eq_false_iff_ne.2 fun hlabel => hk (kind_of_label (by rw [hlabel]; rfl))
  cases hwrapper : c.kind.isTypeWrapper with
  | true =>
    have hoperand := (isOperand_iff.1 ((h.named hc).leaves.operand hwrapper)).2.1
    rw [beq_eq_false_iff_ne.2 hoperand, hlabel (Kind.ne_of_isTypeWrapper hwrapper rfl),
      Bool.and_false]
  | false =>
    cases hparam : c.isParameter with
    | true =>
      have hleft := hlabel (d := c.untyped) (by rw [kind_untyped_of_isParameter hparam]; nofun)
      have hright := hlabel (d := c) fun hk => by simp [isParameter, hk] at hparam
      rw [hleft, hright, Bool.and_false]
    | false =>
      rw [head_untyped hwrapper (ne_optionalParameter hparam)]
      cases hdecorator : c.head.label == "decorator" with
      | false => rw [Bool.and_false]
      | true =>
        have hkeeps : n.keeps c := by
          simp [keeps, isTypePart, isImplements, isThisParameter, hparam, beq_iff_eq.1 hdecorator]
        rw [hkeeps, Bool.true_and]

end

/-! ## Modifiers -/

/-- The tokens that only types need. -/
def typeTokens : List String := ["?", "!", "readonly"]

/-- No modifier is written with a token that only types need. -/
theorem ofTokens_filter (tokens : List String) :
    Modifiers.ofTokens (tokens.filter (!typeTokens.contains ·)) = Modifiers.ofTokens tokens := by
  have hcontains {w : String} (hw : !typeTokens.contains w) :
      (tokens.filter (!typeTokens.contains ·)).contains w = tokens.contains w := by
    rw [Bool.eq_iff_iff, List.contains_iff_mem, List.contains_iff_mem, List.mem_filter]
    exact and_iff_left hw
  simp only [Modifiers.ofTokens]
  rw [hcontains rfl, hcontains rfl, hcontains rfl, hcontains rfl, hcontains rfl, hcontains rfl]

/-- Whether a part stands before the parameters, and before an offset if one is given. -/
def isBefore (bound : Option Nat) (c : Cst) : Bool :=
  bound.all (c.head.start < ·) && c.kind != .formalParameters

/-- The anonymous tokens before the parameters. -/
def tokensBefore (bound : Option Nat) (cs : List Cst) : List String :=
  ((cs.takeWhile (isBefore bound)).filter (!·.head.isNamed)).map (·.head.label)

theorem modifierTokens_eq (n : Cst) (name : Option Cst) :
    n.modifierTokens name = tokensBefore (name.map (·.head.start)) n.parts := by
  unfold modifierTokens tokensBefore isBefore
  simp only [Option.all_map]

theorem tokensBefore_of_not {bound : Option Nat} {c : Cst} {cs : List Cst}
    (hc : isBefore bound c = false) : tokensBefore bound (c :: cs) = [] := by
  simp [tokensBefore, hc]

/-- Parts that start too late are no modifiers. -/
theorem tokensBefore_eq_nil {bound : Nat} {cs : List Cst} (h : ∀ c ∈ cs, bound ≤ c.head.start) :
    tokensBefore (some bound) cs = [] := by
  cases cs with
  | nil => rfl
  | cons c cs =>
    have hc := h c List.mem_cons_self
    exact tokensBefore_of_not (by simp [isBefore]; omega)

theorem tokensBefore_cons {bound : Option Nat} {c : Cst} (cs : List Cst) (hc : isBefore bound c) :
    tokensBefore bound (c :: cs)
      = (if c.head.isNamed then [] else [c.head.label]) ++ tokensBefore bound cs := by
  cases hn : c.head.isNamed <;> simp [tokensBefore, hc, hn]

/-- A part that does not stand before the parameters or the offset is the parameters, or it starts
too late. -/
theorem isBefore_eq_false {bound : Option Nat} {c : Cst} (h : isBefore bound c = false) :
    c.kind = .formalParameters ∨ ∃ b, bound = some b ∧ b ≤ c.head.start := by
  by_cases hk : c.kind = .formalParameters
  · exact .inl hk
  · cases bound with
    | none => simp [isBefore, hk] at h
    | some b => exact .inr ⟨b, rfl, by simpa [isBefore, hk] using h⟩

theorem isBefore_of_start {bound : Option Nat} {b : Nat} {c : Cst} (hb : bound = some b)
    (h : b ≤ c.head.start) : isBefore bound c = false := by
  simp [isBefore, hb, Nat.not_lt.2 h]

/-- Only tokens that types need are deleted among the anonymous ones. -/
theorem typeTokens_of_keeps {n c : Cst} (h : n.keeps c = false) (hn : c.head.isNamed = false) :
    typeTokens.contains c.head.label := by
  have hk : c.kind = .other := by simp [kind, hn]
  simp only [keeps, isImplements, isThisParameter, isParameter, hn, hk, isTypePart,
    Bool.and_eq_false_iff] at h
  simp [typeTokens] at h ⊢
  tauto

section

variable {n c : Cst} {bound : Option Nat} {cs : List Cst}

/-- Where all parts start too late, what they leave does too. -/
theorem tokensBefore_untyped_eq_nil {b : Nat} (h : ∀ d ∈ cs, d.Everywhere TypesPlaced)
    (hlate : ∀ d ∈ cs, b ≤ d.head.start) :
    tokensBefore (some b) ((cs.filter n.keeps).map untyped) = [] := by
  refine tokensBefore_eq_nil fun d hd => ?_
  obtain ⟨e, he, rfl⟩ := List.mem_map.1 hd
  have he := (List.mem_filter.1 he).1
  exact Nat.le_trans (hlate e he) (h e he).leaves.start_le

/-- A part in a row of them, which all stand behind it. -/
structure First (c : Cst) (cs : List Cst) : Prop where
  typed : c.Everywhere TypesPlaced
  rest : ∀ d ∈ cs, d.Everywhere TypesPlaced
  after : ∀ d ∈ cs, c.head.stop ≤ d.head.start

variable (h : First c cs)
  (ih : (tokensBefore bound ((cs.filter n.keeps).map untyped)).filter (!typeTokens.contains ·)
    = (tokensBefore bound cs).filter (!typeTokens.contains ·))
include h ih

/-- A part that is deleted is no modifier. -/
theorem tokensBefore_of_deleted (hkeeps : n.keeps c = false) :
    (tokensBefore bound ((cs.filter n.keeps).map untyped)).filter (!typeTokens.contains ·)
      = (tokensBefore bound (c :: cs)).filter (!typeTokens.contains ·) := by
  cases hbefore : isBefore bound c with
  | false =>
    rcases isBefore_eq_false hbefore with hk | ⟨b, rfl, hb⟩
    · have hkind := keeps_and_kind (n := n) h.typed (p := (· == .formalParameters)) (by decide)
      simp [hk, hkeeps] at hkind
    · have hstop := Nat.le_trans hb h.typed.root.nests.forward
      rw [tokensBefore_of_not hbefore,
        tokensBefore_untyped_eq_nil h.rest fun d hd => Nat.le_trans hstop (h.after d hd)]
  | true =>
    rw [ih, tokensBefore_cons cs hbefore, List.filter_append]
    cases hn : c.head.isNamed with
    | true => rfl
    | false => simp [List.contains_iff_mem.1 (typeTokens_of_keeps hkeeps hn)]

/-- A part that stays is the modifier that it was. If it is a type wrapper, what it leaves may start
too late, but then all that follows does too. -/
theorem tokensBefore_of_kept (hkeeps : n.keeps c) :
    (tokensBefore bound (c.untyped :: (cs.filter n.keeps).map untyped)).filter
        (!typeTokens.contains ·)
      = (tokensBefore bound (c :: cs)).filter (!typeTokens.contains ·) := by
  have hleaves := h.typed.leaves
  have hkind := keeps_and_kind (n := n) h.typed (p := (· == .formalParameters)) (by decide)
  rw [hkeeps, Bool.true_and] at hkind
  cases hbefore : isBefore bound c with
  | false =>
    rw [tokensBefore_of_not hbefore]
    rcases isBefore_eq_false hbefore with hk | ⟨b, hbound, hb⟩
    · rw [tokensBefore_of_not (by simp_all [isBefore])]
    · rw [tokensBefore_of_not (isBefore_of_start hbound (Nat.le_trans hb hleaves.start_le))]
  | true =>
    rw [tokensBefore_cons cs hbefore]
    cases hleft : isBefore bound c.untyped with
    | true =>
      rw [tokensBefore_cons _ hleft, List.filter_append, List.filter_append, ih, hleaves.isNamed]
      cases hn : c.head.isNamed with
      | true => rfl
      | false => rw [head_untyped_of_token hn]
    | false =>
      have hn : c.head.isNamed := by
        by_contra hn
        have heq := head_untyped_of_token (eq_false_of_ne_true hn)
        rw [isBefore, heq, kind_of_head heq, ← isBefore, hbefore] at hleft
        cases hleft
      rw [tokensBefore_of_not hleft, if_pos hn, List.nil_append]
      rcases isBefore_eq_false hleft with hk | ⟨b, rfl, hb⟩
      · simp_all [isBefore]
      · have hstop := Nat.le_trans hb (Nat.le_trans hleaves.forward hleaves.le_stop)
        rw [tokensBefore_eq_nil fun d hd => Nat.le_trans hstop (h.after d hd)]

end

/-- Deleting types deletes no modifier, as the parts of a node stand in order. -/
theorem tokensBefore_untyped {n : Cst} {bound : Option Nat} {cs : List Cst}
    (h : ∀ c ∈ cs, c.Everywhere TypesPlaced)
    (horder : cs.Pairwise fun c d => c.head.stop ≤ d.head.start) :
    (tokensBefore bound ((cs.filter n.keeps).map untyped)).filter (!typeTokens.contains ·)
      = (tokensBefore bound cs).filter (!typeTokens.contains ·) := by
  induction cs with
  | nil => rfl
  | cons c cs ih =>
    rw [List.pairwise_cons] at horder
    have hrest : ∀ d ∈ cs, d.Everywhere TypesPlaced := fun d hd => h d (.tail _ hd)
    have hfirst : First c cs := ⟨h c List.mem_cons_self, hrest, horder.1⟩
    have ih := ih hrest horder.2
    cases hkeeps : n.keeps c with
    | false =>
      rw [List.filter_cons_of_neg (by simp [hkeeps])]
      exact tokensBefore_of_deleted hfirst ih hkeeps
    | true =>
      rw [List.filter_cons_of_pos hkeeps, List.map_cons]
      exact tokensBefore_of_kept hfirst ih hkeeps

/-- Types make no difference to the modifiers of a function or method. -/
theorem modifiers_untyped {n : Cst} (h : n.Everywhere TypesPlaced)
    (hw : n.kind.isTypeWrapper = false) {name name' : Option Cst}
    (hname : name'.map (·.head.start) = name.map (·.head.start)) :
    Modifiers.ofTokens (n.untyped.modifierTokens name')
      = Modifiers.ofTokens (n.modifierTokens name) := by
  rw [modifierTokens_eq, modifierTokens_eq, hname, parts_untyped h hw, ← ofTokens_filter,
    tokensBefore_untyped (fun _ => h.part) h.root.nests.parts, ofTokens_filter]

end Estree.Cst
