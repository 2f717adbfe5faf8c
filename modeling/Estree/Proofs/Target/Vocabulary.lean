import Estree.Proofs.Simulation.Descent
import Estree.Proofs.Spans
import Estree.Proofs.Target.Basic

/-!
# Two vocabularies of targets

A parser delivers a target as a literal or as a pattern, and may mix the two at any depth.
`Cst.asPattern` renames literals to patterns wherever a target may stand, and leaves everything else
as it is. The rules for targets see no difference (`Program.convert_asPattern`): what they find in a
node, they find in the renamed node as well, either as it was or renamed (`Cst.Replaces`).
-/

namespace Estree

/-! ## Renaming literals to patterns -/

/-- Where the targets in a node stand among its children. -/
inductive TargetPlace where
  /-- All named children. -/
  | each
  /-- The first named child. -/
  | first
  /-- The last named child. -/
  | last
  | inField (name : String)
  | nowhere
  deriving DecidableEq, Repr

namespace Kind

/-- What a kind of expression is called in the syntax of patterns. -/
def patternName? : Kind → Option String
  | object => some "object_pattern"
  | array => some "array_pattern"
  | pair => some "pair_pattern"
  | shorthandPropertyIdentifier => some "shorthand_property_identifier_pattern"
  | spreadElement => some "rest_pattern"
  | assignmentExpression => some "assignment_pattern"
  | _ => none

def asPattern (k : Kind) : Kind := (k.patternName?.map ofName).getD k

def targetPlace : Kind → TargetPlace
  | object | objectPattern | array | arrayPattern => .each
  | parenthesizedExpression | asExpression | satisfiesExpression | nonNullExpression
  | spreadElement | restPattern => .first
  | typeAssertion => .last
  | pair | pairPattern => .inField "value"
  | assignmentExpression | assignmentPattern | objectAssignmentPattern => .inField "left"
  | _ => .nowhere

section
variable {k : Kind}

theorem targetForm_asPattern (k : Kind) : k.asPattern.targetForm = k.targetForm := by
  cases k <;> rfl

theorem memberForm_asPattern (k : Kind) : k.asPattern.memberForm = k.memberForm := by
  cases k <;> rfl

theorem targetPlace_of_defaulted (h : k.targetForm = .defaulted) :
    k.targetPlace = .inField "left" := by
  cases k <;> first | rfl | cases h

theorem targetPlace_of_defaulted_member (h : k.memberForm = .defaulted) :
    k.targetPlace = .inField "left" := by
  cases k <;> first | rfl | cases h

theorem targetPlace_of_pair (h : k.memberForm = .pair) : k.targetPlace = .inField "value" := by
  cases k <;> first | rfl | cases h

/-- A member of an object is called the same in both vocabularies, and no target stands in it. -/
theorem plain_of_member (h : k.targetForm = .member) :
    k.patternName? = none ∧ k.targetPlace = .nowhere := by
  cases k <;> first | exact ⟨rfl, rfl⟩ | cases h

end

end Kind

namespace Cst

def isNamedPart (c : Cst) : Bool := !c.head.isExtra && c.head.isNamed

def isIn (name : String) (c : Cst) : Bool := c.head.field == some name

end Cst

/-- Whether a child stands where a target may, given the children before and after it. -/
def TargetPlace.has (before : List Cst) (c : Cst) (after : List Cst) : TargetPlace → Bool
  | each => c.isNamedPart
  | first => c.isNamedPart && !before.any Cst.isNamedPart
  | last => c.isNamedPart && !after.any Cst.isNamedPart
  | inField name => c.isIn name && !before.any (Cst.isIn name)
  | nowhere => false

namespace Cst

mutual

/-- A target with literals renamed to patterns wherever a target may stand. -/
def asPattern : Cst → Cst
  | node head cs =>
    let k := (node head cs).kind
    node { head with label := k.patternName?.getD head.label } (asPatterns k.targetPlace [] cs)

/-- Children with those renamed that stand where a target may. -/
def asPatterns (place : TargetPlace) (before : List Cst) : List Cst → List Cst
  | [] => []
  | c :: cs =>
    (if place.has before c cs then c.asPattern else c) :: asPatterns place (before ++ [c]) cs

end

/-- What stands in a renamed node for one of its children: the child itself, or the renamed child
where a target may stand. -/
def Replaces (n c d : Cst) : Prop :=
  d = c ∨ d = c.asPattern ∧ ∃ before after, n.kind.targetPlace.has before c after

/-! ## What a rule sees of a renamed node -/

theorem asPattern_eq (n : Cst) : n.asPattern =
    node { n.head with label := n.kind.patternName?.getD n.head.label }
      (asPatterns n.kind.targetPlace [] n.children) := by
  obtain ⟨head, cs⟩ := n
  rw [asPattern, head_node, children_node]

theorem head_asPattern (n : Cst) :
    n.asPattern.head = { n.head with label := n.kind.patternName?.getD n.head.label } := by
  rw [asPattern_eq, head_node]

theorem kind_asPattern (n : Cst) : n.asPattern.kind = n.kind.asPattern := by
  have hkind : n.asPattern.kind = if n.isDamaged || !n.head.isNamed then .other
      else Kind.ofName (n.kind.patternName?.getD n.head.label) := by
    rw [kind, isDamaged, head_asPattern]
    rfl
  rw [hkind]
  cases hdamaged : n.isDamaged || !n.head.isNamed with
  | true =>
    have hother : n.kind = .other := by rw [kind, hdamaged, if_pos rfl]
    rw [hother]
    rfl
  | false =>
    have hname : n.kind = .ofName n.head.label := by rw [kind, hdamaged]; rfl
    rw [if_neg Bool.false_ne_true, Kind.asPattern]
    cases n.kind.patternName? with
    | none => exact hname.symm
    | some name => rfl

theorem asPatterns_nowhere (before cs : List Cst) : asPatterns .nowhere before cs = cs := by
  induction cs generalizing before with
  | nil => rfl
  | cons c cs ih =>
    rw [asPatterns, ih]
    rfl

/-- A node of a kind that has neither a name as a pattern nor targets stays as it is. -/
theorem asPattern_eq_self {n : Cst} (hname : n.kind.patternName? = none)
    (hplace : n.kind.targetPlace = .nowhere) : n.asPattern = n := by
  rw [asPattern_eq, hname, hplace, asPatterns_nowhere]
  obtain ⟨head, cs⟩ := n
  rfl

theorem replaces_asPatterns (n : Cst) (before cs : List Cst) :
    List.Forall₂ n.Replaces cs (asPatterns n.kind.targetPlace before cs) := by
  induction cs generalizing before with
  | nil => exact .nil
  | cons c cs ih =>
    rw [asPatterns]
    refine .cons ?_ (ih (before ++ [c]))
    split
    case isTrue h => exact .inr ⟨rfl, before, cs, h⟩
    case isFalse => exact .inl rfl

theorem children_asPattern (n : Cst) : List.Forall₂ n.Replaces n.children n.asPattern.children := by
  rw [asPattern_eq, children_node]
  exact n.replaces_asPatterns [] n.children

namespace Replaces

variable {n c d : Cst} (h : n.Replaces c d)
include h

/-- The head stays, but for the name of the kind. -/
theorem head : ∃ label, d.head = { c.head with label := label } := by
  rcases h with rfl | ⟨rfl, -⟩
  · exact ⟨d.head.label, rfl⟩
  · exact ⟨_, head_asPattern c⟩

theorem isNamed : c.head.isNamed = d.head.isNamed := by
  obtain ⟨label, h⟩ := h.head
  rw [h]

theorem isExtra : c.head.isExtra = d.head.isExtra := by
  obtain ⟨label, h⟩ := h.head
  rw [h]

theorem field : c.head.field = d.head.field := by
  obtain ⟨label, h⟩ := h.head
  rw [h]

/-- Only named nodes are renamed. -/
theorem isToken (text : String) : c.isToken text = d.isToken text := by
  rw [Cst.isToken, Cst.isToken, ← h.isNamed]
  cases hn : c.head.isNamed with
  | true => rfl
  | false =>
    have hother : c.kind = .other := by rw [kind, hn, Bool.not_false, Bool.or_true, if_pos rfl]
    rcases h with rfl | ⟨rfl, -⟩
    · rfl
    · rw [head_asPattern, hother]
      rfl

/-- A child in a field other than the one that targets stand in is the same. -/
theorem eq_of_field {name other : String} (hc : c.head.field = some name)
    (hplace : n.kind.targetPlace = .inField other) (hne : name ≠ other) : d = c := by
  rcases h with h | ⟨-, before, after, hin⟩
  · exact h
  · have hin : name = other ∧ ∀ b ∈ before, isIn other b = false := by
      simpa [hplace, TargetPlace.has, isIn, hc] using hin
    exact absurd hin.1 hne

end Replaces

theorem parts_asPattern (n : Cst) : List.Forall₂ n.Replaces n.parts n.asPattern.parts :=
  forall₂_filter n.children_asPattern fun _ _ h => by rw [h.isExtra]

theorem named_asPattern (n : Cst) : List.Forall₂ n.Replaces n.named n.asPattern.named :=
  forall₂_filter n.parts_asPattern fun _ _ h => h.isNamed

theorem field?_asPattern (n : Cst) (name : String) :
    Option.Rel n.Replaces (n.field? name) (n.asPattern.field? name) :=
  optionRel_mono (optionRel_find? n.children_asPattern fun _ _ h => by rw [h.field])
    fun _ _ _ _ h => h.1

theorem slots_asPattern (n : Cst) :
    List.Forall₂ (Option.Rel n.Replaces) n.slots n.asPattern.slots :=
  slotsOf_rel (fun _ _ h => h.isNamed) (fun _ _ h => h.isToken ",") n.parts_asPattern true

/-- A renamed node begins and ends where the node does. -/
theorem extent_asPattern (n : Cst) :
    n.asPattern.firstByte = n.firstByte ∧ n.asPattern.lastByte = n.lastByte := by
  induction hk : n.height using Nat.strongRecOn generalizing n with
  | ind k ih =>
    have same (c d : Cst) (hc : c ∈ n.parts) (h : n.Replaces c d) :
        c.firstByte = d.firstByte ∧ c.lastByte = d.lastByte := by
      rcases h with rfl | ⟨rfl, -⟩
      · exact ⟨rfl, rfl⟩
      · have := ih c.height (hk ▸ height_lt_of_mem_parts hc) c rfl
        exact ⟨this.1.symm, this.2.symm⟩
    have hfirst := optionRel_head? n.parts_asPattern
    have hlast := optionRel_getLast? n.parts_asPattern
    rw [firstByte_eq n, firstByte_eq n.asPattern, lastByte_eq n, lastByte_eq n.asPattern,
      head_asPattern]
    generalize hf : n.parts.head? = o, n.asPattern.parts.head? = p at hfirst
    generalize hl : n.parts.getLast? = o', n.asPattern.parts.getLast? = p' at hlast
    constructor
    · cases hfirst with
      | none => rfl
      | some h => exact (same _ _ (List.mem_of_head? hf) h).1.symm
    · cases hlast with
      | none => rfl
      | some h => exact (same _ _ (List.mem_of_getLast? hl) h).2.symm

end Cst

/-! ## Reading renamed targets -/

/-- Two conversions both succeed with the same value or both stop, after the same events but for the
failure. -/
abbrev Outcome.SameValue {α : Type} (x y : Outcome α) : Prop :=
  Outcome.Alike (fun _ => False) (fun _ _ => True) Eq x y

namespace Outcome.SameValue

variable {α β : Type} {x y : Outcome α}

theorem refl (x : Outcome α) : SameValue x x := Alike.refl (fun _ => trivial) x

theorem result_eq_ok (h : SameValue x y) {a : α} : x.result = .ok a ↔ y.result = .ok a := by
  have hresult := h.result
  generalize x.result = r, y.result = q at hresult
  cases hresult with
  | ok h => rw [h]
  | error => exact ⟨nofun, nofun⟩

theorem bind {k l : α → Outcome β} (h : SameValue x y) (hk : ∀ a, SameValue (k a) (l a)) :
    SameValue (x >>= k) (y >>= l) :=
  Alike.bind h fun a _ _ _ hab => hab ▸ hk a

theorem map (f : α → β) (h : SameValue x y) : SameValue (f <$> x) (f <$> y) :=
  Alike.map h fun _ _ => congrArg f

end Outcome.SameValue

namespace Convert

open Outcome (SameValue)

variable {μ : Type} {ctx : Context μ} {f : Converter μ} {n : Cst}

/-- Targets lower than a node are converted alike when they are renamed. -/
structure ReadsPatterns (f : Converter μ) (n : Cst) : Prop where
  target : ∀ c, c.height < n.height → SameValue (f .target c) (f .target c.asPattern)
  member : ∀ c, c.height < n.height → SameValue (f .targetMember c) (f .targetMember c.asPattern)

section

variable {α : Type} {k l : Cst → Outcome α}

theorem field_asPattern {name : String}
    (h : ∀ c d, n.field? name = some c → n.Replaces c d → SameValue (k c) (l d)) :
    SameValue (ctx.field n name >>= k) (ctx.field n.asPattern name >>= l) := by
  have hfield := n.field?_asPattern name
  unfold Context.field
  generalize hc : n.field? name = o, n.asPattern.field? name = p at hfield
  cases hfield with
  | none => exact Outcome.Alike.fail trivial
  | some hcd => exact h _ _ hc hcd

theorem firstNamed_asPattern
    (h : ∀ c d, c ∈ n.named → n.Replaces c d → SameValue (k c) (l d)) :
    SameValue (ctx.firstNamed n >>= k) (ctx.firstNamed n.asPattern >>= l) := by
  have hfirst := optionRel_head? n.named_asPattern
  unfold Context.firstNamed
  generalize hc : n.named.head? = o, n.asPattern.named.head? = p at hfirst
  cases hfirst with
  | none => exact Outcome.Alike.fail trivial
  | some hcd => exact h _ _ (List.mem_of_head? hc) hcd

/-- A field other than the one that targets stand in is found as it is. -/
theorem otherField_asPattern {name other : String} (hplace : n.kind.targetPlace = .inField other)
    (hne : name ≠ other) (h : ∀ c, SameValue (k c) (l c)) :
    SameValue (ctx.field n name >>= k) (ctx.field n.asPattern name >>= l) := by
  refine field_asPattern fun c d hc hcd => ?_
  obtain rfl := hcd.eq_of_field (Cst.field_of_field? hc) hplace hne
  exact h d

end

section

variable (h : ReadsPatterns f n)
include h

theorem target_replaced {c d : Cst} (hc : c ∈ n.children) (hcd : n.Replaces c d) :
    SameValue (f .target c) (f .target d) := by
  rcases hcd with rfl | ⟨rfl, -⟩
  · exact .refl _
  · exact h.target c (Cst.height_lt_of_mem_children hc)

theorem member_replaced {c d : Cst} (hc : c ∈ n.children) (hcd : n.Replaces c d) :
    SameValue (f .targetMember c) (f .targetMember d) := by
  rcases hcd with rfl | ⟨rfl, -⟩
  · exact .refl _
  · exact h.member c (Cst.height_lt_of_mem_children hc)

theorem members_asPattern :
    SameValue (n.named.mapM (f .targetMember)) (n.asPattern.named.mapM (f .targetMember)) := by
  have hmembers := Outcome.Alike.mapM (X := fun _ => False) (E := fun _ _ => True) (V := Eq)
    (f := f .targetMember) (g := f .targetMember) n.named_asPattern fun c hc d _ hcd =>
      member_replaced h (Cst.mem_children_of_mem_named hc) hcd
  rwa [List.forall₂_eq_eq_eq] at hmembers

theorem elements_asPattern :
    SameValue (elements f .target n) (elements f .target n.asPattern) := by
  have hslots := Outcome.Alike.mapM (X := fun _ => False) (E := fun _ _ => True)
    (V := Option.Rel Eq) (f := Outcome.onSome (f .target)) (g := Outcome.onSome (f .target))
    n.slots_asPattern fun o ho p _ hop => ?_
  · have hrel : Option.Rel (Eq : Tree μ → Tree μ → Prop) = Eq := by
      funext o p
      cases o <;> cases p <;> simp
    rwa [hrel, List.forall₂_eq_eq_eq] at hslots
  · refine Outcome.Alike.onSome hop fun c d hc _ hcd => ?_
    subst hc
    exact target_replaced h (Cst.mem_children_of_mem_parts (Cst.mem_parts_of_mem_slots ho)) hcd

theorem rest_asPattern : SameValue (rest ctx f .target n) (rest ctx f .target n.asPattern) :=
  firstNamed_asPattern fun _ _ hc hcd =>
    (target_replaced h (Cst.mem_children_of_mem_named hc) hcd).bind fun _ => .refl _

theorem defaulted_asPattern (hplace : n.kind.targetPlace = .inField "left") :
    SameValue (defaulted ctx f .target n) (defaulted ctx f .target n.asPattern) := by
  refine field_asPattern fun c d hc hcd => ?_
  refine (target_replaced h (Cst.mem_children_of_field? hc) hcd).bind fun left => ?_
  exact otherField_asPattern hplace (by decide) fun _ => .refl _

theorem pairProperty_asPattern (hplace : n.kind.targetPlace = .inField "value") :
    SameValue (pairProperty ctx f .target n) (pairProperty ctx f .target n.asPattern) := by
  refine otherField_asPattern hplace (by decide) fun name => ?_
  refine (SameValue.refl (f .propertyKey name)).bind fun key => ?_
  exact field_asPattern fun c d hc hcd =>
    (target_replaced h (Cst.mem_children_of_field? hc) hcd).bind fun _ => .refl _

end

/-! ## Targets and their members -/

section

variable (hmark : ∀ n m a b, ctx.mark n a b = ctx.mark m a b)
include hmark

theorem node_asPattern (n : Cst) : ctx.node n.asPattern = ctx.node n := by
  funext s
  rw [Context.node, Context.node, Context.nodeAt, Context.nodeAt, n.extent_asPattern.1,
    n.extent_asPattern.2, hmark n.asPattern n]

theorem identifier_asPattern (n : Cst) : ctx.identifier n.asPattern = ctx.identifier n := by
  rw [Context.identifier, Context.identifier, node_asPattern hmark, Context.text, Context.text,
    Cst.head_asPattern]

variable (h : ReadsPatterns f n)
include h

theorem defaultedProperty_asPattern (hplace : n.kind.targetPlace = .inField "left") :
    SameValue (defaultedProperty ctx f .target n) (defaultedProperty ctx f .target n.asPattern) := by
  refine field_asPattern fun c d hc hcd => ?_
  refine (target_replaced h (Cst.mem_children_of_field? hc) hcd).bind fun key => ?_
  refine otherField_asPattern hplace (by decide) fun c => ?_
  rw [node_asPattern hmark]
  exact .refl _

theorem target_asPattern (e : Cst → Outcome (Tree μ)) :
    SameValue (target ctx f e n) (target ctx f e n.asPattern) := by
  rw [target_eq, target_eq, Cst.kind_asPattern, Kind.targetForm_asPattern, node_asPattern hmark,
    identifier_asPattern hmark]
  cases hform : n.kind.targetForm with
  | name => exact .refl _
  | member =>
    obtain ⟨hname, hplace⟩ := Kind.plain_of_member hform
    rw [Cst.asPattern_eq_self hname hplace]
    exact .refl _
  | wrapper =>
    exact firstNamed_asPattern fun _ _ hc hcd =>
      target_replaced h (Cst.mem_children_of_mem_named hc) hcd
  | object => exact (members_asPattern h).map _
  | array => exact (elements_asPattern h).map _
  | defaulted => exact (defaulted_asPattern h (Kind.targetPlace_of_defaulted hform)).map _
  | rest => exact (rest_asPattern h).map _
  | other => exact Outcome.Alike.fail trivial

theorem targetMember_asPattern :
    SameValue (targetMember ctx f n) (targetMember ctx f n.asPattern) := by
  rw [targetMember_eq, targetMember_eq, Cst.kind_asPattern, Kind.memberForm_asPattern,
    node_asPattern hmark]
  refine SameValue.map _ ?_
  cases hform : n.kind.memberForm with
  | pair => exact pairProperty_asPattern h (Kind.targetPlace_of_pair hform)
  | shorthand =>
    rw [shorthandProperty, shorthandProperty, identifier_asPattern hmark]
    exact .refl _
  | defaulted =>
    exact defaultedProperty_asPattern hmark h (Kind.targetPlace_of_defaulted_member hform)
  | rest => exact rest_asPattern h
  | other => exact Outcome.Alike.fail trivial

omit h in
/-- What is assigned to below a node is converted alike when it is renamed. -/
theorem readsPatterns_convert (n : Cst) : ReadsPatterns (convert ctx) n := by
  induction hk : n.height using Nat.strongRecOn generalizing n with
  | ind k ih =>
    have below (c : Cst) (hc : c.height < n.height) : ReadsPatterns (convert ctx) c :=
      ih _ (hk ▸ hc) c rfl
    constructor
    case target =>
      intro c hc
      rw [convert_eq, convert_eq]
      -- The rule for a member of an object is that for expressions, of the member as it is.
      exact target_asPattern hmark (below c hc) _
    case member =>
      intro c hc
      rw [convert_eq, convert_eq]
      exact targetMember_asPattern hmark (below c hc)

end

end Convert

/-- **Literals and patterns are read alike as targets**: a target has a conversion exactly if it has
one with its literals renamed to patterns, and then both are the same node, labels included. -/
theorem Program.convert_asPattern {source : Source} {options : Options} {n : Cst} {node : Node} :
    (Convert.convert (context source options) .target n).result = .ok node ↔
      (Convert.convert (context source options) .target n.asPattern).result = .ok node := by
  have hmark : ∀ n m a b, (context source options).mark n a b = (context source options).mark m a b :=
    fun _ _ _ _ => rfl
  have hrun := Convert.target_asPattern hmark (Convert.readsPatterns_convert hmark n)
    (Convert.expression (context source options) (Convert.convert (context source options)))
  rw [Convert.convert_eq, Convert.convert_eq]
  exact hrun.result_eq_ok

/-- The tree of `[{a=1},...b]`, given what its array, its object, the name in it and its rest are
called. -/
def destructured (array object name rest : String) : Cst :=
  .node { label := array, isNamed := true, start := 0, stop := 12 } [
    .node { label := "[", start := 0, stop := 1 } [],
    .node { label := object, isNamed := true, start := 1, stop := 6 } [
      .node { label := "\x7b", start := 1, stop := 2 } [],
      .node { label := "object_assignment_pattern", isNamed := true, start := 2, stop := 5 } [
        .node { label := name, isNamed := true, start := 2, stop := 3, field := some "left" } [],
        .node { label := "=", start := 3, stop := 4 } [],
        .node { label := "number", isNamed := true, start := 4, stop := 5,
                field := some "right" } []],
      .node { label := "\x7d", start := 5, stop := 6 } []],
    .node { label := ",", start := 6, stop := 7 } [],
    .node { label := rest, isNamed := true, start := 7, stop := 11 } [
      .node { label := "identifier", isNamed := true, start := 10, stop := 11 } []],
    .node { label := "]", start := 11, stop := 12 } []]

example : (destructured "array" "object" "shorthand_property_identifier" "spread_element").asPattern
    = destructured "array_pattern" "object_pattern" "shorthand_property_identifier_pattern"
      "rest_pattern" := rfl

end Estree
