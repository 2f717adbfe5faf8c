import Estree.Convert.Program
import Estree.Proofs.Outcome

/-!
# Forms of targets

The rule for targets of assignments takes many kinds of syntax, which fall into eight forms
(`Kind.targetForm`). Parentheses and type wrappers are looked through, always at their first named
child. What is found below them (`Cst.Holds`) decides what type of node a target becomes, if it
becomes one at all (`TargetForm.typeName?`, `Convert.target_yields`).
-/

namespace Estree

/-- The forms of syntax that the rule for targets tells apart. -/
inductive TargetForm where
  | name
  /-- A member of an object. -/
  | member
  /-- Parentheses or a type wrapper. -/
  | wrapper
  | object
  | array
  /-- A target with a default value. -/
  | defaulted
  | rest
  | other
  deriving DecidableEq, Repr

/-- The type of node that a target of this form becomes. -/
def TargetForm.typeName? : TargetForm → Option String
  | name => some "Identifier"
  | member => some "MemberExpression"
  | object => some "ObjectPattern"
  | array => some "ArrayPattern"
  | defaulted => some "AssignmentPattern"
  | rest => some "RestElement"
  | wrapper | other => none

/-- The forms of syntax that the rule for members of object targets tells apart. -/
inductive MemberForm where
  | pair
  | shorthand
  /-- A shorthand property with a default value. -/
  | defaulted
  | rest
  | other
  deriving DecidableEq, Repr

namespace Kind

def targetForm : Kind → TargetForm
  | identifier | propertyIdentifier | shorthandPropertyIdentifier
  | shorthandPropertyIdentifierPattern | statementIdentifier | undefinedName => .name
  | memberExpression | subscriptExpression => .member
  | parenthesizedExpression | asExpression | satisfiesExpression | nonNullExpression
  | typeAssertion => .wrapper
  | object | objectPattern => .object
  | array | arrayPattern => .array
  | assignmentExpression | assignmentPattern => .defaulted
  | spreadElement | restPattern => .rest
  | _ => .other

def memberForm : Kind → MemberForm
  | pair | pairPattern => .pair
  | shorthandPropertyIdentifier | shorthandPropertyIdentifierPattern => .shorthand
  | objectAssignmentPattern => .defaulted
  | spreadElement | restPattern => .rest
  | _ => .other

theorem targetForm_of_isTypeWrapper {k : Kind} (h : k.isTypeWrapper) :
    k.targetForm = .wrapper := by
  cases k <;> first | rfl | cases h

end Kind

namespace Cst

/-- A target is what is found in it below parentheses and type wrappers. -/
inductive Holds : Cst → Cst → Prop
  | self {n : Cst} : n.kind.targetForm ≠ .wrapper → Holds n n
  | inside {n c core : Cst} : n.kind.targetForm = .wrapper → n.named.head? = some c →
    Holds c core → Holds n core

end Cst

/-- A tree is the node of what a target holds, and of the type that the form of this says. -/
def Context.Yields {μ : Type} (ctx : Context μ) (n : Cst) (t : Tree μ) : Prop :=
  ∃ core s, n.Holds core ∧ t = ctx.node core s ∧ core.kind.targetForm.typeName? = some s.typeName

namespace Convert

variable {μ : Type} {ctx : Context μ} {f : Converter μ} {n : Cst} {t : Tree μ}

/-- A target is read by its form. -/
theorem target_eq (e : Cst → Outcome (Tree μ)) : target ctx f e n = match n.kind.targetForm with
    | .name => pure (ctx.identifier n)
    | .member => e n
    | .wrapper => ctx.firstNamed n >>= f .target
    | .object => (ctx.node n <| .objectPattern ·) <$> n.named.mapM (f .targetMember)
    | .array => (ctx.node n <| .arrayPattern ·) <$> elements f .target n
    | .defaulted => ctx.node n <$> defaulted ctx f .target n
    | .rest => ctx.node n <$> rest ctx f .target n
    | .other => ctx.unexpected n := by
  unfold target
  generalize n.kind = k
  cases k <;> rfl

/-- A member of an object target is read by its form. -/
theorem targetMember_eq : targetMember ctx f n = ctx.node n <$> match n.kind.memberForm with
    | .pair => pairProperty ctx f .target n
    | .shorthand => pure (shorthandProperty ctx n)
    | .defaulted => defaultedProperty ctx f .target n
    | .rest => rest ctx f .target n
    | .other => ctx.unexpected n := by
  unfold targetMember
  generalize n.kind = k
  cases k <;> rfl

/-! ## The nodes of targets -/

open Outcome Context

theorem node_member (hk : n.kind.targetForm = .member)
    (h : (expression ctx f n).result = .ok t) :
    ∃ s, t = ctx.node n s ∧ s.typeName = "MemberExpression" := by
  have hkind : n.kind = .memberExpression ∨ n.kind = .subscriptExpression := by
    generalize n.kind = k at hk
    cases k <;> first | exact .inl rfl | exact .inr rfl | cases hk
  unfold expression at h
  rcases hkind with hkind | hkind
  · rw [hkind] at h
    obtain ⟨s, hs, rfl⟩ := result_map_eq_ok.1 h
    obtain ⟨_, -, hs⟩ := result_bind_eq_ok.1 hs
    obtain ⟨property, -, hs⟩ := result_bind_eq_ok.1 hs
    obtain ⟨c, -, hs⟩ := result_bind_eq_ok.1 hs
    obtain ⟨object, -, hs⟩ := result_bind_eq_ok.1 hs
    cases hs
    exact ⟨_, rfl, rfl⟩
  · rw [hkind] at h
    obtain ⟨s, hs, rfl⟩ := result_map_eq_ok.1 h
    obtain ⟨_, -, hs⟩ := result_bind_eq_ok.1 hs
    obtain ⟨c, -, hs⟩ := result_bind_eq_ok.1 hs
    obtain ⟨object, -, hs⟩ := result_bind_eq_ok.1 hs
    obtain ⟨d, -, hs⟩ := result_bind_eq_ok.1 hs
    obtain ⟨index, -, hs⟩ := result_bind_eq_ok.1 hs
    cases hs
    exact ⟨_, rfl, rfl⟩

theorem node_defaulted (h : (ctx.node n <$> defaulted ctx f .target n).result = .ok t) :
    ∃ s, t = ctx.node n s ∧ s.typeName = "AssignmentPattern" := by
  obtain ⟨s, hs, rfl⟩ := result_map_eq_ok.1 h
  obtain ⟨c, -, hs⟩ := result_bind_eq_ok.1 hs
  obtain ⟨left, -, hs⟩ := result_bind_eq_ok.1 hs
  obtain ⟨d, -, hs⟩ := result_bind_eq_ok.1 hs
  obtain ⟨right, -, hs⟩ := result_bind_eq_ok.1 hs
  cases hs
  exact ⟨_, rfl, rfl⟩

theorem node_rest (h : (ctx.node n <$> rest ctx f .target n).result = .ok t) :
    ∃ s, t = ctx.node n s ∧ s.typeName = "RestElement" := by
  obtain ⟨s, hs, rfl⟩ := result_map_eq_ok.1 h
  obtain ⟨c, -, hs⟩ := result_bind_eq_ok.1 hs
  obtain ⟨argument, -, hs⟩ := result_bind_eq_ok.1 hs
  cases hs
  exact ⟨_, rfl, rfl⟩

/-- The rule for targets yields what the form of a target says, if its converter does. -/
theorem target_yields (hf : ∀ c t, (f .target c).result = .ok t → ctx.Yields c t)
    (h : (target ctx f (expression ctx f) n).result = .ok t) : ctx.Yields n t := by
  rw [target_eq] at h
  have of_form {form : TargetForm} (hform : n.kind.targetForm = form) (hne : form ≠ .wrapper)
      (ht : ∃ s, t = ctx.node n s ∧ form.typeName? = some s.typeName) : ctx.Yields n t := by
    obtain ⟨s, ht, htype⟩ := ht
    exact ⟨n, s, .self (hform ▸ hne), ht, hform ▸ htype⟩
  cases hform : n.kind.targetForm <;> rw [hform] at h
  case name =>
    cases h
    exact of_form hform nofun ⟨_, rfl, rfl⟩
  case member =>
    obtain ⟨s, ht, htype⟩ := node_member hform h
    exact of_form hform nofun ⟨s, ht, congrArg some htype.symm⟩
  case wrapper =>
    obtain ⟨c, hc, ht⟩ := result_bind_eq_ok.1 h
    obtain ⟨core, s, hcore, hnode⟩ := hf c t ht
    exact ⟨core, s, .inside hform (result_firstNamed.1 hc) hcore, hnode⟩
  case object =>
    obtain ⟨ts, -, rfl⟩ := result_map_eq_ok.1 h
    exact of_form hform nofun ⟨_, rfl, rfl⟩
  case array =>
    obtain ⟨os, -, rfl⟩ := result_map_eq_ok.1 h
    exact of_form hform nofun ⟨_, rfl, rfl⟩
  case defaulted =>
    obtain ⟨s, ht, htype⟩ := node_defaulted h
    exact of_form hform nofun ⟨s, ht, congrArg some htype.symm⟩
  case rest =>
    obtain ⟨s, ht, htype⟩ := node_rest h
    exact of_form hform nofun ⟨s, ht, congrArg some htype.symm⟩
  case other => cases h

end Convert

end Estree
