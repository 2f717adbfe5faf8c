import Estree.Proofs.Simulation.Descent
import Estree.Proofs.Target.Basic

/-!
# Wrapped targets

Parentheses and type wrappers leave no trace in an expression. In a target they leave none either,
but a target looks at the first named child of each wrapper, and in an assertion `<T>x` the type
comes first. So what is written without assertions is the same as a target and as an expression, and
a target with an assertion fails at its type (`Program.target_of_wraps`).
-/

namespace Estree

namespace Cst

/-- An operand in parentheses and type wrappers, with the type of the outermost assertion if there is
one. -/
inductive Wraps : Option Cst → Cst → Cst → Prop
  | self {n : Cst} : Wraps none n n
  | parentheses {asserted : Option Cst} {n c core : Cst} : n.kind = .parenthesizedExpression →
    n.named.head? = some c → Wraps asserted c core → Wraps asserted n core
  | typed {asserted : Option Cst} {n c core : Cst} : n.kind.isTypeWrapper → n.kind ≠ .typeAssertion →
    n.named.head? = some c → Wraps asserted c core → Wraps asserted n core
  | assertion {inner : Option Cst} {n type c core : Cst} : n.kind = .typeAssertion →
    n.named.head? = some type → type.kind.targetForm = .other → n.named.getLast? = some c →
    Wraps inner c core → Wraps (some type) n core

/-- An expression in parentheses and type wrappers. -/
inductive Encloses : Cst → Cst → Prop
  | self {n : Cst} : Encloses n n
  | parentheses {n c core : Cst} : n.kind = .parenthesizedExpression → n.named.head? = some c →
    Encloses c core → Encloses n core
  | wrapper {n c core : Cst} : n.kind.isTypeWrapper → n.wrapped? = some c → Encloses c core →
    Encloses n core

theorem Wraps.encloses {asserted : Option Cst} {n core : Cst} (h : Wraps asserted n core) :
    Encloses n core := by
  induction h with
  | self => exact .self
  | parentheses hk hc _ ih => exact .parentheses hk hc ih
  | typed hk hne hc _ ih => exact .wrapper hk (by rw [wrapped?, if_neg hne, hc]) ih
  | assertion hk _ _ hc _ ih => exact .wrapper (by rw [hk]; rfl) (by rw [wrapped?, if_pos hk, hc]) ih

end Cst

namespace Cst.Wraps

variable {asserted : Option Cst} {n core : Cst}

/-- A target holds the type of the outermost assertion, and the operand where there is none. -/
theorem holds (h : Wraps asserted n core) (hcore : core.kind.targetForm ≠ .wrapper) :
    n.Holds (asserted.getD core) := by
  induction h with
  | self => exact .self hcore
  | parentheses hk hc _ ih => exact .inside (by rw [hk]; rfl) hc (ih hcore)
  | typed hk _ hc _ ih => exact .inside (Kind.targetForm_of_isTypeWrapper hk) hc (ih hcore)
  | assertion hk htype hother _ _ _ =>
    refine .inside (by rw [hk]; rfl) htype (.self ?_)
    rw [hother]
    exact nofun

/-- The type of an assertion is no target. -/
theorem targetForm_of_asserted {type : Cst} (h : Wraps (some type) n core) :
    type.kind.targetForm = .other := by
  generalize hasserted : some type = asserted at h
  induction h with
  | self => cases hasserted
  | parentheses _ _ _ ih | typed _ _ _ _ ih => exact ih hasserted
  | assertion _ _ hother _ _ _ =>
    cases hasserted
    exact hother

end Cst.Wraps

namespace Convert

variable {μ : Type} {ctx : Context μ} {f : Converter μ} {n core : Cst}

theorem expression_parenthesized (hk : n.kind = .parenthesizedExpression) :
    expression ctx f n = ctx.firstNamed n >>= f .expression := by
  rw [expression, hk]
  rfl

theorem expression_name (hk : n.kind.targetForm = .name) :
    expression ctx f n = pure (ctx.identifier n) := by
  unfold expression
  generalize n.kind = k at hk
  cases k <;> first | rfl | cases hk

/-- The rule for targets, with the conversion of what is lower. -/
theorem convert_target :
    convert ctx .target n = target ctx (convert ctx) (expression ctx (convert ctx)) n :=
  convert_eq .target

/-- A target is converted as what it holds. -/
theorem convert_target_of_holds (h : n.Holds core) :
    convert ctx .target n = convert ctx .target core := by
  induction h with
  | self => rfl
  | inside hform hc _ ih =>
    rw [convert_target, target_eq, hform, ← ih, Context.firstNamed, hc]
    exact pure_bind _ _

/-- An expression in parentheses and type wrappers is converted as its operand. -/
theorem convert_expression_of_encloses (h : n.Encloses core) :
    convert ctx .expression n = convert ctx .expression core := by
  induction h with
  | self => rfl
  | parentheses hk hc _ ih =>
    rw [convert_eq, ← ih]
    refine (expression_parenthesized hk).trans ?_
    rw [Context.firstNamed, hc]
    exact pure_bind _ _
  | wrapper hk hc _ ih =>
    rw [convert_eq, ← ih]
    refine (expression_wrapper hk).trans ?_
    rw [typeWrapper, hc]

/-- A name or a member of an object is the same as a target and as an expression. -/
theorem convert_target_eq_expression
    (h : core.kind.targetForm = .name ∨ core.kind.targetForm = .member) :
    convert ctx .target core = convert ctx .expression core := by
  rw [convert_target, target_eq, convert_eq]
  rcases h with h | h
  · rw [h]
    exact (expression_name h).symm
  · rw [h]
    rfl

end Convert

/-- **Type wrappers are erased in targets, but for assertions.** A name or a member of an object in any
nest of parentheses and type wrappers is as an expression what it is without them, with the same
failure if it has one. As a target it is the same again, unless there is an assertion around it: then
the type of the outermost assertion is unexpected. -/
theorem Program.target_of_wraps {source : Source} {options : Options} {asserted : Option Cst}
    {n core : Cst} (h : Cst.Wraps asserted n core)
    (hcore : core.kind.targetForm = .name ∨ core.kind.targetForm = .member) :
    Convert.convert (context source options) .expression n
        = Convert.convert (context source options) .expression core ∧
      Convert.convert (context source options) .target n
        = asserted.elim (Convert.convert (context source options) .expression n)
          (context source options).unexpected := by
  have hexpression :=
    @Convert.convert_expression_of_encloses _ (context source options) _ _ h.encloses
  refine ⟨hexpression, ?_⟩
  have hform : core.kind.targetForm ≠ .wrapper := by
    rcases hcore with h | h <;> rw [h] <;> exact nofun
  rw [Convert.convert_target_of_holds (h.holds hform)]
  cases asserted with
  | none =>
    rw [Option.elim_none, hexpression]
    exact Convert.convert_target_eq_expression hcore
  | some type =>
    rw [Option.elim_some, Option.getD_some, Convert.convert_target, Convert.target_eq,
      h.targetForm_of_asserted]

/-- The tree of `((o.p as T)!)`. -/
def wrappedMember : Cst :=
  .node { label := "parenthesized_expression", isNamed := true, start := 0, stop := 13 } [
    .node { label := "(", start := 0, stop := 1 } [],
    .node { label := "non_null_expression", isNamed := true, start := 1, stop := 12 } [
      .node { label := "parenthesized_expression", isNamed := true, start := 1, stop := 11 } [
        .node { label := "(", start := 1, stop := 2 } [],
        .node { label := "as_expression", isNamed := true, start := 2, stop := 10 } [
          .node { label := "member_expression", isNamed := true, start := 2, stop := 5 } [
            .node { label := "identifier", isNamed := true, start := 2, stop := 3,
                    field := some "object" } [],
            .node { label := ".", start := 3, stop := 4 } [],
            .node { label := "property_identifier", isNamed := true, start := 4, stop := 5,
                    field := some "property" } []],
          .node { label := "as", start := 6, stop := 8 } [],
          .node { label := "type_identifier", isNamed := true, start := 9, stop := 10 } []],
        .node { label := ")", start := 10, stop := 11 } []],
      .node { label := "!", start := 11, stop := 12 } []],
    .node { label := ")", start := 12, stop := 13 } []]

theorem wrappedMember_target_of_wraps :
    ∃ core, Cst.Wraps none wrappedMember core ∧ core.kind.targetForm = .member ∧
      Convert.convert (Program.context (.ofString "((o.p as T)!)") {}) .expression wrappedMember
        = Convert.convert (Program.context (.ofString "((o.p as T)!)") {}) .expression core ∧
      Convert.convert (Program.context (.ofString "((o.p as T)!)") {}) .target wrappedMember
        = Convert.convert (Program.context (.ofString "((o.p as T)!)") {}) .expression
          wrappedMember := by
  obtain ⟨core, hwraps, hcore⟩ :
      ∃ core, Cst.Wraps none wrappedMember core ∧ core.kind.targetForm = .member :=
    ⟨_, .parentheses rfl rfl (.typed rfl (by decide) rfl (.parentheses rfl rfl
      (.typed rfl (by decide) rfl .self))), rfl⟩
  obtain ⟨hexpression, htarget⟩ := Program.target_of_wraps hwraps (.inr hcore)
  exact ⟨core, hwraps, hcore, hexpression, htarget⟩

/-- The tree of `(<any>a)`. -/
def assertedName : Cst :=
  .node { label := "parenthesized_expression", isNamed := true, start := 0, stop := 8 } [
    .node { label := "(", start := 0, stop := 1 } [],
    .node { label := "type_assertion", isNamed := true, start := 1, stop := 7 } [
      .node { label := "type_arguments", isNamed := true, start := 1, stop := 6 } [
        .node { label := "<", start := 1, stop := 2 } [],
        .node { label := "predefined_type", isNamed := true, start := 2, stop := 5 } [],
        .node { label := ">", start := 5, stop := 6 } []],
      .node { label := "identifier", isNamed := true, start := 6, stop := 7 } []],
    .node { label := ")", start := 7, stop := 8 } []]

/-- An assertion is erased in an expression, but in a target its type is unexpected. -/
theorem assertedName_unexpected :
    ∃ type core name, Cst.Wraps (some type) assertedName core ∧ core.kind = .identifier ∧
      (Convert.convert (Program.context (.ofString "(<any>a)") {}) .expression assertedName).result
        = .ok name ∧ name.shape = .identifier "a" ∧
      (Convert.convert (Program.context (.ofString "(<any>a)") {}) .target assertedName).result
        = .error ⟨"type_arguments", ⟨1, 1⟩⟩ :=
  ⟨_, _, _, .parentheses rfl rfl (.assertion rfl rfl rfl rfl .self), rfl, rfl, rfl, rfl⟩

end Estree
