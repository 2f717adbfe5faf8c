import Estree.Proofs.Built.Statement
import Estree.Proofs.Target.Wrapper
import Estree.Proofs.Trace

/-!
# What is assigned to

What an assignment or a loop over the parts of an object assigns to is the node of what its syntax
holds in the field `left` (`Context.Assigns`). It is a name, a member of an object or a pattern. The
rule for targets is that for what stands inside of a pattern too, though, and there a default or a
rest may stand; so a default in parentheses that is assigned to is taken as well
(`Program.convert_assigned`).
A target that holds nothing of these forms is unexpected.
-/

namespace Estree

variable {μ : Type} {ctx : Context μ} {c : Cst}

/-! ## Targets that fail -/

/-- A target that holds nothing of a known form is unexpected, and so is an empty wrapper in it. -/
theorem Convert.target_unexpected (h : ∀ core, c.Holds core → core.kind.targetForm = .other) :
    ∃ d, (c.Holds d ∨ d.kind.targetForm = .wrapper ∧ d.named = []) ∧
      convert ctx .target c = ctx.unexpected d := by
  induction hk : c.height using Nat.strongRecOn generalizing c with
  | ind k ih =>
    by_cases hform : c.kind.targetForm = .wrapper
    · cases hnamed : c.named with
      | nil =>
        refine ⟨c, .inr ⟨hform, hnamed⟩, ?_⟩
        rw [convert_target, target_eq, hform, Context.firstNamed, hnamed]
        rfl
      | cons d ds =>
        have hd : c.named.head? = some d := by rw [hnamed]; rfl
        have hlt := Cst.height_lt_of_mem_named (List.mem_of_head? hd)
        obtain ⟨e, he, hfail⟩ :=
          ih d.height (hk ▸ hlt) (fun core hcore => h core (.inside hform hd hcore)) rfl
        refine ⟨e, he.imp_left (.inside hform hd), ?_⟩
        rw [convert_target, target_eq, hform, Context.firstNamed, hd, ← hfail]
        exact pure_bind _ _
    · refine ⟨c, .inl (.self hform), ?_⟩
      rw [convert_target, target_eq, h c (.self hform)]

/-! ## Programs -/

/-- The types of nodes that may be assigned to. -/
def targetTypes : List String := ["Identifier", "MemberExpression", "ObjectPattern", "ArrayPattern"]

theorem TargetForm.typeName_mem {form : TargetForm} {type : String}
    (h : form.typeName? = some type) (hdefaulted : form ≠ .defaulted) (hrest : form ≠ .rest) :
    type ∈ targetTypes := by
  cases form with
  | defaulted => exact absurd rfl hdefaulted
  | rest => exact absurd rfl hrest
  | wrapper | other => cases h
  | name | member | object | array =>
    cases h
    decide

/-- **Only targets are assigned to, but for defaults and rests**. The result of a conversion is a traced
result with the places of its nodes put on, and in this what an assignment or a loop assigns to,
declarations apart, is made from what the target in the field `left` of its own syntax holds below
parentheses and type wrappers, and is of the type that this says: a name, a member of an object or a
pattern, unless it is a default or a rest. A target that holds nothing of a known form fails. -/
theorem Program.convert_assigned {tree : Cst} {source : Source} {options : Options} {node : Node}
    (h : (convert tree source options).result = .ok node) :
    (∃ t : Tree Origin, (Convert.program (context source options).traced tree).result = .ok t ∧
      t.map (fun o => .ofBytes source options.fileName o.start o.stop) = node ∧
      ∀ u left, Tree.IsNode u t → u.shape.assigned? = some left →
        u.mark.piece.IsNode tree ∧
        ∃ c core : Cst, u.mark.piece.field? "left" = some c ∧ c.Holds core ∧
          left.mark.piece = core ∧ core.kind.targetForm.typeName? = some left.typeName ∧
          (core.kind.targetForm ≠ .defaulted → core.kind.targetForm ≠ .rest →
            left.typeName ∈ targetTypes)) ∧
    ∀ c : Cst, (∀ core, c.Holds core → core.kind.targetForm = .other) →
      ∃ d, (c.Holds d ∨ d.kind.targetForm = .wrapper ∧ d.named = []) ∧
        Convert.convert (context source options) .target c
          = (context source options).unexpected d := by
  obtain ⟨t, ht, hnode⟩ := Convert.exists_traced h
  refine ⟨⟨t, ht, hnode, fun u left hu hleft => ?_⟩, fun c => Convert.target_unexpected⟩
  obtain ⟨n, hn, ⟨_, _, hmark⟩, hstems⟩ :=
    (Convert.program_allStem ht Cst.IsNode.root.everywhere).of_isNode hu
  obtain ⟨c, hc, core, s, hcore, rfl, htype⟩ := hstems.suits.assigns left hleft
  rw [hmark]
  exact ⟨hn.root, c, core, hc, hcore, rfl, htype, TargetForm.typeName_mem htype⟩

/-- The tree of `([a] as T)=b;`. -/
def wrappedPattern : Cst :=
  .node { label := "program", isNamed := true, start := 0, stop := 13 } [
    .node { label := "expression_statement", isNamed := true, start := 0, stop := 13 } [
      .node { label := "assignment_expression", isNamed := true, start := 0, stop := 12 } [
        .node { label := "parenthesized_expression", isNamed := true, start := 0, stop := 10,
                field := some "left" } [
          .node { label := "(", start := 0, stop := 1 } [],
          .node { label := "as_expression", isNamed := true, start := 1, stop := 9 } [
            .node { label := "array", isNamed := true, start := 1, stop := 4 } [
              .node { label := "[", start := 1, stop := 2 } [],
              .node { label := "identifier", isNamed := true, start := 2, stop := 3 } [],
              .node { label := "]", start := 3, stop := 4 } []],
            .node { label := "as", start := 5, stop := 7 } [],
            .node { label := "type_identifier", isNamed := true, start := 8, stop := 9 } []],
          .node { label := ")", start := 9, stop := 10 } []],
        .node { label := "=", start := 10, stop := 11 } [],
        .node { label := "identifier", isNamed := true, start := 11, stop := 12,
                field := some "right" } []],
      .node { label := ";", start := 12, stop := 13 } []]]

theorem wrappedPattern_assigned :
    ∃ (node : Node) (t : Tree Origin),
      (Program.convert wrappedPattern (.ofString "([a] as T)=b;") {}).result = .ok node ∧
      t.map (fun o => .ofBytes (.ofString "([a] as T)=b;") "module.ts" o.start o.stop) = node ∧
      ∀ u left, Tree.IsNode u t → u.shape.assigned? = some left →
        u.mark.piece.IsNode wrappedPattern ∧
        ∃ c core : Cst, u.mark.piece.field? "left" = some c ∧ c.Holds core ∧
          left.mark.piece = core ∧ core.kind.targetForm.typeName? = some left.typeName ∧
          (core.kind.targetForm ≠ .defaulted → core.kind.targetForm ≠ .rest →
            left.typeName ∈ targetTypes) := by
  obtain ⟨node, h⟩ := Report.exists_node
    (Program.convert wrappedPattern (.ofString "([a] as T)=b;") {}) (by decide +kernel)
  obtain ⟨⟨t, -, ht, hassigned⟩, -⟩ := Program.convert_assigned h
  exact ⟨node, t, h, ht, hassigned⟩

/-- The tree of `(a=b)=c;`. -/
def defaultedTarget : Cst :=
  .node { label := "program", isNamed := true, start := 0, stop := 8 } [
    .node { label := "expression_statement", isNamed := true, start := 0, stop := 8 } [
      .node { label := "assignment_expression", isNamed := true, start := 0, stop := 7 } [
        .node { label := "parenthesized_expression", isNamed := true, start := 0, stop := 5,
                field := some "left" } [
          .node { label := "(", start := 0, stop := 1 } [],
          .node { label := "assignment_expression", isNamed := true, start := 1, stop := 4 } [
            .node { label := "identifier", isNamed := true, start := 1, stop := 2,
                    field := some "left" } [],
            .node { label := "=", start := 2, stop := 3 } [],
            .node { label := "identifier", isNamed := true, start := 3, stop := 4,
                    field := some "right" } []],
          .node { label := ")", start := 4, stop := 5 } []],
        .node { label := "=", start := 5, stop := 6 } [],
        .node { label := "identifier", isNamed := true, start := 6, stop := 7,
                field := some "right" } []],
      .node { label := ";", start := 7, stop := 8 } []]]

/-- A program may assign to a default. -/
theorem defaultedTarget_assigned :
    ∃ node u left, (Program.convert defaultedTarget (.ofString "(a=b)=c;") {}).result = .ok node ∧
      Tree.IsNode u node ∧ u.typeName = "AssignmentExpression" ∧ u.shape.assigned? = some left ∧
      left.typeName = "AssignmentPattern" :=
  ⟨_, _, _, rfl, .child (.child .root (.head _)) (.head _), rfl, rfl, rfl⟩

end Estree
