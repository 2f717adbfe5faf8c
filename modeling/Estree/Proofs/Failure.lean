import Estree.Proofs.Simulation.Descent

/-!
# Where conversions stop

A conversion hands nothing to its rules but nodes of its tree: parts of a node, and what a node has
in its fields. So if it stops, it stops at such a node, and the failure has the name of the node and
the position where it starts (`Program.convert_error`). Where no extra node stands in a field, the
rules only come to nodes that are visible (`Cst.IsVisible`): neither extra nor below an extra node.
-/

namespace Estree

namespace Cst

/-- The nodes of a tree that are not extra and not below an extra node. The root always counts. -/
inductive IsVisible : Cst → Cst → Prop
  | root {n : Cst} : IsVisible n n
  | part {c d n : Cst} : IsVisible c n → d ∈ c.parts → IsVisible d n

/-- No extra child of a node is in a field. -/
def HasFreeExtras (n : Cst) : Prop := ∀ c ∈ n.extras, c.head.field = none

instance : DecidablePred HasFreeExtras := fun n =>
  inferInstanceAs (Decidable (∀ c ∈ n.extras, c.head.field = none))

/-- What is found in a field of a node without extra children in fields is a part of it. -/
theorem HasFreeExtras.mem_parts {n c : Cst} {name : String} (h : n.HasFreeExtras)
    (hc : n.field? name = some c) : c ∈ n.parts := by
  have hmem := mem_children_of_field? hc
  cases hx : c.head.isExtra with
  | false => exact List.mem_filter.2 ⟨hmem, by rw [hx]; rfl⟩
  | true =>
    have hnone := h c (mem_extras.2 ⟨hmem, hx⟩)
    rw [field_of_field? hc] at hnone
    cases hnone

/-- The nodes of a tree that a conversion may come to. -/
structure IsReachable (n tree : Cst) : Prop where
  isNode : n.IsNode tree
  isVisible : tree.Everywhere HasFreeExtras → n.IsVisible tree

namespace IsReachable

variable {n c tree : Cst}

theorem root : tree.IsReachable tree := ⟨.root, fun _ => .root⟩

theorem part (h : n.IsReachable tree) (hc : c ∈ n.parts) : c.IsReachable tree :=
  ⟨h.isNode.child (mem_children_of_mem_parts hc), fun hfree => (h.isVisible hfree).part hc⟩

theorem field {name : String} (h : n.IsReachable tree) (hc : n.field? name = some c) :
    c.IsReachable tree where
  isNode := h.isNode.child (mem_children_of_field? hc)
  isVisible hfree :=
    (h.isVisible hfree).part ((hfree.of_isNode h.isNode).root.mem_parts hc)

end IsReachable

end Cst

/-! ## Failures -/

variable {μ : Type}

/-- A conversion and itself, on the nodes that it may come to: a failure is the failure at one of
them. -/
def Likeness.reachable (ctx : Context μ) (tree : Cst) : Likeness μ ctx ctx :=
  (Likeness.marks rfl (.refl ctx) id id fun _ _ _ => rfl).restrict (·.IsReachable tree)
    (fun u _ => ∃ n : Cst, n.IsReachable tree ∧ u = ctx.unsupported n)
    (fun h => h.part) (fun h => h.field) fun _ h => ⟨_, h, rfl⟩

/-- A conversion that stops does so at a node that it may come to. -/
theorem Convert.exists_unsupported {ctx : Context μ} {tree : Cst} {u : Unsupported}
    (h : (program ctx tree).result = .error u) :
    ∃ n : Cst, n.IsReachable tree ∧ u = ctx.unsupported n := by
  let S := (Likeness.reachable ctx tree).toSimulation
  have hroot : S.Rel tree tree := ⟨rfl, .root⟩
  have same := (S.program hroot (fun _ => rfl) rfl).result
  rw [h] at same
  cases same with
  | error hfail => exact hfail

/-- **A failure tells of a node of the tree**, by its name and the position where it starts. Where no
extra node stands in a field, the node is the root or neither extra nor below an extra node. -/
theorem Program.convert_error {tree : Cst} {source : Source} {options : Options} {u : Unsupported}
    (h : (convert tree source options).result = .error u) :
    ∃ n : Cst, n.IsNode tree ∧ u.kind = n.kindName ∧ u.position = source.position n.head.start ∧
      (tree.Everywhere Cst.HasFreeExtras → n.IsVisible tree) := by
  obtain ⟨n, hn, rfl⟩ := Convert.exists_unsupported h
  exact ⟨n, hn.isNode, rfl, rfl, hn.isVisible⟩

/-- The tree of `f(/**/a?.b);`. -/
def chainedArgument : Cst :=
  .node { label := "program", isNamed := true, start := 0, stop := 12 } [
    .node { label := "expression_statement", isNamed := true, start := 0, stop := 12 } [
      .node { label := "call_expression", isNamed := true, start := 0, stop := 11 } [
        .node { label := "identifier", isNamed := true, start := 0, stop := 1,
                field := some "function" } [],
        .node { label := "arguments", isNamed := true, start := 1, stop := 11,
                field := some "arguments" } [
          .node { label := "(", start := 1, stop := 2 } [],
          .node { label := "comment", isNamed := true, isExtra := true, start := 2, stop := 6 } [],
          .node { label := "member_expression", isNamed := true, start := 6, stop := 10 } [
            .node { label := "identifier", isNamed := true, start := 6, stop := 7,
                    field := some "object" } [],
            .node { label := "optional_chain", isNamed := true, start := 7, stop := 9,
                    field := some "optional_chain" } [],
            .node { label := "property_identifier", isNamed := true, start := 9, stop := 10,
                    field := some "property" } []],
          .node { label := ")", start := 10, stop := 11 } []]],
      .node { label := ";", start := 11, stop := 12 } []]]

theorem chainedArgument_convert_error :
    (Program.convert chainedArgument (.ofString "f(/**/a?.b);") {}).result =
        .error ⟨"optional_chain", ⟨1, 7⟩⟩ ∧
      chainedArgument.Everywhere Cst.HasFreeExtras ∧
      ∃ n : Cst, n.IsNode chainedArgument ∧ "optional_chain" = n.kindName ∧
        ⟨1, 7⟩ = (Source.ofString "f(/**/a?.b);").position n.head.start ∧
        n.IsVisible chainedArgument := by
  have hfailed : (Program.convert chainedArgument (.ofString "f(/**/a?.b);") {}).result =
      .error ⟨"optional_chain", ⟨1, 7⟩⟩ := rfl
  have hfree : chainedArgument.Everywhere Cst.HasFreeExtras := by decide
  obtain ⟨n, hn, hkind, hposition, hvisible⟩ := Program.convert_error hfailed
  exact ⟨hfailed, hfree, n, hn, hkind, hposition, hvisible hfree⟩

end Estree
