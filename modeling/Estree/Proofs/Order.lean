import Estree.Proofs.Built.Statement
import Estree.Proofs.Source

/-!
# Lists keep the order of the text

In the result of a conversion the members of every list end before the next one begins, and so do the
parts of a template and its expressions in turn (`Program.convert_ordered`). The spans of the concrete
tree must be in order, and templates stand between backticks; comments and errors may stand anywhere.
-/

namespace Estree

variable {μ : Type} {ctx : Context μ} {cat : Category} {n : Cst} {t u : Tree μ}
  {s : Shape (Tree μ)} {m : μ}

/-- The lists of every node of a tree stand in rows, and its templates alternate. -/
def Context.AllOrdered (ctx : Context μ) (t : Tree μ) : Prop :=
  t.Everywhere fun p => (∀ ts ∈ p.shape.rows, ∃ a b, Row ctx.LiesIn a b ts) ∧ p.shape.Alternates

namespace Context.AllOrdered

theorem node (hn : n.Everywhere Cst.Arranged) (hs : ctx.Ordered n s)
    (hc : ∀ c ∈ s.children, ctx.AllOrdered c) : ctx.AllOrdered (.mk s m) :=
  .mk ⟨fun ts hts => ⟨_, _, hs.rows ts hts hn⟩, hs.alternates⟩ hc

end Context.AllOrdered

/-- What is built from syntax in order is ordered. -/
theorem Built.allOrdered (h : Built ctx cat n t) (hn : n.Everywhere Cst.Arranged) :
    ctx.AllOrdered t :=
  (h.allStem hn).mono fun _ ⟨_, hn, _, hs⟩ =>
    ⟨fun ts hts => ⟨_, _, hs.suits.rows ts hts hn⟩, hs.suits.alternates⟩

/-- The first node ends where the second begins or before. -/
def Node.Precedes (t u : Node) : Prop := t.mark.range.stop ≤ u.mark.range.start

/-- The members of a row follow each other in UTF-16 units as they do in bytes. -/
theorem Row.precedes {source : Source} {options : Options} {a b : Nat} {ts : List Node}
    (h : Row (Program.context source options).LiesIn a b ts) : ts.Pairwise Node.Precedes := by
  refine h.pairwise fun ht hu hle => ?_
  cases ht with
  | @nodeAt _ _ stop _ _ hstop =>
    cases hu with
    | @nodeAt _ start _ _ hstart _ =>
      exact source.units_mono (Nat.le_trans hstop (Nat.le_trans hle hstart))

/-- **Lists keep the order of the text**: each member of a list ends before the next one begins, where
holes do not count. In a template this is also so for the parts of the text and the expressions in
turn, from the first part of the text to the last. -/
theorem Program.convert_ordered {tree : Cst} {source : Source} {options : Options} {node : Node}
    (htree : tree.Everywhere Cst.Arranged)
    (h : (convert tree source options).result = .ok node) :
    ∀ p, Tree.IsNode p node →
      (∀ ts ∈ p.shape.lists, ts.Pairwise Node.Precedes) ∧
      ∀ quasis expressions, p.shape = .templateLiteral quasis expressions →
        quasis.length = expressions.length + 1 ∧
          (weave quasis expressions).Pairwise Node.Precedes := by
  obtain ⟨body, rfl, hbody, hrow⟩ := Convert.program_items h
  have hall : (context source options).AllOrdered
      ((context source options).nodeAt tree 0 source.size (.program body options.sourceType)) := by
    refine .node htree (.one rfl trivial hrow) fun u hu => ?_
    have hu : u ∈ body := by simpa using hu
    obtain ⟨c, hc, hcu⟩ := hbody u hu
    exact hcu.allOrdered (htree.named hc)
  intro p hp
  obtain ⟨hrows, halternates⟩ := hall.of_isNode hp
  have precedes {us : List Node} (hus : us ∈ p.shape.rows) : us.Pairwise Node.Precedes := by
    obtain ⟨a, b, hrow⟩ := hrows us hus
    exact hrow.precedes
  refine ⟨fun ts hts => ?_, fun quasis expressions hshape => ?_⟩
  · obtain ⟨us, hus, hsub⟩ := Shape.exists_row hts
    exact (precedes hus).sublist hsub
  · rw [hshape] at halternates precedes
    exact ⟨halternates, precedes (List.mem_singleton_self _)⟩

/-- The tree of a call with a template for an argument, and a comment before it. -/
def templateArgument : Cst :=
  .node { label := "program", isNamed := true, start := 0, stop := 17 } [
    .node { label := "expression_statement", isNamed := true, start := 0, stop := 17 } [
      .node { label := "call_expression", isNamed := true, start := 0, stop := 16 } [
        .node { label := "identifier", isNamed := true, start := 0, stop := 1,
                field := some "function" } [],
        .node { label := "arguments", isNamed := true, start := 1, stop := 16,
                field := some "arguments" } [
          .node { label := "(", start := 1, stop := 2 } [],
          .node { label := "identifier", isNamed := true, start := 2, stop := 3 } [],
          .node { label := ",", start := 3, stop := 4 } [],
          .node { label := "comment", isNamed := true, isExtra := true, start := 4, stop := 8 } [],
          .node { label := "template_string", isNamed := true, start := 8, stop := 15 } [
            .node { label := "`", start := 8, stop := 9 } [],
            .node { label := "template_substitution", isNamed := true, start := 9, stop := 13 } [
              .node { label := "$\x7b", start := 9, stop := 11 } [],
              .node { label := "identifier", isNamed := true, start := 11, stop := 12 } [],
              .node { label := "\x7d", start := 12, stop := 13 } []],
            .node { label := "string_fragment", isNamed := true, start := 13, stop := 14 } [],
            .node { label := "`", start := 14, stop := 15 } []],
          .node { label := ")", start := 15, stop := 16 } []]],
      .node { label := ";", start := 16, stop := 17 } []]]

theorem templateArgument_ordered : templateArgument.Everywhere Cst.Arranged ∧
    ∃ node,
      (Program.convert templateArgument (.ofString "f(a,/**/`$\x7bb\x7dc`);") {}).result = .ok node ∧
      ∀ p, Tree.IsNode p node →
        (∀ ts ∈ p.shape.lists, ts.Pairwise Node.Precedes) ∧
        ∀ quasis expressions, p.shape = .templateLiteral quasis expressions →
          quasis.length = expressions.length + 1 ∧
            (weave quasis expressions).Pairwise Node.Precedes := by
  have arranged : templateArgument.Everywhere Cst.Arranged := by decide +kernel
  obtain ⟨node, h⟩ := Report.exists_node
    (Program.convert templateArgument (.ofString "f(a,/**/`$\x7bb\x7dc`);") {}) (by decide +kernel)
  exact ⟨arranged, node, h, Program.convert_ordered arranged h⟩

end Estree
