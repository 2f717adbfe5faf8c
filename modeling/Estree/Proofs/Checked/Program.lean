import Estree.Proofs.Checked.Escape
import Estree.Proofs.Checked.LineIndex
import Estree.Proofs.Failure
import Estree.Proofs.Trace

/-!
# No input makes a conversion panic

Besides looking up children and slicing the text where a slice may be absent, a conversion computes
the extents of the text of templates, reads escapes, and asks a line index for positions. All of this
works with words and indices, and no step of it fails: not even for a tree that belongs to another
text, with offsets that overlap, run backwards, lie past the end or inside a character
(`Program.convert_checked`).
-/

namespace Estree

namespace Checked

/-- The extents of the text of a template. The end of the last is moved by one byte unless it is 0. -/
def gaps (n : Cst) : Checked (List (Nat × Nat)) := do
  return Cst.gapsFrom (← add maxUsize n.head.start 1) (n.head.stop - 1) n.substitutions

theorem gaps_eq {n : Cst} (h : n.head.start < maxUsize) : gaps n = .ok n.gaps := by
  rw [gaps, add_eq h]
  rfl

/-- The context that labels nodes step by step with an index of the text. -/
def context (index : LineIndex) (source : Source) (options : Options) : Context (Checked Label) where
  source
  sourceType := options.sourceType
  compiles := (Program.context source options).compiles
  mark _ start stop := label index source options.fileName start stop

end Checked

/-- **A conversion takes no step that fails**, given that all offsets of the tree are words below the
largest. The index of a text can be made, and it labels every node and the failure, as it finds the
position of every offset. The extents of templates and the values of texts are found as well. -/
theorem Program.convert_checked {tree : Cst}
    (h : tree.Everywhere fun n => n.head.start < Checked.maxUsize ∧ n.head.stop < Checked.maxUsize)
    (source : Source) (options : Options) :
    ∃ index, Checked.lineIndex source = .ok index ∧
      (Convert.program (Checked.context index source options) tree).result
        = (convert tree source options).result.map (Tree.map .ok) ∧
      (∀ u, (convert tree source options).result = .error u → ∃ n : Cst, n.IsNode tree ∧
        u.kind = n.kindName ∧ Checked.position index source n.head.start = .ok u.position) ∧
      (∀ offset, Checked.position index source offset = .ok (source.position offset) ∧
        Checked.units index source offset = .ok (source.units offset)) ∧
      (∀ n : Cst, n.IsNode tree → Checked.gaps n = .ok n.gaps) ∧
      ∀ quote text, Checked.cook quote text = .ok (cook quote text) := by
  refine ⟨_, Checked.lineIndex_eq source, ?_, ?_, ?_, ?_, Checked.cook_eq⟩
  · have hmarks : Convert.program (Checked.context (.ofSource source) source options) tree
        = Tree.map .ok <$> Convert.program (context source options) tree :=
      Convert.program_marks Except.ok rfl rfl rfl (fun _ _ _ => (Checked.label_eq ..).symm) tree
    rw [hmarks, Outcome.result_map]
    rfl
  · intro u hu
    obtain ⟨n, hn, rfl⟩ := Convert.exists_unsupported hu
    exact ⟨n, hn.isNode, rfl, Checked.position_eq ..⟩
  · intro offset
    exact ⟨Checked.position_eq .., Checked.units_eq ..⟩
  · intro n hn
    exact Checked.gaps_eq (h.of_isNode hn).root.1

/-- A tree of a template that belongs to no text: spans run backwards and past the end. -/
def strayTemplate : Cst :=
  .node { label := "program", isNamed := true, start := 7, stop := 3 } [
    .node { label := "expression_statement", isNamed := true, start := 1, stop := 100 } [
      .node { label := "template_string", isNamed := true, start := 2 ^ 64 - 2, stop := 0 } [
        .node { label := "template_substitution", isNamed := true, start := 40, stop := 1 } [
          .node { label := "identifier", isNamed := true, start := 3, stop := 2 } []]]]]

theorem strayTemplate_convert_checked :
    (strayTemplate.Everywhere fun n =>
      n.head.start < Checked.maxUsize ∧ n.head.stop < Checked.maxUsize) ∧
    ∃ index, Checked.lineIndex (.ofString "é\r\n'") = .ok index ∧
      (∃ t, (Convert.program (Checked.context index (.ofString "é\r\n'") {}) strayTemplate).result
        = .ok t) ∧
      Checked.position index (.ofString "é\r\n'") 100 = .ok ⟨2, 1⟩ ∧
      Checked.units index (.ofString "é\r\n'") 1 = .ok 0 ∧
      Checked.cook .string ['\\', 'u', '{', 'f', '}'] = .ok (some [Char.ofNat 15]) := by
  have hwords : strayTemplate.Everywhere fun n =>
      n.head.start < Checked.maxUsize ∧ n.head.stop < Checked.maxUsize := by decide
  obtain ⟨index, hindex, hresult, -, hposition, -, hcook⟩ :=
    Program.convert_checked hwords (.ofString "é\r\n'") {}
  refine ⟨hwords, index, hindex, ?_, (hposition 100).1, (hposition 1).2, ?_⟩
  · obtain ⟨t, ht⟩ : ∃ t, (Program.convert strayTemplate (.ofString "é\r\n'") {}).result = .ok t :=
      ⟨_, rfl⟩
    rw [hresult, ht]
    exact ⟨_, rfl⟩
  · rw [hcook]
    decide +kernel

end Estree
