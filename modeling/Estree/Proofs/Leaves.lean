import Estree.Proofs.Built.Statement
import Estree.Proofs.Failure
import Estree.Proofs.Trace

/-!
# Nodes begin and end with tokens

In the result of a conversion every node runs from the start of a leaf of its syntax to the end of
one, and neither leaf is extra or below an extra node (`Program.convert_trimmed`). So a comment or a
piece of skipped text at the ends of a node, however deep, never counts as a part of it. The parts of
a template and the body of a class are bounded by delimiters instead, and the program covers the whole
text.
-/

namespace Estree

namespace Cst

/-! ## Significant nodes -/

/-- A node of a tree that is neither extra nor below an extra node. The root of the tree may be
extra. -/
structure IsSignificant (n tree : Cst) : Prop where
  isVisible : n.IsVisible tree
  plain : n.head.isExtra = false

/-- A significant node whose children are all extra. -/
structure IsSignificantLeaf (n tree : Cst) : Prop extends IsSignificant n tree where
  leaf : n.parts = []

variable {n c leaf tree : Cst} {a b : Nat}

theorem IsVisible.significant (h : n.IsVisible tree) (hc : c ∈ n.parts) : c.IsSignificant tree where
  isVisible := h.part hc
  plain := by simpa using (List.mem_filter.1 hc).2

theorem IsSignificant.part (h : n.IsSignificant tree) (hc : c ∈ n.parts) : c.IsSignificant tree :=
  h.isVisible.significant hc

/-- A piece of syntax has a significant leaf that starts at an offset. -/
def StartsAt (n tree : Cst) (a : Nat) : Prop :=
  ∃ leaf : Cst, leaf.IsSignificantLeaf tree ∧ leaf.IsNode n ∧ a = leaf.head.start

/-- A piece of syntax has a significant leaf that ends at an offset. -/
def StopsAt (n tree : Cst) (b : Nat) : Prop :=
  ∃ leaf : Cst, leaf.IsSignificantLeaf tree ∧ leaf.IsNode n ∧ b = leaf.head.stop

theorem StartsAt.below (h : c.StartsAt tree a) (hc : c ∈ n.children) : n.StartsAt tree a := by
  obtain ⟨leaf, hleaf, hnode, ha⟩ := h
  exact ⟨leaf, hleaf, hnode.of_child hc, ha⟩

theorem StopsAt.below (h : c.StopsAt tree b) (hc : c ∈ n.children) : n.StopsAt tree b := by
  obtain ⟨leaf, hleaf, hnode, hb⟩ := h
  exact ⟨leaf, hleaf, hnode.of_child hc, hb⟩

/-- The extent of a significant node begins with a significant leaf: itself or the first one of its
first part. -/
theorem IsSignificant.startsAt (h : n.IsSignificant tree) : n.StartsAt tree n.firstByte := by
  induction hk : n.height using Nat.strongRecOn generalizing n with
  | ind k ih =>
    rw [firstByte_eq]
    cases hparts : n.parts with
    | nil => exact ⟨n, ⟨h, hparts⟩, .root, rfl⟩
    | cons c cs =>
      have hc : c ∈ n.parts := hparts ▸ List.mem_cons_self
      exact (ih c.height (hk ▸ height_lt_of_mem_parts hc) (h.part hc) rfl).below
        (mem_children_of_mem_parts hc)

theorem IsSignificant.stopsAt (h : n.IsSignificant tree) : n.StopsAt tree n.lastByte := by
  induction hk : n.height using Nat.strongRecOn generalizing n with
  | ind k ih =>
    rw [lastByte_eq]
    cases hlast : n.parts.getLast? with
    | none => exact ⟨n, ⟨h, List.getLast?_eq_none_iff.1 hlast⟩, .root, rfl⟩
    | some c =>
      have hc := List.mem_of_getLast? hlast
      exact (ih c.height (hk ▸ height_lt_of_mem_parts hc) (h.part hc) rfl).below
        (mem_children_of_mem_parts hc)

/-- No extra child is in a field that is looked up, and the keyword before the variable of a loop over
the parts of an object is a leaf. -/
structure Legible (n : Cst) : Prop where
  extras : ∀ c ∈ n.extras, ∀ name ∈ fieldNames, c.head.field ≠ some name
  keyword : n.kind = .forInStatement → ∀ c ∈ n.field? "kind", c.parts = []

instance : DecidablePred Legible := fun n =>
  decidable_of_iff ((∀ c ∈ n.extras, ∀ name ∈ fieldNames, c.head.field ≠ some name) ∧
      (n.kind = .forInStatement → ∀ c ∈ n.field? "kind", c.parts = []))
    ⟨fun ⟨extras, keyword⟩ => ⟨extras, keyword⟩, fun ⟨extras, keyword⟩ => ⟨extras, keyword⟩⟩

/-- A significant node of a tree with legible nodes. -/
structure IsPlain (n tree : Cst) : Prop extends IsSignificant n tree where
  legible : n.Everywhere Legible

namespace IsPlain

theorem part_of (h : n.IsPlain tree) (hc : c ∈ n.parts) : c.IsPlain tree :=
  ⟨h.toIsSignificant.part hc, h.legible.part hc⟩

theorem sees (h : n.IsPlain tree) (hc : n.Sees c) : c.IsPlain tree :=
  h.part_of (hc.mem_parts h.legible.root.extras)

theorem field {name : String} (h : n.IsPlain tree) (hc : n.field? name = some c)
    (hname : fieldNames.contains name) : c.IsPlain tree := h.sees (.of_field? hc hname)

end IsPlain

end Cst

/-! ## Nodes -/

/-- The types of the nodes that do not run from token to token. -/
def coarseTypes : List String := ["Program", "ClassBody", "TemplateElement"]

/-- A node that is not coarse runs from the start of one significant leaf of its syntax to the end of
another. -/
def Tree.Trimmed (tree : Cst) (u : Tree Origin) : Prop :=
  u.typeName ∉ coarseTypes →
    u.mark.piece.StartsAt tree u.mark.start ∧ u.mark.piece.StopsAt tree u.mark.stop

/-- Every node of a tree runs from leaf to leaf unless it is coarse. -/
def Tree.AllTrimmed (tree : Cst) (t : Tree Origin) : Prop := t.Everywhere (Trimmed tree)

variable {μ : Type} {ctx : Context μ} {cat : Category} {n tree : Cst} {t : Tree Origin}
  {s : Shape (Tree Origin)} {a b : Nat}

namespace Tree.AllTrimmed

theorem nodeAt (hstart : n.StartsAt tree a) (hstop : n.StopsAt tree b)
    (hs : ∀ c ∈ s.children, AllTrimmed tree c) : AllTrimmed tree (ctx.traced.nodeAt n a b s) :=
  .mk (fun _ => ⟨hstart, hstop⟩) hs

theorem node (hn : n.IsPlain tree) (hs : ∀ c ∈ s.children, AllTrimmed tree c) :
    AllTrimmed tree (ctx.traced.node n s) := nodeAt hn.startsAt hn.stopsAt hs

theorem coarse (htype : coarseTypes.contains s.typeName)
    (hs : ∀ c ∈ s.children, AllTrimmed tree c) : AllTrimmed tree (ctx.traced.nodeAt n a b s) :=
  .mk (fun h => absurd (List.contains_iff_mem.1 htype) h) hs

end Tree.AllTrimmed

/-- What is built from significant syntax is trimmed. -/
theorem Built.allTrimmed (h : Built ctx.traced cat n t) (hn : n.IsPlain tree) :
    Tree.AllTrimmed tree t := by
  induction h with
  | node _ _ hparts _ ih =>
    refine .node hn fun c hc => ?_
    rw [← Category.parts?_children hparts] at hc
    obtain ⟨p, hp, rfl⟩ := List.mem_map.1 hc
    exact ih p hp hn
  | within hc _ ih => exact ih (hn.sees hc)
  | widen _ _ ih => exact ih hn
  | identifier | privateIdentifier => exact .node hn nofun
  | trusted hc => exact .node (hn.sees hc.sees) nofun
  | literal =>
    refine .node hn ?_
    rw [Shape.children_literal]
    exact nofun
  | templateElement => exact .coarse rfl nofun
  | @defaultParameter n pattern value left right _ hpattern hvalue _ _ ihleft ihright =>
    have hleft := hn.field hpattern rfl
    have hright := hn.field hvalue rfl
    refine .nodeAt ?_ ?_ ?_
    · exact hleft.startsAt.below (Cst.mem_children_of_field? hpattern)
    · exact hright.stopsAt.below (Cst.mem_children_of_field? hvalue)
    · exact List.forall_mem_cons.2 ⟨ihleft hleft, List.forall_mem_singleton.2 (ihright hright)⟩
  | @methodFunction n list body params block _ _ _ hlist hbody _ _ _ ihparams ihblock =>
    have hparams := hn.field hlist rfl
    refine .nodeAt ?_ hn.stopsAt fun c hc => ?_
    · exact hparams.startsAt.below (Cst.mem_children_of_field? hlist)
    · have hc : c ∈ params ∨ c = block := by simpa using hc
      rcases hc with hc | rfl
      · exact ihparams c hc hparams
      · exact ihblock (hn.field hbody rfl)
  | constructor hname _ _ _ ih =>
    exact .node hn (List.forall_mem_cons.2
      ⟨.node (hn.field hname rfl) nofun, List.forall_mem_singleton.2 (ih hn)⟩)
  | @classBody n origin members _ _ horigin _ ih =>
    refine .coarse rfl fun c hc => ?_
    have hc : c ∈ members := by simpa using hc
    exact ih c hc (hn.sees (.of_mem_named (horigin c hc)))
  | @variableList n origin declarations _ _ horigin _ ih =>
    refine .nodeAt hn.startsAt ?_ fun c hc => ?_
    · cases hlast : n.named.getLast? with
      | none => exact hn.stopsAt
      | some c =>
        have hc := List.mem_of_getLast? hlast
        exact (hn.sees (.of_mem_named hc)).stopsAt.below (Cst.mem_children_of_mem_named hc)
    · have hc : c ∈ declarations := by simpa using hc
      exact ih c hc (hn.sees (.of_mem_named (horigin c hc)))
  | @loopVariable n keyword name value id init _ hk hkeyword hname hvalue _ hsome _ ihid ihinit =>
    -- The keyword is a leaf of the loop, and the last of the variable and its value ends both nodes.
    have hstart : n.StartsAt tree keyword.head.start :=
      ⟨keyword, ⟨(hn.field hkeyword rfl).toIsSignificant, hn.legible.root.keyword hk _ hkeyword⟩,
        .child .root (Cst.mem_children_of_field? hkeyword), rfl⟩
    have hleft := hn.field hname rfl
    have hstop : n.StopsAt tree (value.getD name).lastByte := by
      cases value with
      | none => exact hleft.stopsAt.below (Cst.mem_children_of_field? hname)
      | some c => exact (hn.field hvalue rfl).stopsAt.below (Cst.mem_children_of_field? hvalue)
    refine .nodeAt hstart hstop (List.forall_mem_singleton.2 ?_)
    refine .nodeAt (hleft.startsAt.below (Cst.mem_children_of_field? hname)) hstop fun c hc => ?_
    have hc : c = id ∨ init = some c := by simpa using hc
    rcases hc with rfl | hc
    · exact ihid hleft
    · obtain ⟨d, rfl⟩ := hsome c hc
      exact ihinit c hc (hn.field hvalue rfl)
  | @forLoop n init test update body condition _ _ hcondition _ _ _ ihinit ihtest ihupdate ihbody =>
    refine .node hn fun c hc => ?_
    have hc : init = some c ∨ test = some c ∨ update = some c ∨ c = body := by
      simpa [or_assoc] using hc
    rcases hc with hc | hc | hc | rfl
    · exact ihinit c hc hn
    · exact ihtest c hc (hn.field (hcondition c hc) rfl)
    · exact ihupdate c hc hn
    · exact ihbody hn

/-- **Nodes have no trivia around them.** The result of a conversion is a traced result with the places
of its nodes put on, and in this every node other than the program, the body of a class and a part of
a template runs from the start of a significant leaf to the end of one, both of them nodes of the piece
of syntax that it was made from. -/
theorem Program.convert_trimmed {tree : Cst} {source : Source} {options : Options} {node : Node}
    (htree : tree.Everywhere Cst.Legible)
    (h : (convert tree source options).result = .ok node) :
    ∃ t : Tree Origin, (Convert.program (context source options).traced tree).result = .ok t ∧
      t.map (fun o => .ofBytes source options.fileName o.start o.stop) = node ∧
      ∀ u, Tree.IsNode u t → u.typeName ∉ ["Program", "ClassBody", "TemplateElement"] →
        ∃ first last : Cst, first.IsSignificantLeaf tree ∧ last.IsSignificantLeaf tree ∧
          first.IsNode u.mark.piece ∧ last.IsNode u.mark.piece ∧
          u.mark.start = first.head.start ∧ u.mark.stop = last.head.stop := by
  obtain ⟨t, ht, hnode⟩ := Convert.exists_traced h
  refine ⟨t, ht, hnode, fun u hu htype => ?_⟩
  obtain ⟨body, rfl, hbody, -⟩ := Convert.program_items ht
  have hall : Tree.AllTrimmed tree ((context source options).traced.nodeAt tree 0 source.size
      (.program body options.sourceType)) := by
    refine .coarse rfl fun c hc => ?_
    have hc : c ∈ body := by simpa using hc
    obtain ⟨d, hd, hdc⟩ := hbody c hc
    have hpart := Cst.mem_parts_of_mem_named hd
    exact hdc.allTrimmed ⟨Cst.IsVisible.root.significant hpart, htree.part hpart⟩
  obtain ⟨⟨first, hfirst, hfirst', hstart⟩, last, hlast, hlast', hstop⟩ := hall.of_isNode hu htype
  exact ⟨first, last, hfirst, hlast, hfirst', hlast', hstart, hstop⟩

/-- The tree of a loop over a negation that has a comment at its end. -/
def commentedLoop : Cst :=
  .node { label := "program", isNamed := true, start := 0, stop := 21 } [
    .node { label := "for_in_statement", isNamed := true, start := 0, stop := 21 } [
      .node { label := "for", start := 0, stop := 3 } [],
      .node { label := "(", start := 3, stop := 4 } [],
      .node { label := "let", start := 4, stop := 7, field := some "kind" } [],
      .node { label := "identifier", isNamed := true, start := 8, stop := 9,
              field := some "left" } [],
      .node { label := "in", start := 10, stop := 12, field := some "operator" } [],
      .node { label := "unary_expression", isNamed := true, start := 13, stop := 19,
              field := some "right" } [
        .node { label := "-", start := 13, stop := 14, field := some "operator" } [],
        .node { label := "identifier", isNamed := true, start := 14, stop := 15,
                field := some "argument" } [],
        .node { label := "comment", isNamed := true, isExtra := true, start := 15, stop := 19 } []],
      .node { label := ")", start := 19, stop := 20 } [],
      .node { label := "empty_statement", isNamed := true, start := 20, stop := 21,
              field := some "body" } [
        .node { label := ";", start := 20, stop := 21 } []]]]

theorem commentedLoop_trimmed : commentedLoop.Everywhere Cst.Legible ∧
    ∃ (node : Node) (t : Tree Origin),
      (Program.convert commentedLoop (.ofString "for(let a in -b/**/);") {}).result = .ok node ∧
      t.map (fun o => .ofBytes (.ofString "for(let a in -b/**/);") "module.ts" o.start o.stop) = node ∧
      ∀ u, Tree.IsNode u t → u.typeName ∉ ["Program", "ClassBody", "TemplateElement"] →
        ∃ first last : Cst, first.IsSignificantLeaf commentedLoop ∧
          last.IsSignificantLeaf commentedLoop ∧
          first.IsNode u.mark.piece ∧ last.IsNode u.mark.piece ∧
          u.mark.start = first.head.start ∧ u.mark.stop = last.head.stop := by
  have legible : commentedLoop.Everywhere Cst.Legible := by decide +kernel
  obtain ⟨node, h⟩ := Report.exists_node
    (Program.convert commentedLoop (.ofString "for(let a in -b/**/);") {}) (by decide +kernel)
  obtain ⟨t, -, ht, htrimmed⟩ := Program.convert_trimmed legible h
  exact ⟨legible, node, t, h, ht, htrimmed⟩

end Estree
