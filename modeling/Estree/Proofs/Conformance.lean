import Estree.Proofs.Built.Statement

/-!
# Results obey the grammar

Every result of a conversion conforms to the grammar of ESTrees (`Program.convert_conforms`). The
one thing asked of the concrete tree is that the second part in the head of a `for` statement is no
declaration: the conversion takes one there, and the grammar has none.
-/

namespace Estree

/-- The condition of a `for` statement is no declaration. -/
def Cst.HasPlainCondition (n : Cst) : Prop :=
  n.kind = .forStatement → ∀ c ∈ n.children, c.head.field = some "condition" →
    c.kind ≠ .lexicalDeclaration ∧ c.kind ≠ .variableDeclaration

instance : DecidablePred Cst.HasPlainCondition := fun n =>
  inferInstanceAs (Decidable (_ → ∀ c ∈ n.children, _ → _))

variable {μ : Type} {ctx : Context μ} {cat : Category} {n : Cst} {t : Tree μ}

/-- What is built in a category conforms to it. -/
theorem Built.conforms (h : Built ctx cat n t) (hn : n.Everywhere Cst.HasPlainCondition) :
    t.Conforms cat := by
  induction h with
  | node _ _ hparts _ ih => exact .mk hparts fun p hp => ih p hp hn
  | within hc _ ih => exact ih (hn.sees hc)
  | widen hle _ ih => exact (ih hn).widen hle
  | identifier | trusted | privateIdentifier | literal | templateElement => exact .mk rfl nofun
  | defaultParameter _ hpattern hvalue _ _ ihleft ihright =>
    have hleft := ihleft (hn.field? hpattern)
    have hright := ihright (hn.field? hvalue)
    exact .mk rfl (List.forall_mem_cons.2 ⟨hleft, List.forall_mem_singleton.2 hright⟩)
  | methodFunction _ hlist hbody _ _ _ ihparams ihbody =>
    have hparams := fun t ht => ihparams t ht (hn.field? hlist)
    have hblock := ihbody (hn.field? hbody)
    refine .mk rfl ?_
    simp only [Category.functionParts, List.forall_mem_append, List.forall_mem_singleton,
      Category.forall_mem_each]
    exact ⟨⟨nofun, hparams⟩, hblock⟩
  | constructor _ _ _ _ ih =>
    exact .mk rfl (List.forall_mem_cons.2 ⟨.mk rfl nofun, List.forall_mem_singleton.2 (ih hn)⟩)
  | classBody _ _ horigin _ ih =>
    exact .mk rfl (Category.forall_mem_each.2 fun t ht => ih t ht (hn.named (horigin t ht)))
  | variableList _ horigin _ ih =>
    exact .mk rfl (Category.forall_mem_each.2 fun t ht => ih t ht (hn.named (horigin t ht)))
  | loopVariable _ _ hname hvalue _ hsome _ ihid ihinit =>
    refine .mk rfl (List.forall_mem_singleton.2 (.mk rfl ?_))
    refine List.forall_mem_cons.2 ⟨ihid (hn.field? hname), Category.forall_mem_each.2 fun t ht => ?_⟩
    obtain rfl := Option.mem_toList.1 ht
    obtain ⟨c, rfl⟩ := hsome t rfl
    exact ihinit t rfl (hn.field? hvalue)
  | @forLoop n init test update body condition hk _ hcondition _ _ _ ihinit ihtest ihupdate ihbody =>
    refine .mk rfl ?_
    simp only [List.forall_mem_append, List.forall_mem_singleton, Category.forall_mem_each,
      Option.mem_toList]
    refine ⟨⟨⟨fun t ht => ihinit t ht hn, fun t ht => ?_⟩, fun t ht => ihupdate t ht hn⟩, ihbody hn⟩
    have hc := hcondition t ht
    have hplain := hn.root hk condition (Cst.mem_children_of_field? hc) (Cst.field_of_field? hc)
    have hcat : Role.forPart.category condition = .expression := by
      rw [Role.category, if_neg (by rintro (h | h) <;> simp [h] at hplain)]
    exact hcat ▸ ihtest t ht (hn.field? hc)

namespace Program

/-- The result of a conversion obeys the grammar; in particular it is the only program, and imports
and exports stand directly in it. -/
theorem convert_conforms {tree : Cst} {source : Source} {options : Options} {node : Node}
    (hfor : tree.Everywhere Cst.HasPlainCondition)
    (h : (convert tree source options).result = .ok node) :
    node.Conforms .program ∧ ∀ p c, Tree.IsNode p node → c ∈ p.children →
      c.typeName ≠ "Program" ∧ (Category.moduleParts? c.shape ≠ none → p.typeName = "Program") := by
  obtain ⟨body, rfl, hbody⟩ := Convert.program_built h
  have hnode (m : Label) (type : SourceType) : Tree.Conforms .program (.mk (.program body type) m) :=
    .mk rfl (Category.forall_mem_each.2 fun t ht => (hbody t ht).conforms hfor)
  refine ⟨hnode _ _, fun p c hp hc => ?_⟩
  obtain ⟨cat, hp⟩ := (hnode _ _).node hp
  obtain ⟨cat', hchild, hcat'⟩ := hp.child hc
  split at hcat'
  case isTrue hcat =>
    subst hcat hcat'
    exact ⟨hchild.typeName_ne (by decide), fun _ => hp.typeName_eq⟩
  case isFalse =>
    refine ⟨hchild.typeName_ne ?_, fun hitem => absurd (hchild.moduleParts?_eq_none hcat') hitem⟩
    rintro rfl
    cases hcat'

end Program

/-- The tree of `for(;a;);`. -/
def guardedLoop : Cst :=
  .node { label := "program", isNamed := true, start := 0, stop := 9 } [
    .node { label := "for_statement", isNamed := true, start := 0, stop := 9 } [
      .node { label := "for", start := 0, stop := 3 } [],
      .node { label := "(", start := 3, stop := 4 } [],
      .node { label := ";", start := 4, stop := 5, field := some "initializer" } [],
      .node { label := "expression_statement", isNamed := true, start := 5, stop := 7,
              field := some "condition" } [
        .node { label := "identifier", isNamed := true, start := 5, stop := 6 } [],
        .node { label := ";", start := 6, stop := 7 } []],
      .node { label := ")", start := 7, stop := 8 } [],
      .node { label := "empty_statement", isNamed := true, start := 8, stop := 9,
              field := some "body" } [
        .node { label := ";", start := 8, stop := 9 } []]]]

theorem guardedLoop_conforms : guardedLoop.Everywhere Cst.HasPlainCondition ∧
    ∃ node, (Program.convert guardedLoop (.ofString "for(;a;);") {}).result = .ok node ∧
      node.Conforms .program ∧ ∀ p c, Tree.IsNode p node → c ∈ p.children →
        c.typeName ≠ "Program" ∧
          (Category.moduleParts? c.shape ≠ none → p.typeName = "Program") := by
  have plain : guardedLoop.Everywhere Cst.HasPlainCondition := by decide
  obtain ⟨node, h⟩ := Report.exists_node
    (Program.convert guardedLoop (.ofString "for(;a;);") {}) (by decide +kernel)
  exact ⟨plain, node, h, Program.convert_conforms plain h⟩

end Estree
