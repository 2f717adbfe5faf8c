import Estree.Proofs.Encode
import Estree.Proofs.Simulation.Descent

/-!
# Layout is invisible

Two trees over two texts are laid out differently if they have corresponding nodes
(`Cst.Paired`), if the texts agree wherever a rule reads them, and if the starts of siblings stand in
the same order (`Cst.Relaid`). The offsets themselves may be any. Then both are converted to the same
tree but for its labels, or they fail at nodes of the same name: of the offsets, rules only see the
order of siblings.
-/

namespace Estree

namespace Cst

/-! ## Corresponding nodes -/

/-- Two trees have corresponding nodes, extra nodes included, and `P` holds of each pair. -/
inductive Paired (P : Cst → Cst → Prop) : Cst → Cst → Prop
  | mk {n m : Cst} : P n m → List.Forall₂ (Paired P) n.children m.children → Paired P n m

namespace Paired

variable {P : Cst → Cst → Prop} {n m : Cst}

theorem root : Paired P n m → P n m
  | mk h _ => h

theorem children : Paired P n m → List.Forall₂ (Paired P) n.children m.children
  | mk _ h => h

end Paired

mutual

/-- What can be decided of two nodes can be decided of all pairs of corresponding nodes. -/
def decidePaired (P : Cst → Cst → Prop) [DecidableRel P] : (n m : Cst) → Decidable (Paired P n m)
  | node h cs, node k ds =>
    if hp : P (node h cs) (node k ds) then
      match decidePairs P cs ds with
      | .isTrue hs => .isTrue (.mk hp hs)
      | .isFalse hs => .isFalse fun h => hs h.children
    else .isFalse fun h => hp h.root

def decidePairs (P : Cst → Cst → Prop) [DecidableRel P] :
    (cs ds : List Cst) → Decidable (List.Forall₂ (Paired P) cs ds)
  | [], [] => .isTrue .nil
  | c :: cs, d :: ds =>
    match decidePaired P c d, decidePairs P cs ds with
    | .isTrue hc, .isTrue hs => .isTrue (.cons hc hs)
    | .isFalse hc, _ => .isFalse fun | .cons h _ => hc h
    | _, .isFalse hs => .isFalse fun | .cons _ h => hs h
  | [], _ :: _ | _ :: _, [] => .isFalse nofun

end

instance (P : Cst → Cst → Prop) [DecidableRel P] : DecidableRel (Paired P) := decidePaired P

end Cst

/-! ## Layouts of one tree -/

instance (h k : Cst.Head) : Decidable (h.Alike k) :=
  decidable_of_iff (_ ∧ _ ∧ _ ∧ _ ∧ _)
    ⟨fun ⟨h₁, h₂, h₃, h₄, h₅⟩ => ⟨h₁, h₂, h₃, h₄, h₅⟩,
      fun ⟨h₁, h₂, h₃, h₄, h₅⟩ => ⟨h₁, h₂, h₃, h₄, h₅⟩⟩

/-- The text under a node. -/
def Source.under (s : Source) (n : Cst) : List Char := s.slice n.head.start n.head.stop

namespace Cst

/-- Two texts agree where the rules for two nodes read them. -/
structure SameTexts (s t : Source) (n m : Cst) : Prop where
  /-- Names and literals. -/
  own : n.isRead → s.under n = t.under m
  /-- Names in a field, operators, the keyword of a declaration, and the parts of a regular
  expression. -/
  fields : ∀ name ∈ n.kind.readFields, (n.field? name).map s.under = (m.field? name).map t.under
  /-- The operator of a plain assignment, which is in no field. -/
  mark : n.kind = .assignmentExpression ∨ n.kind = .augmentedAssignmentExpression →
    n.field? "operator" = none → (n.token? "=").map s.under = (m.token? "=").map t.under
  /-- The keyword `default` in place of a name. -/
  keyword : n.kind = .importSpecifier ∨ n.kind = .exportSpecifier → ∀ name ∈ ["name", "alias"],
    ((n.field? name).filter (·.isToken "default")).map s.under
      = ((m.field? name).filter (·.isToken "default")).map t.under
  /-- The name that a namespace is imported as. -/
  binding : n.kind = .namespaceImport → n.named.head?.map s.under = m.named.head?.map t.under
  /-- What stands between the substitutions of a template. -/
  gaps : n.kind = .templateString →
    n.gaps.map (fun gap => s.slice gap.1 gap.2) = m.gaps.map fun gap => t.slice gap.1 gap.2

instance (s t : Source) (n m : Cst) : Decidable (SameTexts s t n m) :=
  decidable_of_iff (_ ∧ _ ∧ _ ∧ _ ∧ _ ∧ _)
    ⟨fun ⟨h₁, h₂, h₃, h₄, h₅, h₆⟩ => ⟨h₁, h₂, h₃, h₄, h₅, h₆⟩,
      fun ⟨h₁, h₂, h₃, h₄, h₅, h₆⟩ => ⟨h₁, h₂, h₃, h₄, h₅, h₆⟩⟩

/-- Two nodes are the same but for their offsets, and so are their children, whose starts stand in
the same order; the two texts agree where the rules for the nodes read them. -/
structure Relaid (s t : Source) (n m : Cst) : Prop where
  head : n.head.Alike m.head
  field : n.head.field = m.head.field
  texts : SameTexts s t n m
  order : ∀ p ∈ n.children.zip m.children, ∀ q ∈ n.children.zip m.children,
    p.1.head.start < q.1.head.start ↔ p.2.head.start < q.2.head.start

instance (s t : Source) : DecidableRel (Relaid s t) := fun _ _ =>
  decidable_of_iff (_ ∧ _ ∧ _ ∧ _)
    ⟨fun ⟨h₁, h₂, h₃, h₄⟩ => ⟨h₁, h₂, h₃, h₄⟩, fun ⟨h₁, h₂, h₃, h₄⟩ => ⟨h₁, h₂, h₃, h₄⟩⟩

section

variable {s t : Source} {n m : Cst} (h : n.Paired (Relaid s t) m)
include h

theorem Paired.children_relaid : List.Forall₂ (fun c d => c.Paired (Relaid s t) d ∧
    c.head.field = d.head.field ∧ (c, d) ∈ n.children.zip m.children) n.children m.children :=
  (forall₂_mem_zip h.children).imp fun _ _ h => ⟨h.1, h.1.root.field, h.2⟩

theorem Paired.parts_relaid : List.Forall₂ (fun c d => c.Paired (Relaid s t) d ∧
    c.head.field = d.head.field ∧ (c, d) ∈ n.children.zip m.children) n.parts m.parts :=
  forall₂_filter h.children_relaid fun _ _ h => by rw [h.1.root.head.isExtra]

theorem Paired.field?_relaid (name : String) :
    Option.Rel (fun c d => c.Paired (Relaid s t) d ∧ (c, d) ∈ n.children.zip m.children)
      (n.field? name) (m.field? name) :=
  optionRel_mono (optionRel_find? h.children_relaid fun _ _ h => by rw [h.2.1])
    fun _ _ _ _ h => ⟨h.1.1, h.1.2.2⟩

/-- Children found in a field stand at the same place. -/
theorem Paired.mem_zip {name : String} {c d : Cst} (hc : n.field? name = some c)
    (hd : m.field? name = some d) : (c, d) ∈ n.children.zip m.children := by
  have hfield := h.field?_relaid name
  rw [hc, hd, Option.rel_some_some] at hfield
  exact hfield.2

end

end Cst

/-! ## The comparison -/

/-- Conversions of two layouts of one tree. -/
def Likeness.relaid {μ ν : Type} (ctx₁ : Context μ) (ctx₂ : Context ν)
    (hcompiles : ctx₁.CompilesLike ctx₂) : Likeness Unit ctx₁ ctx₂ :=
  have text {c d : Cst} (h : ctx₁.source.under c = ctx₂.source.under d) :
      ctx₁.text c = ctx₂.text d := congrArg String.ofList h
  { Rel := Cst.Paired (Cst.Relaid ctx₁.source ctx₂.source)
    Fail := fun u v => u.kind = v.kind
    left := fun _ => ()
    right := fun _ => ()
    placed := False
    compiles := hcompiles
    head := fun h => h.root.head
    parts := fun h => h.parts_relaid.imp fun _ _ h => ⟨h.1, h.2.1⟩
    field := fun h _ => optionRel_mono (h.field?_relaid _) fun _ _ _ _ h => h.1
    clauseBody := by
      rintro n m c d name h _ _ hc hd
      have hclause := h.field?_relaid name
      rw [hc, hd, Option.rel_some_some] at hclause
      exact optionRel_mono (hclause.1.field?_relaid _) fun _ _ _ _ h => h.1
    fail := fun h => h.root.head.kindName_eq
    text := fun h hread => text (h.root.texts.own hread)
    readText := by
      rintro n m c d name h hread hc hd
      have hname := h.root.texts.fields name (List.contains_iff_mem.1 hread)
      rw [hc, hd] at hname
      exact text (Option.some.inj hname)
    firstText := by
      rintro n m c d h hk hc hd
      have hbinding := h.root.texts.binding hk
      rw [hc, hd] at hbinding
      exact text (Option.some.inj hbinding)
    assignText := by
      rintro n m c d h hk ho hc hd
      have hmark := h.root.texts.mark hk ho
      rw [hc, hd] at hmark
      exact text (Option.some.inj hmark)
    defaultText := by
      rintro n m c d name h hk hname hc hd ht
      have hkeyword := h.root.texts.keyword hk name (List.contains_iff_mem.1 hname)
      rw [hc, hd, Option.filter_some, if_pos ht, Option.filter_some] at hkeyword
      split at hkeyword
      · exact text (Option.some.inj hkeyword)
      · cases hkeyword
    operatorFirst := fun h _ ha hb hc hd _ =>
      h.root.order _ (h.mem_zip ha hc) _ (h.mem_zip hb hd)
    methodTokens := by
      rintro n m c d h hc hd
      refine labels_takeWhile h.parts_relaid fun a b hab => ⟨hab.1.root.head, ?_⟩
      have horder := h.root.order _ hab.2.2 _ (h.mem_zip hc hd)
      simp [horder, hab.1.root.head.kind_eq]
    gaps := by
      rintro n m h hk
      have hgaps : List.Forall₂ Eq _ _ := List.forall₂_eq_eq_eq ▸ h.root.texts.gaps hk
      rw [List.forall₂_map_left_iff, List.forall₂_map_right_iff] at hgaps
      exact hgaps.imp fun _ _ h => ⟨False.elim, h⟩
    start := fun _ => False.elim
    stop := fun _ => False.elim
    firstByte := fun _ => False.elim
    lastByte := fun _ => False.elim
    mark := fun _ _ _ => rfl }

/-! ## The conversion of another layout -/

/-- White space, line breaks and what comments say show in nothing but the labels of a result, and in
the place of a failure. -/
theorem Program.convert_relaid {tree tree' : Cst} {source source' : Source} (options : Options)
    (h : tree.Paired (Cst.Relaid source source') tree') :
    ResultAlike (fun u v => u.kind = v.kind)
      (fun t u => t.unlabelled = u.unlabelled ∧ t.structureEq u)
      (Program.convert tree source options).result
      (Program.convert tree' source' options).result := by
  let S := (Likeness.relaid (context source options) (context source' options) rfl).toSimulation
  have same := S.program h False.elim rfl
  exact (same.mono fun t u htu => ⟨htu, Node.structureEq_of_unlabelled htu⟩).result

/-- The tree of a template with an increment in it, given where the variable, the operator and the end
of the substitution start. -/
def countingTemplate (name operator close : Nat) : Cst :=
  .node { label := "program", isNamed := true, start := 0, stop := close + 3 } [
    .node { label := "expression_statement", isNamed := true, start := 0, stop := close + 3 } [
      .node { label := "template_string", isNamed := true, start := 0, stop := close + 3 } [
        .node { label := "`", start := 0, stop := 1 } [],
        .node { label := "template_substitution", isNamed := true, start := 1,
                stop := close + 1 } [
          .node { label := "$\x7b", start := 1, stop := 3 } [],
          .node { label := "update_expression", isNamed := true, start := name,
                  stop := operator + 2 } [
            .node { label := "identifier", isNamed := true, start := name, stop := name + 1,
                    field := some "argument" } [],
            .node { label := "++", start := operator, stop := operator + 2,
                    field := some "operator" } []],
          .node { label := "\x7d", start := close, stop := close + 1 } []],
        .node { label := "string_fragment", isNamed := true, start := close + 1,
                stop := close + 2 } [],
        .node { label := "`", start := close + 2, stop := close + 3 } []]]]

theorem countingTemplate_convert_relaid :
    (countingTemplate 3 4 6).Paired
      (Cst.Relaid (.ofString "`$\x7bx++\x7da`") (.ofString "`$\x7b x ++ \x7da`"))
      (countingTemplate 4 6 9) ∧
    ResultAlike (fun u v => u.kind = v.kind)
      (fun t u => t.unlabelled = u.unlabelled ∧ t.structureEq u)
      (Program.convert (countingTemplate 3 4 6) (.ofString "`$\x7bx++\x7da`") {}).result
      (Program.convert (countingTemplate 4 6 9) (.ofString "`$\x7b x ++ \x7da`") {}).result :=
  have relaid : (countingTemplate 3 4 6).Paired
      (Cst.Relaid (.ofString "`$\x7bx++\x7da`") (.ofString "`$\x7b x ++ \x7da`"))
      (countingTemplate 4 6 9) := by decide +kernel
  ⟨relaid, Program.convert_relaid {} relaid⟩

end Estree
