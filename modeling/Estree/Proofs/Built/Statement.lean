import Estree.Proofs.Built.Expression

/-!
# What statements, imports and exports are built from

`Convert.convert_built` puts the lemmas together, for every role and to any depth, and
`Convert.program_built` is about the root.
-/

namespace Estree

open Outcome Context

variable {μ : Type} {ctx : Context μ} {cat : Category} {n c : Cst} {t : Tree μ}
  {s : Shape (Tree μ)}

section
variable {f : Converter μ} (hf : Sound ctx f)
include hf

theorem block_built (h : (Convert.block ctx f n).result = .ok t) : Built ctx .block n t := by
  unfold Convert.block at h
  obtain ⟨_, -, h⟩ := result_bind_eq_ok.1 h
  obtain ⟨ts, hts, h⟩ := result_bind_eq_ok.1 h
  cases h
  have hts' := hf.named (r := .statement) (fun _ => Category.le_refl _) hts
  exact .node rfl (.one rfl trivial (hf.rows .named hts)) rfl (Category.forall_mem_each.2 hts')

/-! ## Variables -/

theorem declarator_built (h : (Convert.declarator ctx f n).result = .ok t) :
    Built ctx .declarator n t := by
  unfold Convert.declarator at h
  obtain ⟨_, -, h⟩ := result_bind_eq_ok.1 h
  obtain ⟨init, hinit, h⟩ := result_bind_eq_ok.1 h
  obtain ⟨c, hc, h⟩ := result_bind_eq_ok.1 h
  obtain ⟨id, hid, h⟩ := result_bind_eq_ok.1 h
  cases h
  have hinit' := hf.field? Role.category_expression_le rfl hinit
  have hid' : Built ctx .binding n id :=
    hf.field (fun _ => Category.le_refl _) (result_field.1 hc) rfl hid
  exact .node rfl (.none rfl) rfl (List.forall_mem_cons.2 ⟨hid', Category.forall_mem_each.2 hinit'⟩)

/-- A declaration that stands for itself ends with its last token. -/
theorem variableList_built (h : (Convert.variableList ctx f n n.lastByte).result = .ok t) :
    Built ctx .variableList n t := by
  unfold Convert.variableList at h
  obtain ⟨kind, -, h⟩ := result_bind_eq_ok.1 h
  obtain ⟨ts, hts, h⟩ := result_bind_eq_ok.1 h
  cases h
  have hts' := hf.named (r := .declarator) (fun _ => Category.le_refl _) hts
  exact .node rfl (.one rfl trivial (hf.rows .named hts)) rfl (Category.forall_mem_each.2 hts')

theorem forVariableList_built
    (h : (Convert.variableList ctx f n
      ((n.named.getLast?.map Cst.lastByte).getD n.lastByte)).result = .ok t) :
    Built ctx .variableList n t := by
  unfold Convert.variableList at h
  obtain ⟨kind, -, h⟩ := result_bind_eq_ok.1 h
  obtain ⟨ts, hts, h⟩ := result_bind_eq_ok.1 h
  cases h
  obtain ⟨origin, horigin⟩ := exists_origin hf hts
  exact .variableList (hf.rows .named hts) (fun t ht => (horigin t ht).1)
    fun t ht => (horigin t ht).2

/-! ## Branches and exceptions -/

theorem branch_made (h : (Convert.branch ctx f n).result = .ok s) : Made ctx .statement n s := by
  unfold Convert.branch at h
  obtain ⟨alternate, halternate, h⟩ := result_bind_eq_ok.1 h
  obtain ⟨c, hc, h⟩ := result_bind_eq_ok.1 h
  obtain ⟨test, htest, h⟩ := result_bind_eq_ok.1 h
  obtain ⟨d, hd, h⟩ := result_bind_eq_ok.1 h
  obtain ⟨consequent, hconsequent, h⟩ := result_bind_eq_ok.1 h
  cases h
  have halternate' : ∀ t ∈ alternate.toList, Built ctx .statement n t := by
    intro t ht
    obtain rfl := Option.mem_toList.1 ht
    generalize ho : n.field? "alternative" = o at halternate
    cases result_onSome_eq_ok.1 halternate with
    | @some c _ hct =>
      refine .within (.of_field? ho rfl) ?_
      unfold Convert.alternative at hct
      split at hct
      · exact hf.first (r := .statement) (fun _ => Category.le_refl _) hct
      · exact hf.built _ _ _ hct
  have htest' := hf.field Role.category_expression_le (result_field.1 hc) rfl htest
  have hconsequent' : Built ctx .statement n consequent :=
    hf.field (fun _ => Category.le_refl _) (result_field.1 hd) rfl hconsequent
  refine ⟨rfl, .none rfl, _, rfl,
    List.forall_mem_append.2 ⟨?_, Category.forall_mem_each.2 halternate'⟩⟩
  simp [htest', hconsequent']

theorem switchCase_built (h : (Convert.switchCase ctx f n).result = .ok t) :
    Built ctx .switchCase n t := by
  unfold Convert.switchCase at h
  obtain ⟨test, htest, h⟩ := result_bind_eq_ok.1 h
  obtain ⟨ts, hts, h⟩ := result_bind_eq_ok.1 h
  cases h
  have htest' : ∀ t ∈ test.toList, Built ctx .expression n t := by
    unfold Convert.caseTest at htest
    split at htest
    case h_1 =>
      obtain ⟨c, hc, h⟩ := result_bind_eq_ok.1 htest
      obtain ⟨t, ht, h⟩ := result_bind_eq_ok.1 h
      cases h
      simpa using hf.field Role.category_expression_le (result_field.1 hc) rfl ht
    case h_2 =>
      cases htest
      exact nofun
    case h_3 => cases htest
  have hts' : ∀ t ∈ ts, Built ctx .statement n t := hf.mapM (fun _ => Category.le_refl _)
    (fun c hc => .inl (Cst.mem_parts_of_mem_fields hc)) hts
  have hrow := hf.rows (Cst.Rows.parts.sublist List.filter_sublist) hts
  exact .node rfl (.one rfl trivial hrow) rfl (List.forall_mem_append.2
    ⟨Category.forall_mem_each.2 htest', Category.forall_mem_each.2 hts'⟩)

theorem switch_made (h : (Convert.switch ctx f n).result = .ok s) : Made ctx .statement n s := by
  unfold Convert.switch at h
  obtain ⟨c, hc, h⟩ := result_bind_eq_ok.1 h
  obtain ⟨discriminant, hdiscriminant, h⟩ := result_bind_eq_ok.1 h
  obtain ⟨body, hbody, h⟩ := result_bind_eq_ok.1 h
  obtain ⟨ts, hts, h⟩ := result_bind_eq_ok.1 h
  cases h
  have hdiscriminant' := hf.field Role.category_expression_le (result_field.1 hc) rfl hdiscriminant
  have hts' : ∀ t ∈ ts, Built ctx .switchCase n t := fun t ht =>
    .within (.of_field? (result_field.1 hbody) rfl)
      (hf.named (r := .switchCase) (fun _ => Category.le_refl _) hts t ht)
  have hrow := (hf.rows .named hts).child (Cst.mem_children_of_field? (result_field.1 hbody))
  exact ⟨rfl, .one rfl trivial hrow, _, rfl, List.forall_mem_cons.2
    ⟨hdiscriminant', Category.forall_mem_each.2 hts'⟩⟩

theorem catchClause_built (h : (Convert.catchClause ctx f n).result = .ok t) :
    Built ctx .catchClause n t := by
  unfold Convert.catchClause at h
  obtain ⟨param, hparam, h⟩ := result_bind_eq_ok.1 h
  obtain ⟨c, hc, h⟩ := result_bind_eq_ok.1 h
  obtain ⟨body, hbody, h⟩ := result_bind_eq_ok.1 h
  cases h
  have hparam' := hf.field? (n := n) (r := .binding) (fun _ => Category.le_refl _)
    rfl hparam
  have hbody' : Built ctx .block n body :=
    hf.field (fun _ => Category.le_refl _) (result_field.1 hc) rfl hbody
  exact .node rfl (.none rfl) rfl (List.forall_mem_append.2
    ⟨Category.forall_mem_each.2 hparam', List.forall_mem_singleton.2 hbody'⟩)

theorem tryStatement_made (h : (Convert.tryStatement ctx f n).result = .ok s) :
    Made ctx .statement n s := by
  unfold Convert.tryStatement at h
  obtain ⟨c, hc, h⟩ := result_bind_eq_ok.1 h
  obtain ⟨body, hbody, h⟩ := result_bind_eq_ok.1 h
  obtain ⟨handler, hhandler, h⟩ := result_bind_eq_ok.1 h
  obtain ⟨last, hlast, h⟩ := result_bind_eq_ok.1 h
  cases h
  have hbody' : Built ctx .block n body :=
    hf.field (fun _ => Category.le_refl _) (result_field.1 hc) rfl hbody
  have hhandler' := hf.field? (n := n) (r := .catchClause) (fun _ => Category.le_refl _)
    rfl hhandler
  have hlast' : ∀ t ∈ last.toList, Built ctx .block n t := by
    intro t ht
    obtain rfl := Option.mem_toList.1 ht
    generalize ho : n.field? "finalizer" = o at hlast
    cases result_onSome_eq_ok.1 hlast with
    | @some c _ hct =>
      obtain ⟨d, hd, ht⟩ := result_bind_eq_ok.1 hct
      have ht' : Built ctx .block c t :=
        hf.field (fun _ => Category.le_refl _) (result_field.1 hd) rfl ht
      exact .within (.of_field? ho rfl) ht'
  exact ⟨rfl, .none rfl, _, rfl, List.forall_mem_cons.2 ⟨hbody', List.forall_mem_append.2
    ⟨Category.forall_mem_each.2 hhandler', Category.forall_mem_each.2 hlast'⟩⟩⟩

/-! ## Loops -/

theorem forPart_built (h : (Convert.forPart ctx f n).result = .ok t) :
    Built ctx (Role.forPart.category n) n t := by
  unfold Convert.forPart at h
  split at h
  case h_1 hk | h_2 hk =>
    rw [Role.category, if_pos (by simp [hk])]
    exact forVariableList_built hf h
  case h_3 hk =>
    rw [Role.category, if_neg (by simp [hk])]
    exact hf.first Role.category_expression_le h
  case h_4 hl hv _ =>
    rw [Role.category, if_neg (by rintro (hn | hn) <;> contradiction)]
    exact .widen (Role.category_expression_le n) (expression_built hf h)

theorem forLoop_built (hk : n.kind = .forStatement)
    (h : (ctx.node n <$> Convert.forLoop ctx f n).result = .ok t) :
    Built ctx .statement n t := by
  obtain ⟨s, hs, rfl⟩ := result_map_eq_ok.1 h
  unfold Convert.forLoop at hs
  obtain ⟨init, hinit, h⟩ := result_bind_eq_ok.1 hs
  obtain ⟨test, htest, h⟩ := result_bind_eq_ok.1 h
  obtain ⟨update, hupdate, h⟩ := result_bind_eq_ok.1 h
  obtain ⟨c, hc, h⟩ := result_bind_eq_ok.1 h
  obtain ⟨body, hbody, h⟩ := result_bind_eq_ok.1 h
  cases h
  have hinit' : ∀ t, init = some t → Built ctx .forInit n t := fun t ht =>
    hf.option (r := .forPart) Role.category_forPart_le
      (fun c hc => .of_field? (Option.filter_eq_some_iff.1 hc).1 rfl) hinit t
      (Option.mem_toList.2 ht)
  have hupdate' := hf.field? (n := n) Role.category_expression_le rfl hupdate
  have hbody' : Built ctx .statement n body :=
    hf.field (fun _ => Category.le_refl _) (result_field.1 hc) rfl hbody
  dsimp only at htest
  generalize ho : (n.field? "condition").filter (!·.isEmptyPart) = o at htest
  cases result_onSome_eq_ok.1 htest with
  | none =>
    exact .forLoop n hk hinit' nofun nofun
      (fun t ht => hupdate' t (Option.mem_toList.2 ht)) hbody'
  | @some condition test hct =>
    refine .forLoop condition hk hinit' ?_ ?_
      (fun t ht => hupdate' t (Option.mem_toList.2 ht)) hbody'
    · exact fun _ _ => (Option.filter_eq_some_iff.1 ho).1
    · rintro t ht
      exact Option.some.inj ht ▸ hf.built _ _ _ hct

theorem loopTarget_built {name : Cst} (hk : n.kind = .forInStatement)
    (hname : n.field? "left" = some name)
    (h : (Convert.loopTarget ctx f n name).result = .ok t) : Built ctx .forTarget n t := by
  unfold Convert.loopTarget at h
  split at h
  case h_2 =>
    have ht : Built ctx .target n t := hf.field (fun _ => Category.le_refl _) hname rfl h
    exact .widen (Category.le_of_contains rfl) ht
  case h_1 keyword hkeyword =>
    refine .widen (Category.le_of_contains rfl : Category.variableList ≤ _) ?_
    unfold Convert.loopVariable at h
    obtain ⟨kind, -, h⟩ := result_bind_eq_ok.1 h
    obtain ⟨init, hinit, h⟩ := result_bind_eq_ok.1 h
    obtain ⟨id, hid, h⟩ := result_bind_eq_ok.1 h
    cases h
    have hid' : Built ctx .binding name id := hf.built _ _ _ hid
    refine .loopVariable hk hkeyword hname rfl hid' ?_ ?_
    · rintro t rfl
      cases ho : n.field? "value" with
      | none => simp [ho, Outcome.onSome] at hinit
      | some c => exact ⟨c, rfl⟩
    · rintro t rfl
      generalize n.field? "value" = o at hinit
      cases result_onSome_eq_ok.1 hinit with
      | some hct => exact .widen (Role.category_expression_le _) (hf.built _ _ _ hct)

/-- What a loop assigns to is a declaration, or it comes from the target in the head of the loop. -/
theorem loopTarget_yields {name : Cst} (h : (Convert.loopTarget ctx f n name).result = .ok t)
    (ht : t.typeName ≠ "VariableDeclaration") : ctx.Yields name t := by
  unfold Convert.loopTarget at h
  split at h
  case h_1 =>
    unfold Convert.loopVariable at h
    obtain ⟨kind, -, h⟩ := result_bind_eq_ok.1 h
    obtain ⟨init, -, h⟩ := result_bind_eq_ok.1 h
    obtain ⟨id, -, h⟩ := result_bind_eq_ok.1 h
    cases h
    exact absurd rfl ht
  case h_2 => exact hf.yields name t h

theorem loopOver_made (hk : n.kind = .forInStatement)
    (h : (Convert.loopOver ctx f n).result = .ok s) : Made ctx .statement n s := by
  unfold Convert.loopOver at h
  obtain ⟨name, hname, h⟩ := result_bind_eq_ok.1 h
  obtain ⟨left, hleft, h⟩ := result_bind_eq_ok.1 h
  obtain ⟨c, hc, h⟩ := result_bind_eq_ok.1 h
  obtain ⟨right, hright, h⟩ := result_bind_eq_ok.1 h
  obtain ⟨d, hd, h⟩ := result_bind_eq_ok.1 h
  obtain ⟨body, hbody, h⟩ := result_bind_eq_ok.1 h
  obtain ⟨op, -, h⟩ := result_bind_eq_ok.1 h
  have hleft' := loopTarget_built hf hk (result_field.1 hname) hleft
  have hright' := hf.field Role.category_expression_le (result_field.1 hc) rfl hright
  have hbody' : Built ctx .statement n body :=
    hf.field (fun _ => Category.le_refl _) (result_field.1 hd) rfl hbody
  have hassigns : ctx.Assigns n (.forInStatement left right body) := by
    intro u hu
    obtain ⟨hne, hu⟩ := Option.ite_none_left_eq_some.1 hu
    obtain rfl := Option.some.inj hu
    exact ⟨name, result_field.1 hname, loopTarget_yields hf hleft hne⟩
  split at h <;> cases h
  · exact ⟨rfl, ⟨.none rfl, hassigns, .of_none rfl⟩, _, rfl, by simp [hleft', hright', hbody']⟩
  · exact ⟨rfl, ⟨.none rfl, hassigns, .of_none rfl⟩, _, rfl, by simp [hleft', hright', hbody']⟩

/-- A statement of an expression and a body, in the order in which its fields are looked up. -/
theorem headBody_built {head : String} (hhead : Cst.fieldNames.contains head) {e b : Cst}
    {test body : Tree μ} (he : n.field? head = some e) (htest : (f .expression e).result = .ok test)
    (hb : n.field? "body" = some b) (hbody : (f .statement b).result = .ok body) :
    Built ctx .expression n test ∧ Built ctx .statement n body :=
  ⟨hf.field Role.category_expression_le he hhead htest,
    hf.field (fun _ => Category.le_refl _) hb rfl hbody⟩

theorem whileLoop_made (h : (Convert.whileLoop ctx f n).result = .ok s) :
    Made ctx .statement n s := by
  unfold Convert.whileLoop at h
  obtain ⟨c, hc, h⟩ := result_bind_eq_ok.1 h
  obtain ⟨test, htest, h⟩ := result_bind_eq_ok.1 h
  obtain ⟨d, hd, h⟩ := result_bind_eq_ok.1 h
  obtain ⟨body, hbody, h⟩ := result_bind_eq_ok.1 h
  cases h
  obtain ⟨htest', hbody'⟩ := headBody_built hf rfl (result_field.1 hc) htest
    (result_field.1 hd) hbody
  exact ⟨rfl, .none rfl, _, rfl, by simp [htest', hbody']⟩

theorem doLoop_made (h : (Convert.doLoop ctx f n).result = .ok s) : Made ctx .statement n s := by
  unfold Convert.doLoop at h
  obtain ⟨c, hc, h⟩ := result_bind_eq_ok.1 h
  obtain ⟨body, hbody, h⟩ := result_bind_eq_ok.1 h
  obtain ⟨d, hd, h⟩ := result_bind_eq_ok.1 h
  obtain ⟨test, htest, h⟩ := result_bind_eq_ok.1 h
  cases h
  obtain ⟨htest', hbody'⟩ := headBody_built hf rfl (result_field.1 hd) htest
    (result_field.1 hc) hbody
  exact ⟨rfl, .none rfl, _, rfl, by simp [htest', hbody']⟩

/-! ## Other statements -/

theorem withStatement_made (h : (Convert.withStatement ctx f n).result = .ok s) :
    Made ctx .statement n s := by
  unfold Convert.withStatement at h
  obtain ⟨c, hc, h⟩ := result_bind_eq_ok.1 h
  obtain ⟨object, hobject, h⟩ := result_bind_eq_ok.1 h
  obtain ⟨d, hd, h⟩ := result_bind_eq_ok.1 h
  obtain ⟨body, hbody, h⟩ := result_bind_eq_ok.1 h
  cases h
  obtain ⟨hobject', hbody'⟩ := headBody_built hf rfl (result_field.1 hc) hobject
    (result_field.1 hd) hbody
  exact ⟨rfl, .none rfl, _, rfl, by simp [hobject', hbody']⟩

theorem labeled_made (hk : n.kind = .labeledStatement)
    (h : (Convert.labeled ctx f n).result = .ok s) : Made ctx .statement n s := by
  unfold Convert.labeled at h
  obtain ⟨label, hlabel, h⟩ := result_bind_eq_ok.1 h
  obtain ⟨c, hc, h⟩ := result_bind_eq_ok.1 h
  obtain ⟨body, hbody, h⟩ := result_bind_eq_ok.1 h
  cases h
  have hfield : (n.kind, "label") ∈ Cst.trustedFields := hk ▸ by decide
  have hlabel' : Built ctx .identifier n (ctx.identifier label) :=
    .trusted (.field hfield (result_field.1 hlabel))
  have hbody' : Built ctx .statement n body :=
    hf.field (fun _ => Category.le_refl _) (result_field.1 hc) rfl hbody
  exact ⟨rfl, .none rfl, _, rfl, by simp [hlabel', hbody']⟩

theorem statement_built (h : (Convert.statement ctx f n).result = .ok t) :
    Built ctx .statement n t := by
  unfold Convert.statement at h
  split at h
  case h_1 => exact .widen (Category.le_of_contains rfl) (block_built hf h)
  case h_2 | h_3 =>
    exact .widen (Category.le_of_contains rfl) (variableList_built hf h)
  case h_4 hk | h_5 hk =>
    exact function_built hf (.inr ⟨rfl, rfl⟩) (fun _ => hk ▸ by decide) h
  case h_6 hk => exact classLike_built hf rfl (hk ▸ by decide) h
  case h_8 | h_9 =>
    cases h
    exact .node rfl (.none rfl) rfl nofun
  case h_10 => exact Made.map (fun s => branch_made hf) h
  case h_11 => exact Made.map (fun s => switch_made hf) h
  case h_12 => exact Made.map (fun s => tryStatement_made hf) h
  case h_13 => exact Made.map (fun s => whileLoop_made hf) h
  case h_14 => exact Made.map (fun s => doLoop_made hf) h
  case h_15 hk => exact forLoop_built hf hk h
  case h_16 hk => exact Made.map (fun s => loopOver_made hf hk) h
  case h_17 => exact Made.map (fun s => withStatement_made hf) h
  case h_18 hk | h_19 hk =>
    cases h
    have hfield : (n.kind, "label") ∈ Cst.trustedFields := hk ▸ by decide
    exact .node rfl (.none rfl) rfl (Category.forall_mem_each.2 (Built.fieldIdentifier hfield))
  case h_20 =>
    obtain ⟨argument, hargument, h⟩ := result_bind_eq_ok.1 h
    cases h
    exact .node rfl (.none rfl) rfl
      (Category.forall_mem_each.2 (optionalExpression_built hf hargument))
  case h_7 | h_21 =>
    obtain ⟨c, hc, h⟩ := result_bind_eq_ok.1 h
    obtain ⟨t, ht, h⟩ := result_bind_eq_ok.1 h
    cases h
    have ht' := hf.sees Role.category_expression_le (.of_head?_named (result_firstNamed.1 hc)) ht
    exact .node rfl (.none rfl) rfl (by simp [ht'])
  case h_22 hk => exact Made.map (fun s => labeled_made hf hk) h
  case h_23 => cases h

/-! ## Imports and exports -/

section
omit hf

theorem moduleSource_built (h : (Convert.moduleSource ctx n).result = .ok t) :
    Built ctx .literal n t := by
  obtain ⟨_, -, h⟩ := result_bind_eq_ok.1 h
  exact literal_built h

/-- What is imported or exported is named by a string, by a plain name, or by a keyword. -/
theorem exportName_built (hc : n.Sees c) (hkeyword : c.isToken "default" → n.Trusts c)
    (h : (Convert.exportName ctx c).result = .ok t) : Built ctx .exportName n t := by
  unfold Convert.exportName at h
  split at h
  case isTrue => exact .within hc (literal_built_le rfl h)
  case isFalse =>
  split at h
  case isTrue hname =>
    cases h
    rcases Bool.or_eq_true_iff.1 hname with hk | htoken
    · exact .within hc (.identifier_le rfl hk)
    · exact .trusted_le rfl (hkeyword htoken)
  case isFalse => cases h

theorem specifierName_built {name : String} (hname : (n.kind, name) ∈ Cst.keywordFields)
    (hc : n.field? name = some c) (h : (Convert.exportName ctx c).result = .ok t) :
    Built ctx .exportName n t :=
  exportName_built (.of_keywordFields hname hc) (.keyword hname hc) h

theorem importSpecifier_built (h : (Convert.importSpecifier ctx n).result = .ok t) :
    Built ctx .importSpecifier n t := by
  unfold Convert.importSpecifier at h
  obtain ⟨_, hk, h⟩ := result_bind_eq_ok.1 h
  obtain ⟨c, hc, h⟩ := result_bind_eq_ok.1 h
  obtain ⟨imported, himported, h⟩ := result_bind_eq_ok.1 h
  cases h
  have hk := result_expect.1 hk
  have himported' : Built ctx .exportName n imported :=
    specifierName_built (hk ▸ by decide) (result_field.1 hc) himported
  have hlocal : Built ctx .exportName n
      (((n.field? "alias").map ctx.identifier).getD imported) := by
    cases ho : n.field? "alias" with
    | none => exact himported'
    | some c =>
      have halias : (n.kind, "alias") ∈ Cst.trustedFields := hk ▸ by decide
      exact .trusted_le rfl (.field halias ho)
  exact .node rfl (.none rfl) rfl (by simp [himported', hlocal])

theorem importBinding_built {ts : List (Tree μ)}
    (h : (Convert.importBinding ctx n).result = .ok ts) :
    ∀ t ∈ ts, Built ctx .importSpecifier n t := by
  unfold Convert.importBinding at h
  split at h
  case h_1 hk =>
    cases h
    refine List.forall_mem_singleton.2 (.node rfl (.none rfl) rfl ?_)
    simpa using Built.identifier (by simp [hk, Kind.isIdentifier])
  case h_2 hk =>
    obtain ⟨c, hc, h⟩ := result_bind_eq_ok.1 h
    cases h
    refine List.forall_mem_singleton.2 (.node rfl (.none rfl) rfl ?_)
    simpa using Built.trusted (.star hk (result_firstNamed.1 hc))
  case h_3 =>
    intro t ht
    obtain ⟨c, hc, hct⟩ := exists_of_mem_mapM h ht
    exact .within (.of_mem_named hc) (importSpecifier_built hct)
  case h_4 => cases h

theorem importBinding_rows {ts : List (Tree μ)}
    (h : (Convert.importBinding ctx n).result = .ok ts) : n.Rows ctx.LiesIn ts := by
  have hbuilt := importBinding_built h
  unfold Convert.importBinding at h
  split at h
  case h_1 =>
    cases h
    exact .singleton (hbuilt _ List.mem_cons_self).liesIn
  case h_2 =>
    obtain ⟨c, -, h⟩ := result_bind_eq_ok.1 h
    cases h
    exact .singleton (hbuilt _ List.mem_cons_self).liesIn
  case h_3 => exact Cst.Rows.named.mapM (fun c t ht => ⟨_, importSpecifier_built ht⟩) h
  case h_4 => cases h

theorem importPart_built {ts : List (Tree μ)} (h : (Convert.importPart ctx n).result = .ok ts) :
    ∀ t ∈ ts, Built ctx .importSpecifier n t := by
  unfold Convert.importPart at h
  split at h
  case h_1 =>
    obtain ⟨tss, htss, h⟩ := result_bind_eq_ok.1 h
    cases h
    intro t ht
    obtain ⟨us, hus, ht⟩ := List.mem_flatten.1 ht
    obtain ⟨c, hc, hcus⟩ := exists_of_mem_mapM htss hus
    exact .within (.of_mem_named hc) (importBinding_built hcus t ht)
  case h_2 =>
    cases h
    exact nofun
  case h_3 => cases h

theorem importPart_rows {ts : List (Tree μ)} (h : (Convert.importPart ctx n).result = .ok ts) :
    n.Rows ctx.LiesIn ts := by
  unfold Convert.importPart at h
  split at h
  case h_1 =>
    obtain ⟨tss, htss, h⟩ := result_bind_eq_ok.1 h
    cases h
    exact Cst.Rows.named.flatten ((result_mapM_eq_ok.1 htss).imp fun _ _ => importBinding_rows)
  case h_2 =>
    cases h
    exact .nil
  case h_3 => cases h

theorem importDeclaration_built (h : (Convert.importDeclaration ctx n).result = .ok t) :
    Built ctx .moduleItem n t := by
  unfold Convert.importDeclaration at h
  obtain ⟨_, -, h⟩ := result_bind_eq_ok.1 h
  obtain ⟨c, hc, h⟩ := result_bind_eq_ok.1 h
  obtain ⟨source, hsource, h⟩ := result_bind_eq_ok.1 h
  obtain ⟨tss, htss, h⟩ := result_bind_eq_ok.1 h
  cases h
  have hsource' : Built ctx .literal n source :=
    .within (.of_field? (result_field.1 hc) rfl) (moduleSource_built hsource)
  have hspecifiers : ∀ t ∈ tss.flatten, Built ctx .importSpecifier n t := by
    intro t ht
    obtain ⟨us, hus, ht⟩ := List.mem_flatten.1 ht
    obtain ⟨c, hc, hcus⟩ := exists_of_mem_mapM htss hus
    exact .within (.of_mem_named hc) (importPart_built hcus t ht)
  have hrow : n.Rows ctx.LiesIn tss.flatten :=
    Cst.Rows.named.flatten ((result_mapM_eq_ok.1 htss).imp fun _ _ => importPart_rows)
  exact .node rfl (.one rfl trivial hrow) rfl (List.forall_mem_append.2
    ⟨Category.forall_mem_each.2 hspecifiers, List.forall_mem_singleton.2 hsource'⟩)

theorem exportSpecifier_built (h : (Convert.exportSpecifier ctx n).result = .ok t) :
    Built ctx .exportSpecifier n t := by
  unfold Convert.exportSpecifier at h
  obtain ⟨_, hk, h⟩ := result_bind_eq_ok.1 h
  obtain ⟨c, hc, h⟩ := result_bind_eq_ok.1 h
  obtain ⟨name, hname, h⟩ := result_bind_eq_ok.1 h
  obtain ⟨outer, houter, h⟩ := result_bind_eq_ok.1 h
  cases h
  have hk := result_expect.1 hk
  have hname' : Built ctx .exportName n name :=
    specifierName_built (hk ▸ by decide) (result_field.1 hc) hname
  have houter' : Built ctx .exportName n (outer.getD name) := by
    generalize ho : n.field? "alias" = o at houter
    cases result_onSome_eq_ok.1 houter with
    | none => exact hname'
    | some hct => exact specifierName_built (hk ▸ by decide) ho hct
  exact .node rfl (.none rfl) rfl (by simp [hname', houter'])

theorem exportNames_made (h : (Convert.exportNames ctx n).result = .ok s) :
    Made ctx .moduleItem n s := by
  unfold Convert.exportNames at h
  obtain ⟨_, -, h⟩ := result_bind_eq_ok.1 h
  obtain ⟨source, hsource, h⟩ := result_bind_eq_ok.1 h
  have hsource' : ∀ t ∈ source.toList, Built ctx .literal n t := by
    intro t ht
    obtain rfl := Option.mem_toList.1 ht
    generalize ho : n.field? "source" = o at hsource
    cases result_onSome_eq_ok.1 hsource with
    | some hct => exact .within (.of_field? ho rfl) (moduleSource_built hct)
  clear hsource
  dsimp only at h
  split at h
  case h_1 _ _ _ clause hclause =>
    have hsees : n.Sees clause := .of_mem_named (List.mem_of_find?_eq_some hclause)
    split at h
    case isTrue =>
      obtain ⟨ts, hts, h⟩ := result_bind_eq_ok.1 h
      cases h
      have hts' : ∀ t ∈ ts, Built ctx .exportSpecifier n t := by
        intro t ht
        obtain ⟨c, hc, hct⟩ := exists_of_mem_mapM hts ht
        exact .within hsees (.within (.of_mem_named hc) (exportSpecifier_built hct))
      have hrow := (Cst.Rows.named.mapM (fun c t ht => ⟨_, exportSpecifier_built ht⟩) hts).child
        hsees.mem_children
      exact ⟨rfl, .one rfl trivial hrow, _, rfl, List.forall_mem_append.2
        ⟨Category.forall_mem_each.2 hts', Category.forall_mem_each.2 hsource'⟩⟩
    case isFalse =>
      split at h
      · obtain ⟨c, hc, h⟩ := result_bind_eq_ok.1 h
        obtain ⟨exported, hexported, h⟩ := result_bind_eq_ok.1 h
        cases h
        have hc := result_firstNamed.1 hc
        have hnamed : c.head.isNamed := (List.mem_filter.1 (List.mem_of_head? hc)).2
        have hkeyword : ¬ c.isToken "default" := by simp [Cst.isToken, hnamed]
        have hexported' : Built ctx .exportName n exported := .within hsees
          (exportName_built (.of_head?_named hc) (fun htoken => absurd htoken hkeyword) hexported)
        exact ⟨rfl, .none rfl, _, rfl, by simpa [Category.each, hexported'] using hsource'⟩
      · cases h
  case h_2 =>
    split at h
    · cases h
      exact ⟨rfl, .none rfl, _, rfl, by simpa [Category.each] using hsource'⟩
    · cases h
  case h_3 => cases h

end

theorem exportDeclaration_built (h : (Convert.exportDeclaration ctx f n).result = .ok t) :
    Built ctx .moduleItem n t := by
  unfold Convert.exportDeclaration at h
  obtain ⟨_, -, h⟩ := result_bind_eq_ok.1 h
  obtain ⟨s, hs, h⟩ := result_bind_eq_ok.1 h
  cases h
  refine Made.built ?_
  unfold Convert.exportShape at hs
  split at hs
  case h_1 declaration hdeclaration =>
    obtain ⟨d, hd, hs⟩ := result_bind_eq_ok.1 hs
    cases hs
    have hd' : Built ctx .statement n d :=
      hf.field (fun _ => Category.le_refl _) hdeclaration rfl hd
    split
    · have hdefault : Built ctx .defaultExport n d :=
        .widen (Category.le_of_contains rfl) hd'
      exact ⟨rfl, .none rfl, _, rfl, by simp [hdefault]⟩
    · exact ⟨rfl, .one rfl trivial .nil, _, rfl, by simp [Category.each, hd']⟩
  case h_2 value _ hvalue =>
    obtain ⟨e, he, hs⟩ := result_bind_eq_ok.1 hs
    cases hs
    have he' : Built ctx .defaultExport n e := .widen (Category.le_of_contains rfl)
      (hf.field Role.category_expression_le hvalue rfl he)
    exact ⟨rfl, .none rfl, _, rfl, by simp [he']⟩
  case h_3 =>
    split at hs
    case isTrue =>
      obtain ⟨c, hc, hs⟩ := result_bind_eq_ok.1 hs
      obtain ⟨e, he, hs⟩ := result_bind_eq_ok.1 hs
      cases hs
      have he' : Built ctx .defaultExport n e := .widen (Category.le_of_contains rfl)
        (hf.sees Role.category_expression_le (.of_head?_named (result_firstNamed.1 hc)) he)
      exact ⟨rfl, .none rfl, _, rfl, by simp [he']⟩
    case isFalse => exact exportNames_made hs

theorem moduleItem_built (h : (Convert.moduleItem ctx f n).result = .ok t) :
    Built ctx .moduleItem n t := by
  unfold Convert.moduleItem at h
  split at h
  · exact exportDeclaration_built hf h
  · exact importDeclaration_built h
  · exact .widen (Category.le_of_contains rfl) (statement_built hf h)

/-! ## All roles -/

/-- A rule only builds what may be built if its converter does. -/
theorem rule_built (role : Role) (h : (Convert.rule ctx f role c).result = .ok t) :
    Built ctx (role.category c) c t := by
  cases role with
  | moduleItem => exact moduleItem_built hf h
  | statement => exact statement_built hf h
  | block => exact block_built hf h
  | forPart => exact forPart_built hf h
  | declarator => exact declarator_built hf h
  | switchCase => exact switchCase_built hf h
  | catchClause => exact catchClause_built hf h
  | expression => exact expression_built hf h
  | objectMember => exact objectMember_built hf h
  | propertyKey => exact propertyKey_built hf h
  | parameter => exact parameter_built hf h
  | classMember => exact classMember_built hf h
  | binding => exact binding_built hf h
  | bindingMember => exact bindingMember_built hf h
  | target => exact target_built hf (expression_built hf) h
  | targetMember => exact targetMember_built hf h

theorem rule_sound : Sound ctx (Convert.rule ctx f) where
  built role _ _ h := rule_built hf role h
  yields _ _ h := Convert.target_yields hf.yields h

end

namespace Convert

theorem run_sound (levels : Nat) : Sound ctx (run ctx levels) := by
  induction levels with
  | zero =>
    constructor
    case built => exact fun _ _ _ h => nomatch h
    case yields => exact fun _ _ h => nomatch h
  | succ levels ih => exact rule_sound ih

/-- A conversion only builds what may be built. -/
theorem convert_sound : Sound ctx (convert ctx) where
  built role c t h := (run_sound c.height).built role c t h
  yields c t h := (run_sound c.height).yields c t h

/-- The program that a conversion builds covers the whole text, and its items are built from named
children of the root, one after the other. -/
theorem program_items (h : (program ctx n).result = .ok t) :
    ∃ body, t = ctx.nodeAt n 0 ctx.source.size (.program body ctx.sourceType) ∧
      (∀ u ∈ body, ∃ c ∈ n.named, Built ctx .moduleItem c u) ∧ n.Rows ctx.LiesIn body := by
  unfold program at h
  obtain ⟨_, -, h⟩ := result_bind_eq_ok.1 h
  obtain ⟨body, hbody, h⟩ := result_bind_eq_ok.1 h
  cases h
  refine ⟨body, rfl, fun u hu => ?_, convert_sound.rows (.sublist .named List.filter_sublist) hbody⟩
  obtain ⟨c, hc, hcu⟩ := exists_of_mem_mapM hbody hu
  exact ⟨c, List.mem_of_mem_filter hc, convert_sound.built .moduleItem c u hcu⟩

/-- The nodes of the program that a conversion builds stem from its syntax. -/
theorem program_allStem {Q : Cst → Prop} (h : (program ctx n).result = .ok t)
    (hn : n.Everywhere Q) : ctx.AllStem Q t := by
  obtain ⟨body, rfl, hbody, hrow⟩ := program_items h
  refine .node hn (.nameless rfl (.one rfl trivial hrow)) fun u hu => ?_
  have hu : u ∈ body := by simpa using hu
  obtain ⟨c, hc, hcu⟩ := hbody u hu
  exact hcu.allStem (hn.named hc)

/-- The items of the program that a conversion builds are built from the root. -/
theorem program_built (h : (program ctx n).result = .ok t) :
    ∃ body, t = ctx.nodeAt n 0 ctx.source.size (.program body ctx.sourceType) ∧
      ∀ u ∈ body, Built ctx .moduleItem n u := by
  obtain ⟨body, ht, hbody, -⟩ := program_items h
  refine ⟨body, ht, fun u hu => ?_⟩
  obtain ⟨c, hc, hcu⟩ := hbody u hu
  exact .within (.of_mem_named hc) hcu

end Convert

theorem Report.exists_node (report : Report) (h : report.result.isOk) :
    ∃ node, report.result = .ok node := by
  cases hr : report.result with
  | error => simp [hr, Except.isOk, Except.toBool] at h
  | ok node => exact ⟨node, rfl⟩

end Estree
