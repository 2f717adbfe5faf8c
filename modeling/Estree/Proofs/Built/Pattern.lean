import Estree.Proofs.Built.Basic

/-!
# What literals, templates and patterns are built from
-/

namespace Estree

open Outcome Context

variable {μ : Type} {ctx : Context μ} {cat : Category} {n c : Cst} {t : Tree μ}
  {s : Shape (Tree μ)}

/-! ## Literals and templates -/

theorem regexLiteral_built (h : (Convert.regexLiteral ctx n).result = .ok t) :
    Built ctx .literal n t := by
  unfold Convert.regexLiteral at h
  obtain ⟨pattern, -, h⟩ := result_bind_eq_ok.1 h
  dsimp only at h
  split at h
  · cases h
    exact .literal
  · obtain ⟨_, -, h⟩ := result_bind_eq_ok.1 h
    cases h
    exact .literal

theorem literal_built (h : (Convert.literal ctx n).result = .ok t) : Built ctx .literal n t := by
  unfold Convert.literal at h
  split at h
  case h_1 | h_2 | h_3 =>
    cases h
    exact .literal
  case h_4 =>
    split at h <;> cases h
    exact .literal
  case h_5 =>
    cases h
    exact .literal
  case h_6 => exact regexLiteral_built h
  case h_7 => cases h

theorem literal_built_le (hcat : Category.inclusions.contains (Category.literal, cat))
    (h : (Convert.literal ctx n).result = .ok t) : Built ctx cat n t :=
  .widen (Category.le_of_contains hcat) (literal_built h)

section
variable {f : Converter μ} (hf : Sound ctx f)
include hf

omit hf in
/-- The parts of the text of a template are made from its gaps. -/
theorem templateElements_gaps (n : Cst) :
    List.Forall₂ (fun gap t => ∃ tail, t = Convert.templateElement ctx n tail gap) n.gaps
      (n.gaps.dropLast.map (Convert.templateElement ctx n false)
        ++ n.gaps.getLast?.toList.map (Convert.templateElement ctx n true)) := by
  rcases List.eq_nil_or_concat n.gaps with h | ⟨init, last, h⟩
  · rw [h]
    exact .nil
  · rw [h, List.concat_eq_append, List.dropLast_concat, List.getLast?_concat]
    have hinit : List.Forall₂ (fun gap t => ∃ tail, t = Convert.templateElement ctx n tail gap) init
        (init.map (Convert.templateElement ctx n false)) :=
      List.forall₂_map_right_iff.2 (List.forall₂_same.2 fun _ _ => ⟨false, rfl⟩)
    exact List.rel_append hinit (.cons ⟨true, rfl⟩ .nil)

/-- The parts of a template and its expressions, in turn, stand in a row. -/
theorem template_rows {expressions : List (Tree μ)} (hk : n.kind = .templateString)
    (h : (n.substitutions.mapM fun c => do f .expression (← ctx.firstNamed c)).result
      = .ok expressions) :
    n.Rows ctx.LiesIn (weave (n.gaps.dropLast.map (Convert.templateElement ctx n false)
      ++ n.gaps.getLast?.toList.map (Convert.templateElement ctx n true)) expressions) := by
  intro hn
  have hlt := (hn.root.template hk).start_lt hn.root.toNests
  have hsub : n.substitutions.Sublist n.parts := List.filter_sublist.trans List.filter_sublist
  refine Cst.row_weave (Cst.Rows.parts.sublist hsub hn) (Nat.le_succ _) hlt (Nat.sub_le _ 1) ?_ ?_
  · refine (templateElements_gaps n).imp fun gap t ⟨tail, ht⟩ x y hx hy => ?_
    rw [ht]
    exact .nodeAt hx hy
  · refine (result_mapM_eq_ok.1 h).imp fun c t hct x y hc => ?_
    have ht : Built ctx .expression c t := hf.first Role.category_expression_le hct
    exact (ht.liesIn hc.arranged).mono hc.start hc.stop

theorem template_built (hk : n.kind = .templateString)
    (h : (Convert.template ctx f n).result = .ok t) : Built ctx .template n t := by
  unfold Convert.template at h
  obtain ⟨expressions, hexpressions, h⟩ := result_bind_eq_ok.1 h
  cases h
  have hlength := calc
    _ = n.gaps.length := (@templateElements_gaps μ ctx n).length_eq.symm
    _ = n.substitutions.length + 1 := Cst.length_gapsFrom ..
    _ = expressions.length + 1 := congrArg (· + 1) (result_mapM_eq_ok.1 hexpressions).length_eq
  refine .node rfl (.one rfl hlength (template_rows hf hk hexpressions)) rfl ?_
  simp only [List.forall_mem_append, Category.forall_mem_each]
  refine ⟨⟨?_, ?_⟩, ?_⟩
  · intro t ht
    obtain ⟨extent, hextent, rfl⟩ := List.mem_map.1 ht
    exact .templateElement hk (List.dropLast_subset _ hextent)
  · intro t ht
    obtain ⟨extent, hextent, rfl⟩ := List.mem_map.1 ht
    exact .templateElement hk (List.mem_of_getLast? (Option.mem_toList.1 hextent))
  · intro t ht
    obtain ⟨c, hc, hct⟩ := exists_of_mem_mapM hexpressions ht
    have hsub : c ∈ n.named := List.mem_of_mem_filter hc
    exact .within (.of_mem_named hsub) (hf.first Role.category_expression_le hct)

/-! ## Parts of patterns -/

theorem elements_built {role : Role} (hcat : ∀ c, role.category c ≤ cat)
    {os : List (Option (Tree μ))} (h : (Convert.elements f role n).result = .ok os) :
    ∀ t ∈ os.filterMap id, Built ctx cat n t := by
  intro t ht
  obtain ⟨_, ho, rfl⟩ := List.mem_filterMap.1 ht
  obtain ⟨slot, hslot, ht⟩ := exists_of_mem_mapM h ho
  cases result_onSome_eq_ok.1 ht with
  | some hct => exact hf.sees hcat (.inl (Cst.mem_parts_of_mem_slots hslot)) hct

theorem elements_rows {role : Role} {os : List (Option (Tree μ))}
    (h : (Convert.elements f role n).result = .ok os) : n.Rows ctx.LiesIn (os.filterMap id) := by
  have hnamed : n.slots.filterMap id = n.named := Cst.filterMap_slotsOf true n.parts
  have hslots : List.Forall₂ (Option.Rel fun c t => (f role c).result = .ok t) n.slots os :=
    (result_mapM_eq_ok.1 h).imp fun _ _ => result_onSome_eq_ok.1
  have hos : List.Forall₂ (fun c t => (f role c).result = .ok t) (n.slots.filterMap id)
      (os.filterMap id) := List.rel_filterMap (fun _ _ h => h) hslots
  rw [hnamed] at hos
  exact hf.rows .named (result_mapM_eq_ok.2 hos)

omit hf in
theorem isComputed_eq_false (hk : n.kind.isIdentifier) : Convert.isComputed n = false := by
  unfold Convert.isComputed
  refine beq_false_of_ne fun hn => ?_
  rw [hn] at hk
  cases hk

theorem propertyKey_built (h : (Convert.propertyKey ctx f n).result = .ok t) :
    Built ctx (Role.propertyKey.category n) n t := by
  unfold Convert.propertyKey at h
  split at h
  case isTrue hk =>
    cases h
    rw [Role.category, isComputed_eq_false hk]
    exact .identifier_le rfl hk
  case isFalse =>
    split at h
    case h_1 hk =>
      have hexpression := hf.first (n := n) Role.category_expression_le h
      simpa [Role.category, Convert.isComputed, hk, Category.key] using hexpression
    case h_2 hk =>
      cases h
      have hname : Built ctx .propertyName n (ctx.privateIdentifier n) :=
        .privateIdentifier_le rfl hk
      simpa [Role.category, Convert.isComputed, hk, Category.key] using hname
    case h_3 hk | h_4 hk =>
      have hliteral : Built ctx .propertyName n t := literal_built_le rfl h
      simpa [Role.category, Convert.isComputed, hk, Category.key] using hliteral
    case h_5 => cases h

/-- A property with a name and a value, in whatever category such a property is. -/
theorem pairProperty_made {role : Role} {value : Category} (hcat : ∀ c, role.category c ≤ value)
    (hparts : ∀ (name val : Tree μ) computed,
      cat.parts? (Convert.plainProperty name val false computed)
        = some [(Category.key computed, name), (value, val)])
    (h : (Convert.pairProperty ctx f role n).result = .ok s) : Made ctx cat n s := by
  unfold Convert.pairProperty at h
  obtain ⟨name, hname, h⟩ := result_bind_eq_ok.1 h
  obtain ⟨key, hkey, h⟩ := result_bind_eq_ok.1 h
  obtain ⟨c, hc, h⟩ := result_bind_eq_ok.1 h
  obtain ⟨val, hval, h⟩ := result_bind_eq_ok.1 h
  cases h
  have hname' := Cst.Sees.of_field? (result_field.1 hname) rfl
  have hkey' : Built ctx (.key (Convert.isComputed name)) n key := .within hname' (hf.built _ _ _ hkey)
  have hval' := hf.field hcat (result_field.1 hc) rfl hval
  exact ⟨rfl, .none rfl, _, hparts .., by simp [hkey', hval']⟩

omit hf in
theorem shorthandProperty_made {key value : Category} (hk : n.kind.isIdentifier)
    (hkey : Category.inclusions.contains (Category.identifier, key))
    (hvalue : Category.inclusions.contains (Category.identifier, value))
    (hparts : ∀ t : Tree μ, cat.parts? (Convert.plainProperty t t true false)
      = some [(key, t), (value, t)]) :
    Made ctx cat n (Convert.shorthandProperty ctx n) :=
  ⟨rfl, .none rfl, _, hparts _,
    by simp [Built.identifier_le hkey hk, Built.identifier_le hvalue hk]⟩

theorem defaultedProperty_made {role : Role} {pattern : Category}
    (hcat : ∀ c, role.category c ≤ pattern)
    (hparts : ∀ name val : Tree μ, cat.parts? (Convert.plainProperty name val true false)
      = some [(pattern, name), (pattern, val)])
    (hdefault : ∀ left right : Tree μ, pattern.parts? (.assignmentPattern left right)
      = some [(pattern, left), (.expression, right)])
    (h : (Convert.defaultedProperty ctx f role n).result = .ok s) : Made ctx cat n s := by
  unfold Convert.defaultedProperty at h
  obtain ⟨c, hc, h⟩ := result_bind_eq_ok.1 h
  obtain ⟨left, hleft, h⟩ := result_bind_eq_ok.1 h
  obtain ⟨d, hd, h⟩ := result_bind_eq_ok.1 h
  obtain ⟨right, hright, h⟩ := result_bind_eq_ok.1 h
  cases h
  have hleft' := hf.field hcat (result_field.1 hc) rfl hleft
  have hright' := hf.field Role.category_expression_le (result_field.1 hd) rfl hright
  have hvalue : Built ctx pattern n (ctx.node n (.assignmentPattern left right)) :=
    .node rfl (.none rfl) (hdefault ..) (by simp [hleft', hright'])
  exact ⟨rfl, .none rfl, _, hparts .., by simp [hleft', hvalue]⟩

theorem defaulted_made {role : Role} {pattern : Category} (hcat : ∀ c, role.category c ≤ pattern)
    (hparts : ∀ left right : Tree μ, pattern.parts? (.assignmentPattern left right)
      = some [(pattern, left), (.expression, right)])
    (h : (Convert.defaulted ctx f role n).result = .ok s) : Made ctx pattern n s := by
  unfold Convert.defaulted at h
  obtain ⟨c, hc, h⟩ := result_bind_eq_ok.1 h
  obtain ⟨left, hleft, h⟩ := result_bind_eq_ok.1 h
  obtain ⟨d, hd, h⟩ := result_bind_eq_ok.1 h
  obtain ⟨right, hright, h⟩ := result_bind_eq_ok.1 h
  cases h
  have hleft' := hf.field hcat (result_field.1 hc) rfl hleft
  have hright' := hf.field Role.category_expression_le (result_field.1 hd) rfl hright
  exact ⟨rfl, .none rfl, _, hparts .., by simp [hleft', hright']⟩

theorem rest_made {role : Role} {pattern : Category} (hcat : ∀ c, role.category c ≤ pattern)
    (hparts : ∀ t : Tree μ, cat.parts? (.restElement t) = some [(pattern, t)])
    (h : (Convert.rest ctx f role n).result = .ok s) : Made ctx cat n s := by
  unfold Convert.rest at h
  obtain ⟨c, hc, h⟩ := result_bind_eq_ok.1 h
  obtain ⟨t, ht, h⟩ := result_bind_eq_ok.1 h
  cases h
  have ht' := hf.sees hcat (.of_head?_named (result_firstNamed.1 hc)) ht
  exact ⟨rfl, .none rfl, _, hparts _, by simp [ht']⟩

/-! ## Declared names and patterns -/

theorem binding_built (h : (Convert.binding ctx f n).result = .ok t) : Built ctx .binding n t := by
  have hcat (c : Cst) : Role.binding.category c ≤ .binding := Category.le_refl _
  unfold Convert.binding at h
  split at h
  case isTrue hk =>
    cases h
    exact .identifier_le rfl hk
  case isFalse =>
    refine Made.map (fun s h => ?_) h
    split at h
    case h_1 =>
      obtain ⟨ts, hts, rfl⟩ := result_map_eq_ok.1 h
      have hts' := hf.named (n := n) (r := .bindingMember) (fun _ => Category.le_refl _) hts
      exact ⟨rfl, .one rfl trivial (hf.rows .named hts), _, rfl, Category.forall_mem_each.2 hts'⟩
    case h_2 =>
      obtain ⟨os, hos, rfl⟩ := result_map_eq_ok.1 h
      exact ⟨rfl, .one rfl trivial (elements_rows hf hos), _, rfl,
        Category.forall_mem_each.2 (elements_built hf hcat hos)⟩
    case h_3 => exact defaulted_made hf hcat (fun _ _ => rfl) h
    case h_4 => exact rest_made hf hcat (fun _ => rfl) h
    case h_5 => cases h

theorem bindingMember_built (h : (Convert.bindingMember ctx f n).result = .ok t) :
    Built ctx .bindingMember n t := by
  have hcat (c : Cst) : Role.binding.category c ≤ .binding := Category.le_refl _
  refine Made.map (fun s h => ?_) h
  split at h
  case h_1 => exact pairProperty_made hf hcat (fun _ _ _ => rfl) h
  case h_2 hk =>
    cases h
    exact shorthandProperty_made (by simp [hk, Kind.isIdentifier]) rfl rfl fun _ => rfl
  case h_3 => exact defaultedProperty_made hf hcat (fun _ _ => rfl) (fun _ _ => rfl) h
  case h_4 => exact rest_made hf hcat (fun _ => rfl) h
  case h_5 => cases h

/-! ## Targets of assignments -/

theorem target_built {e : Cst → Outcome (Tree μ)}
    (he : (e n).result = .ok t → Built ctx (Role.expression.category n) n t)
    (h : (Convert.target ctx f e n).result = .ok t) : Built ctx .target n t := by
  have hcat (c : Cst) : Role.target.category c ≤ .target := Category.le_refl _
  have hmember (hk : n.kind = .memberExpression ∨ n.kind = .subscriptExpression)
      (h : (e n).result = .ok t) : Built ctx .target n t := by
    have ht := he h
    rw [Role.category, if_neg (by rcases hk with hk | hk <;> simp [hk]), if_pos hk] at ht
    exact .widen (Category.le_of_contains rfl) ht
  unfold Convert.target at h
  split at h
  case isTrue hk =>
    cases h
    exact .identifier_le rfl hk
  case isFalse =>
  split at h
  case isTrue => exact hf.first hcat h
  case isFalse =>
  split at h
  case h_1 hk => exact hmember (.inl hk) h
  case h_2 hk => exact hmember (.inr hk) h
  case h_3 => exact hf.first hcat h
  case h_4 | h_5 =>
    obtain ⟨ts, hts, rfl⟩ := result_map_eq_ok.1 h
    have hts' := hf.named (n := n) (r := .targetMember) (fun _ => Category.le_refl _) hts
    exact .node rfl (.one rfl trivial (hf.rows .named hts)) rfl (Category.forall_mem_each.2 hts')
  case h_6 | h_7 =>
    obtain ⟨os, hos, rfl⟩ := result_map_eq_ok.1 h
    exact .node rfl (.one rfl trivial (elements_rows hf hos)) rfl
      (Category.forall_mem_each.2 (elements_built hf hcat hos))
  case h_8 | h_9 => exact Made.map (fun s h => defaulted_made hf hcat (fun _ _ => rfl) h) h
  case h_10 | h_11 => exact Made.map (fun s h => rest_made hf hcat (fun _ => rfl) h) h
  case h_12 => cases h

theorem targetMember_built (h : (Convert.targetMember ctx f n).result = .ok t) :
    Built ctx .targetMember n t := by
  have hcat (c : Cst) : Role.target.category c ≤ .target := Category.le_refl _
  refine Made.map (fun s h => ?_) h
  split at h
  case h_1 | h_2 => exact pairProperty_made hf hcat (fun _ _ _ => rfl) h
  case h_3 hk | h_4 hk =>
    cases h
    exact shorthandProperty_made (by simp [hk, Kind.isIdentifier]) rfl rfl fun _ => rfl
  case h_5 => exact defaultedProperty_made hf hcat (fun _ _ => rfl) (fun _ _ => rfl) h
  case h_6 | h_7 => exact rest_made hf hcat (fun _ => rfl) h
  case h_8 => cases h

end

end Estree
