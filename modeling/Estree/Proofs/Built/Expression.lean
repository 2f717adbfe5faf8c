import Estree.Proofs.Built.Pattern
import Estree.Proofs.Sequence.Basic

/-!
# What functions, classes and expressions are built from
-/

namespace Estree

open Outcome Context

namespace Cst

theorem sees_heritageClause? {n c : Cst} (h : n.heritageClause? = some c) :
    ∃ d, n.Sees d ∧ d.Sees c := by
  obtain ⟨d, hd, hc⟩ := Option.bind_eq_some_iff.1 h
  exact ⟨d, .of_mem_named (List.mem_of_find?_eq_some hd),
    .of_mem_named (List.mem_of_find?_eq_some hc)⟩

theorem sees_wrapped? {n c : Cst} (h : n.wrapped? = some c) : n.Sees c := by
  unfold wrapped? at h
  split at h
  · exact .of_mem_named (List.mem_of_getLast? h)
  · exact .of_head?_named h

end Cst

variable {μ : Type} {ctx : Context μ} {cat : Category} {n c : Cst} {t : Tree μ}
  {s : Shape (Tree μ)}

/-- What is built from the operands of a comma expression is built from the expression. -/
theorem Built.of_mem_operands (hc : c ∈ n.operands) (h : Built ctx cat c t) :
    Built ctx cat n t := by
  induction hk : n.height using Nat.strongRecOn generalizing n with
  | ind k ih =>
    rw [Cst.operands_eq] at hc
    obtain ⟨d, hd, hc⟩ := List.mem_flatMap.1 hc
    refine .within (.of_mem_named hd) ?_
    split at hc
    · exact ih d.height (hk ▸ Cst.height_lt_of_mem_named hd) hc rfl
    · rwa [← List.mem_singleton.1 hc]

theorem Built.fieldIdentifier {name : String} (hname : (n.kind, name) ∈ Cst.trustedFields) :
    ∀ t ∈ ((n.field? name).map ctx.identifier).toList, Built ctx .identifier n t := by
  intro t ht
  obtain ⟨c, hc, rfl⟩ := Option.map_eq_some_iff.1 (Option.mem_toList.1 ht)
  exact .trusted (.field hname hc)

section
variable {f : Converter μ} (hf : Sound ctx f)
include hf

/-! ## Functions -/

theorem parameter_built (h : (Convert.parameter ctx f n).result = .ok t) :
    Built ctx .binding n t := by
  unfold Convert.parameter at h
  split at h
  case isFalse => exact binding_built hf h
  case isTrue hparam =>
    obtain ⟨_, -, h⟩ := result_bind_eq_ok.1 h
    obtain ⟨pattern, hpattern, h⟩ := result_bind_eq_ok.1 h
    obtain ⟨left, hleft, h⟩ := result_bind_eq_ok.1 h
    have hleft' : Built ctx .binding pattern left := hf.built _ _ _ hleft
    have hpattern' := result_field.1 hpattern
    split at h
    case h_1 =>
      cases h
      exact .within (.of_field? hpattern' rfl) hleft'
    case h_2 value hvalue =>
      obtain ⟨right, hright, h⟩ := result_bind_eq_ok.1 h
      cases h
      exact .defaultParameter hparam hpattern' hvalue hleft'
        (.widen (Role.category_expression_le value) (hf.built _ _ _ hright))

theorem parameters_built {ts : List (Tree μ)}
    (h : (Convert.parameters ctx f n).result = .ok ts) : ∀ t ∈ ts, Built ctx .binding n t := by
  obtain ⟨_, -, h⟩ := result_bind_eq_ok.1 h
  exact hf.mapM (r := .parameter) (fun _ => Category.le_refl _)
    (fun c hc => .of_mem_named (List.mem_of_mem_filter hc)) h

theorem parameters_rows {ts : List (Tree μ)}
    (h : (Convert.parameters ctx f n).result = .ok ts) : n.Rows ctx.LiesIn ts := by
  obtain ⟨_, -, h⟩ := result_bind_eq_ok.1 h
  exact hf.rows (Cst.Rows.named.sublist List.filter_sublist) h

omit hf in
theorem functionName_built (form : FunctionForm) {o : Option (Tree μ)}
    (hname : form ≠ .arrow → (n.kind, "name") ∈ Cst.trustedFields)
    (h : (Convert.functionName ctx form n).result = .ok o) :
    ∀ t ∈ o.toList, Built ctx .identifier n t := by
  cases form with
  | declaration =>
    obtain ⟨c, hc, h⟩ := result_bind_eq_ok.1 h
    cases h
    simpa using Built.trusted (.field (hname nofun) (result_field.1 hc))
  | expression =>
    cases h
    exact Built.fieldIdentifier (hname nofun)
  | arrow =>
    cases h
    exact nofun

theorem functionParameters_built {ts : List (Tree μ)}
    (h : (Convert.functionParameters ctx f n).result = .ok ts) :
    ∀ t ∈ ts, Built ctx .binding n t := by
  unfold Convert.functionParameters at h
  split at h
  case h_1 param hparam =>
    obtain ⟨t, ht, h⟩ := result_bind_eq_ok.1 h
    cases h
    simpa using hf.field (r := .binding) (fun _ => Category.le_refl _) hparam rfl ht
  case h_2 =>
    obtain ⟨c, hc, h⟩ := result_bind_eq_ok.1 h
    intro t ht
    exact .within (.of_field? (result_field.1 hc) rfl) (parameters_built hf h t ht)

theorem functionParameters_rows {ts : List (Tree μ)}
    (h : (Convert.functionParameters ctx f n).result = .ok ts) : n.Rows ctx.LiesIn ts := by
  unfold Convert.functionParameters at h
  split at h
  case h_1 param hparam =>
    obtain ⟨t, ht, h⟩ := result_bind_eq_ok.1 h
    cases h
    have ht' : Built ctx .binding n t := .within (.of_field? hparam rfl) (hf.built _ _ _ ht)
    exact .singleton ht'.liesIn
  case h_2 =>
    obtain ⟨c, hc, h⟩ := result_bind_eq_ok.1 h
    exact (parameters_rows hf h).child (Cst.mem_children_of_field? (result_field.1 hc))

/-- The category of the body of a function, given whether the body is an expression. -/
def FunctionForm.body (form : FunctionForm) (expression : Bool) : Category :=
  if form = .arrow ∧ expression then .expression else .block

theorem functionBody_built {form : FunctionForm}
    (h : (Convert.functionBody ctx f form n).result = .ok t) :
    Built ctx (form.body (n.kind != .statementBlock)) n t := by
  unfold Convert.functionBody at h
  split at h
  case isTrue hk =>
    have ht : Built ctx .block n t := hf.built _ _ _ h
    simpa [FunctionForm.body, hk] using ht
  case isFalse hk =>
    split at h
    case isTrue hform =>
      have ht := Built.widen (Role.category_expression_le n) (hf.built _ _ _ h)
      simpa [FunctionForm.body, hk, hform] using ht
    case isFalse => cases h

omit hf in
theorem functionShape_made {form : FunctionForm} {function : FunctionShape (Tree μ)}
    (hcat : cat = .expression ∧ form ≠ .declaration ∨ cat = .statement ∧ form = .declaration)
    (hid : ∀ t ∈ function.id.toList, Built ctx .identifier n t)
    (hparams : ∀ t ∈ function.params, Built ctx .binding n t)
    (hrow : n.Rows ctx.LiesIn function.params)
    (hbody : Built ctx (form.body function.expression) n function.body) :
    Made ctx cat n (form.shape function) := by
  have hparts : ∀ p ∈ Category.functionParts (form.body function.expression) function,
      Built ctx p.1 n p.2 := by
    simp only [Category.functionParts, List.forall_mem_append, Category.forall_mem_each,
      List.forall_mem_singleton]
    exact ⟨⟨hid, hparams⟩, hbody⟩
  rcases hcat with ⟨rfl, hform⟩ | ⟨rfl, rfl⟩
  · cases form with
    | declaration => exact absurd rfl hform
    | expression =>
      exact ⟨rfl, .one rfl trivial hrow, _, rfl, by simpa [FunctionForm.body] using hparts⟩
    | arrow => exact ⟨rfl, .one rfl trivial hrow, _, rfl, by simpa [FunctionForm.body] using hparts⟩
  · exact ⟨rfl, .one rfl trivial hrow, _, rfl, by simpa [FunctionForm.body] using hparts⟩

theorem function_built {form : FunctionForm}
    (hcat : cat = .expression ∧ form ≠ .declaration ∨ cat = .statement ∧ form = .declaration)
    (hname : form ≠ .arrow → (n.kind, "name") ∈ Cst.trustedFields)
    (h : (Convert.function ctx f form n).result = .ok t) : Built ctx cat n t := by
  unfold Convert.function at h
  obtain ⟨id, hid, h⟩ := result_bind_eq_ok.1 h
  obtain ⟨params, hparams, h⟩ := result_bind_eq_ok.1 h
  obtain ⟨body, hbody, h⟩ := result_bind_eq_ok.1 h
  obtain ⟨block, hblock, h⟩ := result_bind_eq_ok.1 h
  cases h
  have hblock' := Built.within (.of_field? (result_field.1 hbody) rfl)
    (functionBody_built hf hblock)
  exact (functionShape_made hcat (functionName_built _ hname hid)
    (functionParameters_built hf hparams) (functionParameters_rows hf hparams) hblock').built

theorem methodValue_built {modifiers : Modifiers} (hk : n.kind = .methodDefinition)
    (h : (Convert.methodValue ctx f n modifiers).result = .ok t) :
    Built ctx .methodFunction n t := by
  unfold Convert.methodValue at h
  obtain ⟨list, hlist, h⟩ := result_bind_eq_ok.1 h
  obtain ⟨body, hbody, h⟩ := result_bind_eq_ok.1 h
  obtain ⟨params, hparams, h⟩ := result_bind_eq_ok.1 h
  obtain ⟨block, hblock, h⟩ := result_bind_eq_ok.1 h
  cases h
  exact .methodFunction hk (result_field.1 hlist) (result_field.1 hbody)
    (parameters_rows hf hparams) (parameters_built hf hparams) (hf.built _ _ _ hblock)

theorem objectMethod_made (hk : n.kind = .methodDefinition)
    (h : (Convert.objectMethod ctx f n).result = .ok s) : Made ctx .objectMember n s := by
  unfold Convert.objectMethod at h
  obtain ⟨name, hname, h⟩ := result_bind_eq_ok.1 h
  obtain ⟨key, hkey, h⟩ := result_bind_eq_ok.1 h
  obtain ⟨value, hvalue, h⟩ := result_bind_eq_ok.1 h
  cases h
  have hname' := Cst.Sees.of_field? (result_field.1 hname) rfl
  have hkey' : Built ctx (.key (Convert.isComputed name)) n key := .within hname' (hf.built _ _ _ hkey)
  have hvalue' : Built ctx .expression n value :=
    .widen (Category.le_of_contains rfl) (methodValue_built hf hk hvalue)
  exact ⟨rfl, .none rfl, _, rfl, by simp [hkey', hvalue']⟩

/-! ## Classes -/

omit hf in
/-- A method that defines a constructor is named by a plain name or a string. -/
theorem kind_of_methodKind {name : Cst} {modifiers : Modifiers}
    (h : Convert.methodKind ctx name modifiers = .constructor) :
    name.kind.isIdentifier ∧ ctx.text name = "constructor" ∨
      name.kind = .string ∧ ctx.text name ∈ ["'constructor'", "\"constructor\""] := by
  unfold Convert.methodKind at h
  split at h
  · cases h
  split at h
  · cases h
  split at h
  case isFalse => cases h
  case isTrue hname =>
    have hname := (Bool.and_eq_true_iff.1 hname).1
    unfold Convert.namesConstructor at hname
    split at hname
    case isTrue hk => exact .inr ⟨hk, by simpa using hname⟩
    case isFalse => exact .inl (by simpa using hname)

theorem classMember_built (h : (Convert.classMember ctx f n).result = .ok t) :
    Built ctx .classMember n t := by
  unfold Convert.classMember at h
  obtain ⟨_, hk, h⟩ := result_bind_eq_ok.1 h
  obtain ⟨name, hname, h⟩ := result_bind_eq_ok.1 h
  obtain ⟨key, hkey, h⟩ := result_bind_eq_ok.1 h
  obtain ⟨value, hvalue, h⟩ := result_bind_eq_ok.1 h
  cases h
  have hname := result_field.1 hname
  have hvalue' := methodValue_built hf (result_expect.1 hk) hvalue
  split
  case isFalse =>
    have hkey' : Built ctx (.key (Convert.isComputed name)) n key :=
      .within (.of_field? hname rfl) (hf.built _ _ _ hkey)
    exact .node rfl (.none rfl) rfl (by simp [hkey', hvalue'])
  case isTrue hconstructor =>
    rw [hconstructor]
    rcases kind_of_methodKind hconstructor with ⟨hname', htext⟩ | ⟨hstring, htext⟩
    · have hkey' : Built ctx .propertyName n (ctx.node name (.identifier "constructor")) := by
        rw [← htext]
        exact .within (.of_field? hname rfl) (.identifier_le rfl hname')
      rw [isComputed_eq_false hname']
      exact .node rfl (.none rfl) rfl (by simp [Category.key, hkey', hvalue'])
    · have hcomputed : Convert.isComputed name = false := by simp [Convert.isComputed, hstring]
      rw [hcomputed]
      exact .constructor hname hstring htext hvalue'

/-- A list of conversions has an origin for everything that it builds. -/
theorem exists_origin {role : Role} {cs : List Cst} {ts : List (Tree μ)}
    (h : (cs.mapM (f role)).result = .ok ts) :
    ∃ origin : Tree μ → Cst, ∀ t ∈ ts, origin t ∈ cs ∧
      Built ctx (role.category (origin t)) (origin t) t := by
  have hts : ∀ t ∈ ts, ∃ c ∈ cs, Built ctx (role.category c) c t := fun t ht => by
    obtain ⟨c, hc, hct⟩ := exists_of_mem_mapM h ht
    exact ⟨c, hc, hf.built _ _ _ hct⟩
  choose! origin horigin using hts
  exact ⟨origin, horigin⟩

theorem classBody_built (h : (Convert.classBody ctx f n).result = .ok t) :
    Built ctx .classBody n t := by
  unfold Convert.classBody at h
  obtain ⟨_, hk, h⟩ := result_bind_eq_ok.1 h
  obtain ⟨members, hmembers, h⟩ := result_bind_eq_ok.1 h
  cases h
  obtain ⟨origin, horigin⟩ := exists_origin hf hmembers
  exact .classBody (result_expect.1 hk) (hf.rows .named hmembers)
    (fun t ht => (horigin t ht).1) fun t ht => (horigin t ht).2

omit hf in
theorem superClass_built {o : Option Cst} (h : (Convert.superClass ctx n).result = .ok o)
    (hc : o = some c) (ht : Built ctx cat c t) : Built ctx cat n t := by
  unfold Convert.superClass at h
  split at h
  case h_1 =>
    cases h
    cases hc
  case h_2 clause hclause =>
    obtain ⟨heritage, hsees, hclause⟩ := Cst.sees_heritageClause? hclause
    refine .within hsees (.within hclause ?_)
    split at h
    case isTrue =>
      split at h
      case h_1 value hvalue =>
        cases h
        cases hc
        exact .within (.of_field? hvalue rfl) ht
      case h_2 =>
        obtain ⟨first, hfirst, h⟩ := result_bind_eq_ok.1 h
        cases h
        cases hc
        exact .within (.of_head?_named (result_firstNamed.1 hfirst)) ht
    case isFalse =>
      cases h
      cases hc
      exact ht

omit hf in
theorem className_built {isDeclaration : Bool} {o : Option (Tree μ)}
    (hname : (n.kind, "name") ∈ Cst.trustedFields)
    (h : (Convert.className ctx isDeclaration n).result = .ok o) :
    ∀ t ∈ o.toList, Built ctx .identifier n t := by
  cases isDeclaration with
  | true => exact functionName_built .declaration (fun _ => hname) h
  | false => exact functionName_built .expression (fun _ => hname) h

theorem classLike_built {isDeclaration : Bool}
    (hcat : cat = if isDeclaration then .statement else .expression)
    (hname : (n.kind, "name") ∈ Cst.trustedFields)
    (h : (Convert.classLike ctx f isDeclaration n).result = .ok t) : Built ctx cat n t := by
  unfold Convert.classLike at h
  obtain ⟨_, -, h⟩ := result_bind_eq_ok.1 h
  obtain ⟨id, hid, h⟩ := result_bind_eq_ok.1 h
  obtain ⟨clause, hclause, h⟩ := result_bind_eq_ok.1 h
  obtain ⟨extended, hextended, h⟩ := result_bind_eq_ok.1 h
  obtain ⟨bodyCst, hbodyCst, h⟩ := result_bind_eq_ok.1 h
  obtain ⟨body, hbody, h⟩ := result_bind_eq_ok.1 h
  cases h
  have hextended' : ∀ t ∈ extended.toList, Built ctx .expression n t := by
    intro t ht
    obtain rfl := Option.mem_toList.1 ht
    generalize clause = o at hextended hclause
    cases result_onSome_eq_ok.1 hextended with
    | some hct =>
      exact superClass_built hclause rfl
        (.widen (Role.category_expression_le _) (hf.built _ _ _ hct))
  have hbody' : Built ctx .classBody n body :=
    .within (.of_field? (result_field.1 hbodyCst) rfl) (classBody_built hf hbody)
  have hparts : ∀ p ∈ Category.classParts ⟨id, extended, body⟩, Built ctx p.1 n p.2 := by
    simp only [Category.classParts, List.forall_mem_append, Category.forall_mem_each,
      List.forall_mem_singleton]
    exact ⟨⟨className_built hname hid, hextended'⟩, hbody'⟩
  subst hcat
  cases isDeclaration with
  | true => exact .node rfl (.none rfl) rfl hparts
  | false => exact .node rfl (.none rfl) rfl hparts

/-! ## Expressions -/

theorem typeWrapper_built (h : (Convert.typeWrapper ctx f n).result = .ok t) :
    Built ctx .expression n t := by
  unfold Convert.typeWrapper at h
  split at h
  case h_1 operand hoperand =>
    exact hf.sees Role.category_expression_le (Cst.sees_wrapped? hoperand) h
  case h_2 => cases h

omit hf in
/-- An operator is the text of its mark and one of those that are allowed. -/
theorem result_operator {allowed : List String} {operator : String}
    (h : (Convert.operator ctx allowed n).result = .ok operator) :
    operator = ctx.text n ∧ operator ∈ allowed := by
  unfold Convert.operator at h
  split at h
  case isTrue hallowed =>
    cases h
    exact ⟨rfl, List.contains_iff_mem.1 hallowed⟩
  case isFalse => cases h

omit hf in
/-- The text of a mark, one of those that a node may have for its operator. -/
theorem Context.Operates.of_result {allowed : List String} {operator : String}
    (hs : (s.operator?, s.operators?) = (some operator, some allowed))
    (hc : n.operatorMark? = some c)
    (h : (Convert.operator ctx allowed c).result = .ok operator) : ctx.Operates n s := by
  obtain ⟨hoperator, hoperators⟩ := Prod.mk.inj hs
  obtain ⟨htext, hmem⟩ := result_operator h
  refine .of_mark hoperator hc htext fun allowed' hallowed' => ?_
  rwa [← Option.some.inj (hoperators.symm.trans hallowed')]

theorem unary_made (h : (Convert.unary ctx f n).result = .ok s) : Made ctx .expression n s := by
  unfold Convert.unary at h
  obtain ⟨mark, hmark, h⟩ := result_bind_eq_ok.1 h
  obtain ⟨op, hop, h⟩ := result_bind_eq_ok.1 h
  obtain ⟨c, hc, h⟩ := result_bind_eq_ok.1 h
  obtain ⟨argument, hargument, h⟩ := result_bind_eq_ok.1 h
  cases h
  have hargument' := hf.field Role.category_expression_le (result_field.1 hc) rfl hargument
  have hoperates := Context.Operates.of_result (s := .unaryExpression op true argument) rfl
    (Cst.operatorMark?_of_field? (result_field.1 hmark)) hop
  exact ⟨rfl, ⟨.none rfl, .of_none rfl, hoperates⟩, _, rfl, by simp [hargument']⟩

theorem update_made (h : (Convert.update ctx f n).result = .ok s) : Made ctx .expression n s := by
  unfold Convert.update at h
  obtain ⟨mark, hmark, h⟩ := result_bind_eq_ok.1 h
  obtain ⟨c, hc, h⟩ := result_bind_eq_ok.1 h
  obtain ⟨op, hop, h⟩ := result_bind_eq_ok.1 h
  obtain ⟨argument, hargument, h⟩ := result_bind_eq_ok.1 h
  cases h
  have hargument' := hf.field Role.category_expression_le (result_field.1 hc) rfl hargument
  have hoperates (isPrefix : Bool) : ctx.Operates n (.updateExpression op isPrefix argument) :=
    .of_result rfl (Cst.operatorMark?_of_field? (result_field.1 hmark)) hop
  exact ⟨rfl, ⟨.none rfl, .of_none rfl, hoperates _⟩, _, rfl, by simp [hargument']⟩

theorem binary_made (h : (Convert.binary ctx f n).result = .ok s) : Made ctx .expression n s := by
  unfold Convert.binary at h
  obtain ⟨mark, hmark, h⟩ := result_bind_eq_ok.1 h
  obtain ⟨c, hc, h⟩ := result_bind_eq_ok.1 h
  obtain ⟨left, hleft, h⟩ := result_bind_eq_ok.1 h
  obtain ⟨d, hd, h⟩ := result_bind_eq_ok.1 h
  obtain ⟨right, hright, h⟩ := result_bind_eq_ok.1 h
  cases h
  have hleft' := hf.field Role.category_expression_le (result_field.1 hc) rfl hleft
  have hright' := hf.field Role.category_expression_le (result_field.1 hd) rfl hright
  have hmark' := Cst.operatorMark?_of_field? (result_field.1 hmark)
  split
  case isTrue hlogical =>
    have hoperates : ctx.Operates n (.logicalExpression (ctx.text mark) left right) := by
      refine .of_mark rfl hmark' rfl ?_
      rintro _ ⟨⟩
      exact List.contains_iff_mem.1 hlogical
    exact ⟨rfl, ⟨.none rfl, .of_none rfl, hoperates⟩, _, rfl, by simp [hleft', hright']⟩
  case isFalse =>
    have hoperates : ctx.Operates n (.binaryExpression (ctx.text mark) left right) :=
      .of_mark rfl hmark' rfl nofun
    exact ⟨rfl, ⟨.none rfl, .of_none rfl, hoperates⟩, _, rfl, by simp [hleft', hright']⟩

theorem sequence_made (h : (Convert.sequence f n).result = .ok s) : Made ctx .expression n s := by
  rw [Convert.sequence_eq] at h
  obtain ⟨ts, hts, rfl⟩ := result_map_eq_ok.1 h
  refine ⟨rfl, .one rfl trivial (hf.rows .operands hts), _, rfl,
    Category.forall_mem_each.2 fun t ht => ?_⟩
  obtain ⟨c, hc, hct⟩ := exists_of_mem_mapM hts ht
  exact .of_mem_operands hc (.widen (Role.category_expression_le c) (hf.built _ _ _ hct))

omit hf in
theorem result_assignmentMark (h : (Convert.assignmentMark ctx n).result = .ok c) :
    n.operatorMark? = some c := by
  unfold Convert.assignmentMark at h
  rw [Cst.operatorMark?]
  split at h
  case h_1 mark hmark =>
    cases h
    rw [hmark, Option.some_or]
  case h_2 hnone =>
    rw [hnone, Option.none_or]
    split at h
    case h_1 mark hmark =>
      cases h
      exact hmark
    case h_2 => cases h

theorem assignment_made (h : (Convert.assignment ctx f n).result = .ok s) :
    Made ctx .expression n s := by
  unfold Convert.assignment at h
  obtain ⟨mark, hmark, h⟩ := result_bind_eq_ok.1 h
  obtain ⟨op, hop, h⟩ := result_bind_eq_ok.1 h
  obtain ⟨c, hc, h⟩ := result_bind_eq_ok.1 h
  obtain ⟨left, hleft, h⟩ := result_bind_eq_ok.1 h
  obtain ⟨d, hd, h⟩ := result_bind_eq_ok.1 h
  obtain ⟨right, hright, h⟩ := result_bind_eq_ok.1 h
  cases h
  have hleft' : Built ctx .target n left :=
    hf.field (fun _ => Category.le_refl _) (result_field.1 hc) rfl hleft
  have hright' := hf.field Role.category_expression_le (result_field.1 hd) rfl hright
  have hassigns : ctx.Assigns n (.assignmentExpression op left right) := by
    rintro _ ⟨⟩
    exact ⟨c, result_field.1 hc, hf.yields c left hleft⟩
  have hoperates : ctx.Operates n (.assignmentExpression op left right) :=
    .of_result rfl (result_assignmentMark hmark) hop
  exact ⟨rfl, ⟨.none rfl, hassigns, hoperates⟩, _, rfl, by simp [hleft', hright']⟩

theorem conditional_made (h : (Convert.conditional ctx f n).result = .ok s) :
    Made ctx .expression n s := by
  unfold Convert.conditional at h
  obtain ⟨c, hc, h⟩ := result_bind_eq_ok.1 h
  obtain ⟨test, htest, h⟩ := result_bind_eq_ok.1 h
  obtain ⟨d, hd, h⟩ := result_bind_eq_ok.1 h
  obtain ⟨yes, hyes, h⟩ := result_bind_eq_ok.1 h
  obtain ⟨e, he, h⟩ := result_bind_eq_ok.1 h
  obtain ⟨no, hno, h⟩ := result_bind_eq_ok.1 h
  cases h
  have htest' := hf.field Role.category_expression_le (result_field.1 hc) rfl htest
  have hyes' := hf.field Role.category_expression_le (result_field.1 hd) rfl hyes
  have hno' := hf.field Role.category_expression_le (result_field.1 he) rfl hno
  exact ⟨rfl, .none rfl, _, rfl, by simp [htest', hyes', hno']⟩

theorem arguments_built {ts : List (Tree μ)} (h : (Convert.arguments ctx f n).result = .ok ts) :
    ∀ t ∈ ts, Built ctx .expression n t := by
  obtain ⟨_, -, h⟩ := result_bind_eq_ok.1 h
  exact hf.named Role.category_expression_le h

theorem arguments_rows {ts : List (Tree μ)} (h : (Convert.arguments ctx f n).result = .ok ts) :
    n.Rows ctx.LiesIn ts := by
  obtain ⟨_, -, h⟩ := result_bind_eq_ok.1 h
  exact hf.rows .named h

theorem call_made (h : (Convert.call ctx f n).result = .ok s) : Made ctx .expression n s := by
  unfold Convert.call at h
  obtain ⟨_, -, h⟩ := result_bind_eq_ok.1 h
  obtain ⟨c, hc, h⟩ := result_bind_eq_ok.1 h
  obtain ⟨callee, hcallee, h⟩ := result_bind_eq_ok.1 h
  obtain ⟨list, hlist, h⟩ := result_bind_eq_ok.1 h
  have hcallee' := hf.field Role.category_expression_le (result_field.1 hc) rfl hcallee
  have hlist' := Cst.Sees.of_field? (result_field.1 hlist) rfl
  split at h
  case isTrue hk =>
    obtain ⟨quasi, hquasi, h⟩ := result_bind_eq_ok.1 h
    cases h
    have hquasi' : Built ctx .template n quasi := by
      have := hf.built _ _ _ hquasi
      rw [Role.category, if_pos hk] at this
      exact .within hlist' this
    exact ⟨rfl, .none rfl, _, rfl, by simp [hcallee', hquasi']⟩
  case isFalse =>
    obtain ⟨args, hargs, h⟩ := result_bind_eq_ok.1 h
    cases h
    have hargs' : ∀ t ∈ args, Built ctx .expression n t :=
      fun t ht => .within hlist' (arguments_built hf hargs t ht)
    have hrow := (arguments_rows hf hargs).child hlist'.mem_children
    exact ⟨rfl, .one rfl trivial hrow, _, rfl,
      List.forall_mem_cons.2 ⟨hcallee', Category.forall_mem_each.2 hargs'⟩⟩

theorem creationArguments_built {ts : List (Tree μ)}
    (h : (Convert.creationArguments ctx f n).result = .ok ts) :
    (∀ t ∈ ts, Built ctx .expression n t) ∧ n.Rows ctx.LiesIn ts := by
  unfold Convert.creationArguments at h
  split at h
  case h_1 list hlist =>
    exact ⟨fun t ht => .within (.of_field? hlist rfl) (arguments_built hf h t ht),
      (arguments_rows hf h).child (Cst.mem_children_of_field? hlist)⟩
  case h_2 =>
    cases h
    exact ⟨nofun, .nil⟩

theorem creation_made (h : (Convert.creation ctx f n).result = .ok s) :
    Made ctx .expression n s := by
  unfold Convert.creation at h
  obtain ⟨args, hargs, h⟩ := result_bind_eq_ok.1 h
  obtain ⟨c, hc, h⟩ := result_bind_eq_ok.1 h
  obtain ⟨callee, hcallee, h⟩ := result_bind_eq_ok.1 h
  cases h
  have hcallee' := hf.field Role.category_expression_le (result_field.1 hc) rfl hcallee
  obtain ⟨hargs', hrow⟩ := creationArguments_built hf hargs
  exact ⟨rfl, .one rfl trivial hrow, _, rfl,
    List.forall_mem_cons.2 ⟨hcallee', Category.forall_mem_each.2 hargs'⟩⟩

omit hf in
theorem memberName_built (hk : n.kind = .memberExpression) (hc : n.field? "property" = some c) :
    Built ctx .memberName n (Convert.memberName ctx c) := by
  unfold Convert.memberName
  split
  case isTrue hprivate =>
    exact .within (.of_field? hc rfl) (.privateIdentifier_le rfl hprivate)
  case isFalse =>
    have hproperty : (n.kind, "property") ∈ Cst.trustedFields := hk ▸ by decide
    exact .trusted_le rfl (.field hproperty hc)

theorem member_made (hk : n.kind = .memberExpression)
    (h : (Convert.member ctx f n).result = .ok s) : Made ctx .member n s := by
  unfold Convert.member at h
  obtain ⟨_, -, h⟩ := result_bind_eq_ok.1 h
  obtain ⟨c, hc, h⟩ := result_bind_eq_ok.1 h
  obtain ⟨d, hd, h⟩ := result_bind_eq_ok.1 h
  obtain ⟨object, hobject, h⟩ := result_bind_eq_ok.1 h
  cases h
  have hobject' := hf.field Role.category_expression_le (result_field.1 hd) rfl hobject
  have hname : Built ctx .memberName n (Convert.memberName ctx c) :=
    memberName_built hk (result_field.1 hc)
  exact ⟨rfl, .none rfl, _, rfl, by simp [Category.memberKey, hobject', hname]⟩

theorem subscript_made (h : (Convert.subscript ctx f n).result = .ok s) :
    Made ctx .member n s := by
  unfold Convert.subscript at h
  obtain ⟨_, -, h⟩ := result_bind_eq_ok.1 h
  obtain ⟨c, hc, h⟩ := result_bind_eq_ok.1 h
  obtain ⟨object, hobject, h⟩ := result_bind_eq_ok.1 h
  obtain ⟨d, hd, h⟩ := result_bind_eq_ok.1 h
  obtain ⟨index, hindex, h⟩ := result_bind_eq_ok.1 h
  cases h
  have hobject' := hf.field Role.category_expression_le (result_field.1 hc) rfl hobject
  have hindex' := hf.field Role.category_expression_le (result_field.1 hd) rfl hindex
  exact ⟨rfl, .none rfl, _, rfl, by simp [Category.memberKey, hobject', hindex']⟩

theorem spread_made (hcat : cat = .expression ∨ cat = .objectMember)
    (h : (Convert.spread ctx f n).result = .ok s) : Made ctx cat n s := by
  unfold Convert.spread at h
  obtain ⟨c, hc, h⟩ := result_bind_eq_ok.1 h
  obtain ⟨t, ht, h⟩ := result_bind_eq_ok.1 h
  cases h
  have ht' := hf.sees Role.category_expression_le (.of_head?_named (result_firstNamed.1 hc)) ht
  rcases hcat with rfl | rfl <;> exact ⟨rfl, .none rfl, _, rfl, by simp [ht']⟩

theorem objectMember_built (h : (Convert.objectMember ctx f n).result = .ok t) :
    Built ctx .objectMember n t := by
  refine Made.map (fun s h => ?_) h
  split at h
  case h_1 => exact pairProperty_made hf Role.category_expression_le (fun _ _ _ => rfl) h
  case h_2 hk =>
    cases h
    exact shorthandProperty_made (by simp [hk, Kind.isIdentifier]) rfl rfl fun _ => rfl
  case h_3 hk => exact objectMethod_made hf hk h
  case h_4 => exact spread_made hf (.inr rfl) h
  case h_5 => cases h

theorem optionalExpression_built {r : Option (Tree μ)}
    (h : (Outcome.onSome (f .expression) n.named.head?).result = .ok r) :
    ∀ t ∈ r.toList, Built ctx .expression n t :=
  hf.option Role.category_expression_le (fun _ => .of_head?_named) h

theorem yieldExpression_made (h : (Convert.yieldExpression f n).result = .ok s) :
    Made ctx .expression n s := by
  unfold Convert.yieldExpression at h
  obtain ⟨argument, hargument, h⟩ := result_bind_eq_ok.1 h
  cases h
  exact ⟨rfl, .none rfl, _, rfl, Category.forall_mem_each.2 (optionalExpression_built hf hargument)⟩

theorem expression_built (h : (Convert.expression ctx f n).result = .ok t) :
    Built ctx (Role.expression.category n) n t := by
  have plain (hn : n.kind ≠ .templateString)
      (hm : ¬ (n.kind = .memberExpression ∨ n.kind = .subscriptExpression))
      (ht : Built ctx .expression n t) : Built ctx (Role.expression.category n) n t := by
    rwa [Role.category, if_neg hn, if_neg hm]
  unfold Convert.expression at h
  split at h
  case isTrue hk =>
    cases h
    refine plain ?_ ?_ (.identifier_le rfl hk)
    · exact fun hn => by simp [hn, Kind.isIdentifier] at hk
    · rintro (hn | hn) <;> simp [hn, Kind.isIdentifier] at hk
  case isFalse =>
  split at h
  case isTrue hk =>
    refine plain ?_ ?_ (typeWrapper_built hf h)
    · exact fun hn => by simp [hn, Kind.isTypeWrapper] at hk
    · rintro (hn | hn) <;> simp [hn, Kind.isTypeWrapper] at hk
  case isFalse =>
  split at h
  case h_14 hk =>
    rw [Role.category, if_neg (by simp [hk]), if_pos (.inl hk)]
    exact Made.map (fun s => member_made hf hk) h
  case h_15 hk =>
    rw [Role.category, if_neg (by simp [hk]), if_pos (.inr hk)]
    exact Made.map (fun s => subscript_made hf) h
  case h_25 hk =>
    rw [Role.category, if_pos hk]
    exact template_built hf hk h
  case h_26 =>
    refine plain (by assumption) ?_ (literal_built_le rfl h)
    rintro (hn | hn) <;> exact absurd hn (by assumption)
  all_goals
    rename_i hk
    refine plain (by simp [hk]) (by simp [hk]) ?_
  case h_1 | h_2 =>
    cases h
    exact .node rfl (.none rfl) rfl (List.forall_mem_nil _)
  case h_3 =>
    cases h
    exact .privateIdentifier_le rfl hk
  case h_4 => exact hf.first Role.category_expression_le h
  case h_5 => exact Made.map (fun s => binary_made hf) h
  case h_6 => exact Made.map (fun s => sequence_made hf) h
  case h_7 | h_8 => exact Made.map (fun s => assignment_made hf) h
  case h_9 => exact Made.map (fun s => unary_made hf) h
  case h_10 => exact Made.map (fun s => update_made hf) h
  case h_11 => exact Made.map (fun s => conditional_made hf) h
  case h_12 => exact Made.map (fun s => call_made hf) h
  case h_13 => exact Made.map (fun s => creation_made hf) h
  case h_16 =>
    obtain ⟨os, hos, rfl⟩ := result_map_eq_ok.1 h
    exact .node rfl (.one rfl trivial (elements_rows hf hos)) rfl
      (Category.forall_mem_each.2 (elements_built hf Role.category_expression_le hos))
  case h_17 =>
    obtain ⟨ts, hts, rfl⟩ := result_map_eq_ok.1 h
    have hts' := hf.named (n := n) (r := .objectMember) (fun _ => Category.le_refl _) hts
    exact .node rfl (.one rfl trivial (hf.rows .named hts)) rfl (Category.forall_mem_each.2 hts')
  case h_18 => exact Made.map (fun s => spread_made hf (.inl rfl)) h
  case h_19 => exact Made.map (fun s => yieldExpression_made hf) h
  case h_20 =>
    obtain ⟨c, hc, h⟩ := result_bind_eq_ok.1 h
    obtain ⟨t, ht, h⟩ := result_bind_eq_ok.1 h
    cases h
    have ht' := hf.sees Role.category_expression_le (.of_head?_named (result_firstNamed.1 hc)) ht
    exact .node rfl (.none rfl) rfl (by simp [ht'])
  case h_21 => exact function_built hf (.inl ⟨rfl, by decide⟩) (absurd rfl) h
  case h_22 | h_23 =>
    exact function_built hf (.inl ⟨rfl, by decide⟩) (fun _ => hk ▸ by decide) h
  case h_24 => exact classLike_built hf rfl (hk ▸ by decide) h

end

end Estree
