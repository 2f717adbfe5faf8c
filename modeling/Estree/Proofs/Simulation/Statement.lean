import Estree.Proofs.Simulation.Expression

/-!
# Statements and modules run alike

`Simulation.rule` puts the lemmas together: the rule of every role runs alike on nodes seen alike.
The field `body` needs care. A case of a switch reads it as a list, which only shows parts; a clause
of a `try` reads it as one node, and is never a case that an extra node could stand in.

Statements, clauses and lists stand where neither an expression stands nor a pattern, and so do the
names of imports and exports; all of these are seen alike.
-/

namespace Estree.Simulation

variable {κ μ ν : Type} {ctx₁ : Context μ} {ctx₂ : Context ν} {S : Simulation κ ctx₁ ctx₂}
variable {n m : Cst} {f : Converter μ} {g : Converter ν}

theorem isEmptyPart_eq (h : S.Kin n m) : n.isEmptyPart = m.isEmptyPart := by
  have hempty := kind_pred h (p := (· == .emptyStatement)) rfl
  rw [Cst.isEmptyPart, Cst.isEmptyPart, isNamed_eq h, hempty]

theorem isElseClause_eq (h : S.Rel n m) : n.isElseClause = m.isElseClause := by
  rw [Cst.isElseClause, Cst.isElseClause, kind_eq h]

variable (h : S.Rel n m) (hf : S.Lower n f g)

section
include h

/-- The nodes in a field that may hold many. -/
theorem fields_low (name : String) (hplain : n.kind.isPlain)
    (hclosed : n.kind.closedFields.contains name) :
    List.Forall₂ (S.Low n) (n.fields name) (m.fields name) := by
  have hparts := forall₂_filter (p := (·.head.field == some name))
    (q := (·.head.field == some name)) (S.parts h hplain) fun _ _ h => by rw [h.2]
  refine (forall₂_mem_zip hparts).imp fun c d ⟨hcd, hmem⟩ => ?_
  obtain ⟨hc, hfield⟩ := List.mem_filter.1 (List.of_mem_zip hmem).1
  have hopen : n.opensTo c = false := by
    rw [Cst.opensTo, beq_iff_eq.1 hfield, Option.all_some, hclosed]
    exact Bool.and_false _
  exact ⟨rel_of_closed h (Cst.mem_children_of_mem_parts hc) hopen hcd.1,
    Cst.height_lt_of_mem_parts hc⟩

theorem variableKind (htext : ctx₁.text n = ctx₂.text m) :
    S.Same Eq (Convert.variableKind ctx₁ n) (Convert.variableKind ctx₂ m) := by
  unfold Convert.variableKind
  rw [htext]
  split
  · exact .pure rfl
  · exact unexpected h

theorem declarationKind (hk : n.kind = .lexicalDeclaration ∨ n.kind = .variableDeclaration) :
    S.Same Eq (Convert.declarationKind ctx₁ n) (Convert.declarationKind ctx₂ m) := by
  unfold Convert.declarationKind
  rw [← kind_eq h]
  split
  case isTrue => exact .pure rfl
  case isFalse hvar =>
    have hk := hk.resolve_right hvar
    exact bindRead h (by rw [hk]; rfl) fun c d _ hcd htext => variableKind hcd htext

end

include h hf

/-! ## Statements -/

theorem block : S.Same S.TreeRel (Convert.block ctx₁ f n) (Convert.block ctx₂ g m) := by
  unfold Convert.block
  refine (expect h .statementBlock).bind fun _ _ _ _ hk => ?_
  refine (hf.mapPlain rfl (named_low h (by rw [hk]; rfl))).bind
    fun ts us _ _ htu => .pure (node h ?_)
  simp only [ShapeRel, Shape.map, htu]

theorem declarator :
    S.Same S.TreeRel (Convert.declarator ctx₁ f n) (Convert.declarator ctx₂ g m) := by
  unfold Convert.declarator
  refine (expect h .variableDeclarator).bind fun _ _ _ _ hk => ?_
  refine (hf.onExpression (field_sub h _ rfl)).bind fun init init' _ _ hinit => ?_
  refine hf.bindField (fun c hc => ?_) h rfl fun id id' hid => .pure (node h ?_)
  · exact S.introduces (.inl h) (.variable hk hc)
  simp only [ShapeRel, Shape.map, hinit, hid]

theorem variableList (hk : n.kind = .lexicalDeclaration ∨ n.kind = .variableDeclaration)
    {stop stop' : Nat} (hstop : S.placed → stop = stop') :
    S.Same S.TreeRel (Convert.variableList ctx₁ f n stop)
      (Convert.variableList ctx₂ g m stop') := by
  have hlist : n.kind.isClosedList := by rcases hk with hk | hk <;> rw [hk] <;> rfl
  unfold Convert.variableList
  refine (declarationKind h hk).bind ?_
  rintro kind _ _ _ rfl
  refine (hf.mapPlain rfl (named_low h hlist)).bind
    fun ts us _ _ htu => .pure ?_
  exact nodeAt h (S.firstByte (.inl h)) hstop (by simp only [ShapeRel, Shape.map, htu])

omit h in
theorem alternative {c d : Cst} (hcd : S.Low n c d) :
    S.Same S.TreeRel (Convert.alternative ctx₁ f c) (Convert.alternative ctx₂ g d) := by
  unfold Convert.alternative
  rw [← isElseClause_eq hcd.rel]
  split
  case isTrue helse =>
    have hk : c.kind = .elseClause := by simpa [Cst.isElseClause] using helse
    exact bindHead hcd.rel (optionRel_head? (named_low hcd.rel (by rw [hk]; rfl)))
      fun a b _ hab => hf.plain rfl (hab.trans hcd.lt)
  case isFalse => exact hf.plain rfl hcd

theorem branch (hk : n.kind = .ifStatement) :
    S.Same S.ShapeRel (Convert.branch ctx₁ f n) (Convert.branch ctx₂ g m) := by
  unfold Convert.branch
  have hclause := field_low h "alternative" rfl (by rw [hk]; rfl)
  refine ((Outcome.Alike.onSome hclause fun c d _ _ hcd => alternative hf hcd).mono
    fun _ _ => optionRel_of_rel).bind fun no no' _ _ hno => ?_
  refine hf.bindExpression h rfl fun test test' htest => ?_
  refine hf.bindStatement h rfl (by rw [hk]; rfl) fun yes yes' hyes => .pure ?_
  simp only [ShapeRel, Shape.map, htest, hyes, hno]

theorem caseTest : S.Same S.OptionRel (Convert.caseTest ctx₁ f n) (Convert.caseTest ctx₂ g m) := by
  unfold Convert.caseTest
  rw [← kind_eq h]
  split
  · exact hf.bindExpression h rfl fun t u htu => .pure (congrArg some htu)
  · exact .pure rfl
  · exact unexpected h

omit h hf in
/-- What has the test of a case is a case. -/
theorem kind_of_caseTest {test : Option (Tree μ)}
    (htest : (Convert.caseTest ctx₁ f n).result = .ok test) :
    n.kind = .switchCase ∨ n.kind = .switchDefault := by
  unfold Convert.caseTest at htest
  split at htest
  case h_1 hk => exact .inl hk
  case h_2 hk => exact .inr hk
  case h_3 => cases htest

theorem switchCase :
    S.Same S.TreeRel (Convert.switchCase ctx₁ f n) (Convert.switchCase ctx₂ g m) := by
  unfold Convert.switchCase
  refine (caseTest h hf).bind fun test test' hcase _ htest => ?_
  have hk := kind_of_caseTest hcase
  have hbody := fields_low h "body" (by rcases hk with hk | hk <;> rw [hk] <;> rfl)
    (by rcases hk with hk | hk <;> rw [hk] <;> rfl)
  refine (hf.mapPlain rfl hbody).bind fun ts us _ _ htu => .pure (node h ?_)
  simp only [ShapeRel, Shape.map, htest, htu]

theorem switch (hk : n.kind = .switchStatement) :
    S.Same S.ShapeRel (Convert.switch ctx₁ f n) (Convert.switch ctx₂ g m) := by
  unfold Convert.switch
  refine hf.bindExpression h rfl fun value value' hvalue => ?_
  refine bindField h (Cst.mayLookUp_of_kind hk rfl rfl) fun c d hc hd hcd => ?_
  have hcases : List.Forall₂ (S.Low c) c.named d.named :=
    (forall₂_mem_zip (S.switchBody h hk hc hd)).imp fun _ _ ⟨hrel, hmem⟩ =>
      ⟨hrel, Cst.height_lt_of_mem_named (List.of_mem_zip hmem).1⟩
  refine ((hf.mono hcd.lt).mapPlain rfl hcases).bind
    fun ts us _ _ htu => .pure ?_
  simp only [ShapeRel, Shape.map, hvalue, htu]

theorem catchClause (hbody : Option.Rel S.Rel (n.field? "body") (m.field? "body")) :
    S.Same S.TreeRel (Convert.catchClause ctx₁ f n) (Convert.catchClause ctx₂ g m) := by
  unfold Convert.catchClause
  refine (hf.onSome (fun c hc => ?_) (field_sub h _ rfl)).bind fun param param' _ _ hparam => ?_
  · exact S.introduces (.inl h) (.single hc)
  refine bindFound h hbody fun c d hc _ hcd => ?_
  refine (hf.plain rfl ⟨hcd, Cst.height_lt_of_field? hc⟩).bind
    fun t u _ _ htu => .pure (node h ?_)
  simp only [ShapeRel, Shape.map, hparam, htu]

omit h in
theorem finalizer {c d : Cst} (hcd : S.Rel c d) (hlt : c.height < n.height)
    (hbody : Option.Rel S.Rel (c.field? "body") (d.field? "body")) :
    S.Same S.TreeRel (Convert.finalizer ctx₁ f c) (Convert.finalizer ctx₂ g d) :=
  bindFound hcd hbody fun _ _ hb _ h =>
    hf.plain rfl ⟨h, Nat.lt_trans (Cst.height_lt_of_field? hb) hlt⟩

theorem tryStatement (hk : n.kind = .tryStatement) :
    S.Same S.ShapeRel (Convert.tryStatement ctx₁ f n) (Convert.tryStatement ctx₂ g m) := by
  unfold Convert.tryStatement
  refine bindClosed h (Cst.mayLookUp_of_kind hk rfl rfl) (by rw [hk]; rfl)
    fun block block' _ _ hblock => ?_
  refine (hf.plain rfl hblock).bind fun body body' _ _ hbody => ?_
  refine ((Outcome.Alike.onSome (S.clause h hk rfl) fun c d hc _ hcd =>
    hf.rel .catchClause c d trivial ⟨hcd.1, Cst.height_lt_of_field? hc⟩ fun _ => hcd.2).mono
      fun _ _ => optionRel_of_rel).bind fun handler handler' _ _ hhandler => ?_
  refine ((Outcome.Alike.onSome (S.clause h hk rfl) fun c d hc _ hcd =>
    finalizer hf hcd.1 (Cst.height_lt_of_field? hc) hcd.2).mono
      fun _ _ => optionRel_of_rel).bind fun last last' _ _ hlast => .pure ?_
  simp only [ShapeRel, Shape.map, hbody, hhandler, hlast]

/-! ## Loops -/

omit hf in
theorem lastByte_declarations (hplain : n.kind.isPlain) (hp : S.placed) :
    (n.named.getLast?.map Cst.lastByte).getD n.lastByte
      = (m.named.getLast?.map Cst.lastByte).getD m.lastByte := by
  have hlast := optionRel_getLast? (named_sub h hplain)
  generalize n.named.getLast? = o, m.named.getLast? = p at hlast
  cases hlast with
  | none => exact S.lastByte (.inl h) hp
  | some hcd => exact S.lastByte hcd.kin hp

theorem forPart : S.Same S.TreeRel (Convert.forPart ctx₁ f n) (Convert.forPart ctx₂ g m) := by
  unfold Convert.forPart
  rw [← kind_eq h]
  split
  case h_1 hk =>
    exact variableList h hf (.inl hk) (lastByte_declarations h (by rw [hk]; rfl))
  case h_2 hk =>
    exact variableList h hf (.inr hk) (lastByte_declarations h (by rw [hk]; rfl))
  case h_3 hk => exact hf.firstExpression h (by rw [hk]; rfl)
  case h_4 => exact expression h hf

theorem forLoop (hk : n.kind = .forStatement) :
    S.Same S.ShapeRel (Convert.forLoop ctx₁ f n) (Convert.forLoop ctx₂ g m) := by
  have part {name : String} (hname : n.mayLookUp name) :
      Option.Rel (S.Sub n) ((n.field? name).filter (!·.isEmptyPart))
        ((m.field? name).filter (!·.isEmptyPart)) := by
    have hfield := field_sub h _ hname
    generalize n.field? name = o, m.field? name = p at hfield
    cases hfield with
    | none => exact .none
    | some hcd =>
      rw [Option.filter_some, Option.filter_some, isEmptyPart_eq hcd.kin]
      split
      · exact .some hcd
      · exact .none
  unfold Convert.forLoop
  refine (hf.onSome (fun _ _ => by trivial) (part rfl)).bind fun init init' _ _ hinit => ?_
  refine (hf.onSome (fun _ _ => by trivial) (part rfl)).bind fun test test' _ _ htest => ?_
  refine (hf.onExpression (field_sub h _ rfl)).bind
    fun update update' _ _ hupdate => ?_
  refine hf.bindStatement h (Cst.mayLookUp_of_kind hk rfl rfl) (by rw [hk]; rfl)
    fun body body' hbody => .pure ?_
  simp only [ShapeRel, Shape.map, hinit, htest, hupdate, hbody]

theorem loopVariable {keyword keyword' name name' : Cst} (hkeyword : S.Rel keyword keyword')
    (htext : ctx₁.text keyword = ctx₂.text keyword') (hname : S.Sub n name name')
    (hdeclares : S.Declares name) :
    S.Same S.TreeRel (Convert.loopVariable ctx₁ f n keyword name)
      (Convert.loopVariable ctx₂ g m keyword' name') := by
  have hvalue := field_sub h "value" rfl
  have hstop (hp : S.placed) : ((n.field? "value").getD name).lastByte
      = ((m.field? "value").getD name').lastByte := by
    generalize n.field? "value" = o, m.field? "value" = p at hvalue
    cases hvalue with
    | none => exact S.lastByte hname.kin hp
    | some hcd => exact S.lastByte hcd.kin hp
  unfold Convert.loopVariable
  refine (variableKind hkeyword htext).bind ?_
  rintro kind _ _ _ rfl
  refine (hf.onExpression hvalue).bind fun init init' _ _ hinit => ?_
  refine (hf.apply (show S.May .binding name from hdeclares) hname).bind fun id id' _ _ hid =>
    .pure ?_
  have hdeclarator := nodeAt h (S.firstByte hname.kin) hstop
    (s := .variableDeclarator id init) (t := .variableDeclarator id' init')
    (by simp only [ShapeRel, Shape.map, hid, hinit])
  refine nodeAt h (S.start hkeyword) hstop ?_
  simp only [ShapeRel, Shape.map, List.map, hdeclarator]

theorem loopTarget (hk : n.kind = .forInStatement) {name name' : Cst}
    (hleft : n.field? "left" = some name) (hname : S.Sub n name name') :
    S.Same S.TreeRel (Convert.loopTarget ctx₁ f n name) (Convert.loopTarget ctx₂ g m name') := by
  have hread : n.kind.readFields.contains "kind" := by rw [hk]; rfl
  have hkeyword := S.readField h hread
  unfold Convert.loopTarget
  generalize hn : n.field? "kind" = o, m.field? "kind" = p at hkeyword
  cases hkeyword with
  | none =>
    have hassigns : S.Assigns name := S.assigns h (.loop hk hn hleft)
    exact hf.apply (show S.May .target name from hassigns) hname
  | some hcd =>
    have hdeclares : S.Declares name :=
      S.introduces (.inl h) (.loop hk (by rw [hn]; rfl) hleft)
    exact loopVariable h hf hcd.1 hcd.2 hname hdeclares

theorem loopOver (hk : n.kind = .forInStatement) :
    S.Same S.ShapeRel (Convert.loopOver ctx₁ f n) (Convert.loopOver ctx₂ g m) := by
  unfold Convert.loopOver
  refine bindField h rfl fun name name' hn _ hname => ?_
  refine (loopTarget h hf hk hn hname).bind fun left left' _ _ hleft => ?_
  refine hf.bindExpression h rfl fun right right' hright => ?_
  refine hf.bindStatement h (Cst.mayLookUp_of_kind hk rfl rfl) (by rw [hk]; rfl)
    fun body body' hbody => ?_
  refine bindRead h (by rw [hk]; rfl) fun op op' _ hop htext => ?_
  rw [htext]
  split
  · exact .pure (by simp only [ShapeRel, Shape.map, hleft, hright, hbody])
  · have hawait := hasToken_eq h (by rw [hk]; rfl) "await"
    exact .pure (by simp only [ShapeRel, Shape.map, hleft, hright, hbody, hawait])
  · exact unexpected hop

theorem whileLoop (hk : n.kind = .whileStatement) :
    S.Same S.ShapeRel (Convert.whileLoop ctx₁ f n) (Convert.whileLoop ctx₂ g m) := by
  unfold Convert.whileLoop
  refine hf.bindExpression h rfl fun test test' htest => ?_
  refine hf.bindStatement h (Cst.mayLookUp_of_kind hk rfl rfl) (by rw [hk]; rfl)
    fun body body' hbody => .pure ?_
  simp only [ShapeRel, Shape.map, htest, hbody]

theorem doLoop (hk : n.kind = .doStatement) :
    S.Same S.ShapeRel (Convert.doLoop ctx₁ f n) (Convert.doLoop ctx₂ g m) := by
  unfold Convert.doLoop
  refine hf.bindStatement h (Cst.mayLookUp_of_kind hk rfl rfl) (by rw [hk]; rfl)
    fun body body' hbody => ?_
  refine hf.bindExpression h rfl fun test test' htest => .pure ?_
  simp only [ShapeRel, Shape.map, htest, hbody]

theorem withStatement (hk : n.kind = .withStatement) :
    S.Same S.ShapeRel (Convert.withStatement ctx₁ f n) (Convert.withStatement ctx₂ g m) := by
  unfold Convert.withStatement
  refine hf.bindExpression h rfl fun object object' hobject => ?_
  refine hf.bindStatement h (Cst.mayLookUp_of_kind hk rfl rfl) (by rw [hk]; rfl)
    fun body body' hbody => .pure ?_
  simp only [ShapeRel, Shape.map, hobject, hbody]

theorem labeled (hk : n.kind = .labeledStatement) :
    S.Same S.ShapeRel (Convert.labeled ctx₁ f n) (Convert.labeled ctx₂ g m) := by
  unfold Convert.labeled
  refine bindRead h (by rw [hk]; rfl) fun c d _ hcd htext => ?_
  have hlabel := identifier hcd htext
  refine hf.bindStatement h (Cst.mayLookUp_of_kind hk rfl rfl) (by rw [hk]; rfl)
    fun body body' hbody => .pure ?_
  simp only [ShapeRel, Shape.map, hlabel, hbody]

omit hf in
theorem jumpLabel (hread : n.kind.readFields.contains "label") :
    S.OptionRel (Convert.jumpLabel ctx₁ n) (Convert.jumpLabel ctx₂ m) := fieldIdentifier h hread

theorem statement :
    S.Same S.TreeRel (Convert.statement ctx₁ f n) (Convert.statement ctx₂ g m) := by
  have close {x : Outcome (Shape (Tree μ))} {y : Outcome (Shape (Tree ν))}
      (hxy : S.Same S.ShapeRel x y) : S.Same S.TreeRel (ctx₁.node n <$> x) (ctx₂.node m <$> y) :=
    hxy.map fun s t hst => node h hst
  unfold Convert.statement
  rw [← kind_eq h]
  split
  case h_1 => exact block h hf
  case h_2 hk => exact variableList h hf (.inl hk) (S.lastByte (.inl h))
  case h_3 hk => exact variableList h hf (.inr hk) (S.lastByte (.inl h))
  case h_4 hk | h_5 hk =>
    exact function h hf _ (Cst.mayLookUp_of_kind hk rfl rfl) (by rw [hk]; rfl)
      (fun _ => by rw [hk]; rfl) fun _ => by rw [hk]; rfl
  case h_6 hk => exact classLike h hf _ (.inl hk)
  case h_7 hk =>
    refine hf.bindFirstExpression h (by rw [hk]; rfl) fun t u htu => .pure (node h ?_)
    simp only [ShapeRel, Shape.map, htu]
  case h_8 | h_9 => exact .pure (node h rfl)
  case h_10 hk => exact close (branch h hf hk)
  case h_11 hk => exact close (switch h hf hk)
  case h_12 hk => exact close (tryStatement h hf hk)
  case h_13 hk => exact close (whileLoop h hf hk)
  case h_14 hk => exact close (doLoop h hf hk)
  case h_15 hk => exact close (forLoop h hf hk)
  case h_16 hk => exact close (loopOver h hf hk)
  case h_17 hk => exact close (withStatement h hf hk)
  case h_18 hk | h_19 hk =>
    have hlabel := jumpLabel h (by rw [hk]; rfl)
    exact .pure (node h (by simp only [ShapeRel, Shape.map, hlabel]))
  case h_20 hk =>
    have hfirst := optionRel_head? (named_sub h (by rw [hk]; rfl))
    refine (hf.onExpression hfirst).bind fun t u _ _ htu => .pure (node h ?_)
    simp only [ShapeRel, Shape.map, htu]
  case h_21 hk =>
    refine hf.bindFirstExpression h (by rw [hk]; rfl) fun t u htu => .pure (node h ?_)
    simp only [ShapeRel, Shape.map, htu]
  case h_22 hk => exact close (labeled h hf hk)
  case h_23 => exact unexpected h

/-! ## Imports and exports -/

section
omit h hf

theorem moduleSource (h : S.Rel n m) :
    S.Same S.TreeRel (Convert.moduleSource ctx₁ n) (Convert.moduleSource ctx₂ m) :=
  (expect h .string).seq fun _ _ => literal h

/-- The keyword `default` may stand for a name, and no other token. -/
theorem exportName (h : S.Rel n m)
    (hdefault : n.isToken "default" → ctx₁.text n = ctx₂.text m) :
    S.Same S.TreeRel (Convert.exportName ctx₁ n) (Convert.exportName ctx₂ m) := by
  unfold Convert.exportName
  rw [← kind_eq h, ← isToken_eq (.inl h)]
  split
  case isTrue => exact literal h
  split
  case isTrue hname =>
    refine .pure (identifier h ?_)
    rcases Bool.or_eq_true_iff.1 hname with hk | ht
    · exact S.text h (Cst.isRead_of_isIdentifier hk)
    · exact hdefault ht
  case isFalse => exact unexpected h

/-- A name that is found among named nodes is no keyword. -/
theorem exportName_of_named (h : S.Rel n m) (hn : n.head.isNamed) :
    S.Same S.TreeRel (Convert.exportName ctx₁ n) (Convert.exportName ctx₂ m) :=
  exportName h fun ht => by simp [Cst.isToken, hn] at ht

theorem rejectTypeModifier (h : S.Rel n m) (hplain : n.kind.isPlain) :
    S.Same (fun _ _ => True) (Convert.rejectTypeModifier ctx₁ n)
      (Convert.rejectTypeModifier ctx₂ m) :=
  reject (forall₂_toList (token?_rel h hplain "type"))

theorem importSpecifier (h : S.Rel n m) :
    S.Same S.TreeRel (Convert.importSpecifier ctx₁ n) (Convert.importSpecifier ctx₂ m) := by
  unfold Convert.importSpecifier
  refine (expect h .importSpecifier).bind fun _ _ _ _ hk => ?_
  refine bindClosed h rfl (by rw [hk]; rfl) fun c d hc hd hcd => ?_
  refine (exportName hcd.rel (S.defaultText h (.inl hk) rfl hc hd)).bind
    fun imported imported' _ _ himported => .pure (node h ?_)
  have hread : n.kind.readFields.contains "alias" := by rw [hk]; rfl
  have halias := treeRel_getD (fieldIdentifier h hread) himported
  simp only [ShapeRel, Shape.map, himported, halias]

theorem importBinding (h : S.Rel n m) :
    S.Same S.ListRel (Convert.importBinding ctx₁ n) (Convert.importBinding ctx₂ m) := by
  unfold Convert.importBinding
  rw [← kind_eq h]
  split
  case h_1 hk =>
    have hname := identifier h (S.text h (by simp [Cst.isRead, hk, Kind.isIdentifier]))
    have hspecifier : S.TreeRel (ctx₁.node n (.importDefaultSpecifier (ctx₁.identifier n)))
        (ctx₂.node m (.importDefaultSpecifier (ctx₂.identifier m))) :=
      node h (by simp only [ShapeRel, Shape.map, hname])
    exact .pure (by simp only [ListRel, List.map, hspecifier])
  case h_2 hk =>
    refine bindHead h (S.firstText h hk) fun c d _ hcd => .pure ?_
    have hname := identifier hcd.1 hcd.2
    have hspecifier : S.TreeRel (ctx₁.node n (.importNamespaceSpecifier (ctx₁.identifier c)))
        (ctx₂.node m (.importNamespaceSpecifier (ctx₂.identifier d))) :=
      node h (by simp only [ShapeRel, Shape.map, hname])
    simp only [ListRel, List.map, hspecifier]
  case h_3 hk =>
    exact (Outcome.Alike.mapM (named_low h (by rw [hk]; rfl)) fun _ _ _ _ h =>
      importSpecifier h.rel).mono fun _ _ => listRel_of_forall₂
  case h_4 => exact unexpected h

theorem importPart (h : S.Rel n m) :
    S.Same S.ListRel (Convert.importPart ctx₁ n) (Convert.importPart ctx₂ m) := by
  unfold Convert.importPart
  rw [← kind_eq h]
  split
  case h_1 hk =>
    exact (Outcome.Alike.mapM (named_low h (by rw [hk]; rfl)) fun _ _ _ _ h =>
      importBinding h.rel).bind fun ts us _ _ htu => .pure (listRel_flatten htu)
  case h_2 => exact .pure rfl
  case h_3 => exact unexpected h

theorem importDeclaration (h : S.Rel n m) (hk : n.kind = .importStatement) :
    S.Same S.TreeRel (Convert.importDeclaration ctx₁ n) (Convert.importDeclaration ctx₂ m) := by
  unfold Convert.importDeclaration
  refine (rejectTypeModifier h (by rw [hk]; rfl)).seq fun _ _ => ?_
  refine bindClosed h rfl (by rw [hk]; rfl) fun c d _ _ hcd => ?_
  refine (moduleSource hcd.rel).bind fun source source' _ _ hsource => ?_
  refine (Outcome.Alike.mapM (named_low h (by rw [hk]; rfl)) fun _ _ _ _ h =>
    importPart h.rel).bind fun ts us _ _ htu => .pure (node h ?_)
  simp only [ShapeRel, Shape.map, listRel_flatten htu, hsource]

theorem exportSpecifier (h : S.Rel n m) :
    S.Same S.TreeRel (Convert.exportSpecifier ctx₁ n) (Convert.exportSpecifier ctx₂ m) := by
  unfold Convert.exportSpecifier
  refine (expect h .exportSpecifier).bind fun _ _ _ _ hk => ?_
  refine bindClosed h rfl (by rw [hk]; rfl) fun c d hc hd hcd => ?_
  refine (exportName hcd.rel (S.defaultText h (.inr hk) rfl hc hd)).bind
    fun name name' _ _ hname => ?_
  have halias := field_low h "alias" rfl (by rw [hk]; rfl)
  refine ((Outcome.Alike.onSome halias fun c d hc hd hcd =>
    exportName hcd.rel (S.defaultText h (.inr hk) rfl hc hd)).mono fun _ _ => optionRel_of_rel).bind
      fun outer outer' _ _ houter => .pure (node h ?_)
  have hexported := treeRel_getD houter hname
  simp only [ShapeRel, Shape.map, hname, hexported]

theorem exportNames (h : S.Rel n m) (hk : n.kind = .exportStatement) :
    S.Same S.ShapeRel (Convert.exportNames ctx₁ n) (Convert.exportNames ctx₂ m) := by
  have hplain : n.kind.isPlain := by rw [hk]; rfl
  have hfrom := field_low h "source" rfl (by rw [hk]; rfl)
  have hclause := optionRel_find?
    (p := fun c => c.kind == .exportClause || c.kind == .namespaceExport)
    (q := fun c => c.kind == .exportClause || c.kind == .namespaceExport) (named_sub h hplain)
    fun c d h =>
      kind_pred h.kin (p := fun k => k == .exportClause || k == .namespaceExport) rfl
  unfold Convert.exportNames
  refine (rejectTypeModifier h hplain).seq fun _ _ => ?_
  refine (Outcome.Alike.onSome hfrom fun _ _ _ _ h => moduleSource h.rel).bind
    fun source source' _ _ hsource => ?_
  generalize n.named.find? _ = o, m.named.find? _ = p at hclause
  cases hclause with
  | none =>
    cases hsource with
    | none => exact unexpected h
    | some hsource =>
      dsimp only
      rw [hasToken_eq h hplain]
      split
      · exact .pure (by simp only [ShapeRel, Shape.map, hsource, Option.map])
      · exact unexpected h
  | @some c d hcd =>
    have hk : c.kind = .exportClause ∨ c.kind = .namespaceExport := by simpa using hcd.2
    have hrel := rel_of_kind hcd.1.kin (by rcases hk with hk | hk <;> rw [hk] <;> rfl)
    have hchildren := named_low hrel (by rcases hk with hk | hk <;> rw [hk] <;> rfl)
    dsimp only
    rw [kind_eq hrel]
    split
    case isTrue =>
      refine (Outcome.Alike.mapM hchildren fun _ _ _ _ h => exportSpecifier h.rel).bind
        fun ts us _ _ htu => .pure ?_
      have hlist := listRel_of_forall₂ htu
      have hoption := optionRel_of_rel hsource
      simp only [ShapeRel, Shape.map, hlist, hoption, Option.map_none]
    case isFalse =>
      cases hsource with
      | none => exact unexpected h
      | some hsource =>
        refine bindHead hrel (optionRel_head? hchildren) fun a b ha hab => ?_
        refine (exportName_of_named hab.rel (Cst.isNamed_of_mem_named (List.mem_of_head? ha))).bind
          fun t u _ _ htu => .pure ?_
        simp only [ShapeRel, Shape.map, hsource, htu, Option.map]

end

theorem exportShape (hk : n.kind = .exportStatement) :
    S.Same S.ShapeRel (Convert.exportShape ctx₁ f n) (Convert.exportShape ctx₂ g m) := by
  have hplain : n.kind.isPlain := by rw [hk]; rfl
  have hdeclaration := field_low h "declaration" rfl (by rw [hk]; rfl)
  have hvalue := field_sub h "value" rfl
  unfold Convert.exportShape
  generalize n.field? "declaration" = o, m.field? "declaration" = p at hdeclaration
  generalize n.field? "value" = q, m.field? "value" = r at hvalue
  cases hdeclaration with
  | some hcd =>
    dsimp only
    refine (hf.plain rfl hcd).bind fun t u _ _ htu => .pure ?_
    rw [hasToken_eq h hplain]
    split <;> simp only [ShapeRel, Shape.map, List.map, Option.map, htu]
  | none =>
    cases hvalue with
    | some hcd =>
      refine (hf.expression hcd).bind fun t u _ _ htu => .pure ?_
      simp only [ShapeRel, Shape.map, htu]
    | none =>
      dsimp only
      rw [hasToken_eq h hplain]
      split
      · refine hf.bindFirstExpression h hplain fun t u htu => .pure ?_
        simp only [ShapeRel, Shape.map, htu]
      · exact exportNames h hk

theorem moduleItem :
    S.Same S.TreeRel (Convert.moduleItem ctx₁ f n) (Convert.moduleItem ctx₂ g m) := by
  unfold Convert.moduleItem
  rw [← kind_eq h]
  split
  case h_1 hk =>
    exact (reject (S.decorators h)).seq fun _ _ =>
      (exportShape h hf hk).bind fun s t _ _ hst => .pure (node h hst)
  case h_2 hk => exact importDeclaration h hk
  case h_3 => exact statement h hf

/-! ## All roles -/

/-- The rule of a role runs alike on nodes seen alike. -/
theorem rule (role : Role) (hn : S.Stands role n)
    (hbody : role = .catchClause → Option.Rel S.Rel (n.field? "body") (m.field? "body")) :
    S.Same S.TreeRel (Convert.rule ctx₁ f role n) (Convert.rule ctx₂ g role m) := by
  cases role with
  | moduleItem => exact moduleItem h hf
  | statement => exact statement h hf
  | block => exact block h hf
  | forPart => exact forPart h hf
  | declarator => exact declarator h hf
  | switchCase => exact switchCase h hf
  | catchClause => exact catchClause h hf (hbody rfl)
  | expression => exact expression h hf
  | objectMember => exact objectMember h hf
  | propertyKey => exact propertyKey h hf
  | parameter => exact parameter h hf hn
  | classMember => exact classMember h hf
  | binding => exact binding h hf hn
  | bindingMember => exact bindingMember h hf hn
  | target => exact target h hf hn (expression h hf)
  | targetMember => exact targetMember h hf hn

end Estree.Simulation
