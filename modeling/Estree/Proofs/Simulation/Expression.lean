import Estree.Proofs.Sequence.Basic
import Estree.Proofs.Simulation.Pattern

/-!
# Functions, classes and expressions run alike

The field `body` of a node can only be compared where the node is no case of a switch, which the kind
of a function, a class or a method rules out. A list of parameters, a list of arguments, a body and
the name of a method stand where neither an expression stands nor a pattern, so they are seen alike.
-/

namespace Estree.Simulation

variable {κ μ ν : Type} {ctx₁ : Context μ} {ctx₂ : Context ν} {S : Simulation κ ctx₁ ctx₂}
variable {n m : Cst}

/-! ## What is read of functions and classes -/

section
variable (h : S.Rel n m)
include h

theorem wrapped?_sub (hplain : n.kind.isPlain) :
    Option.Rel (S.Sub n) n.wrapped? m.wrapped? := by
  unfold Cst.wrapped?
  rw [kind_eq h]
  split
  · exact optionRel_getLast? (named_sub h hplain)
  · exact optionRel_head? (named_sub h hplain)

theorem fieldIdentifier {name : String} (hread : n.kind.readFields.contains name) :
    S.OptionRel ((n.field? name).map ctx₁.identifier) ((m.field? name).map ctx₂.identifier) := by
  have hfield := S.readField h hread
  generalize n.field? name = o, m.field? name = p at hfield
  cases hfield with
  | none => rfl
  | some hcd => exact congrArg some (identifier hcd.1 hcd.2)

/-- What follows the look-up of a field that is read as a name runs alike on the name. -/
theorem bindName {name : String} (hread : n.kind.readFields.contains name) :
    S.Same S.OptionRel (ctx₁.field n name >>= fun c => pure (some (ctx₁.identifier c)))
      (ctx₂.field m name >>= fun d => pure (some (ctx₂.identifier d))) :=
  bindRead h hread fun _ _ _ hcd htext => .pure (congrArg some (identifier hcd htext))

end

variable {f : Converter μ} {g : Converter ν}

/-! ## Parameters -/

theorem parameters_of_rel (h : S.Rel n m) (hk : n.isParameter) :
    S.Parameters (fun c d => S.Fail (ctx₁.unsupported c) (ctx₂.unsupported d)) n m where
  left := hk
  right := isParameter_eq h ▸ hk
  decorators := S.decorators h
  pattern := S.field h rfl
  missing := fun _ => S.fail h
  value := S.field h rfl

/-- A parameter with its type runs alike with another one. -/
theorem parameter_of (h : S.Rel n m ∨ S.Param n m)
    (hview : S.Parameters (fun c d => S.Fail (ctx₁.unsupported c) (ctx₂.unsupported d)) n m)
    (hf : S.Lower n f g) :
    S.Same S.TreeRel (Convert.parameter ctx₁ f n) (Convert.parameter ctx₂ g m) := by
  have hmay {c : Cst} (hc : n.field? "pattern" = some c) : S.May .binding c :=
    S.introduces h (.pattern hview.left hc)
  have hpattern := hview.pattern
  have hvalue := hview.value
  unfold Convert.parameter Context.field
  rw [if_pos hview.left, if_pos hview.right]
  refine (reject hview.decorators).seq fun _ _ => ?_
  generalize hn : n.field? "pattern" = o, m.field? "pattern" = p at hpattern
  cases hpattern with
  | none =>
    exact .bind (V := fun _ _ => False) (.fail (hview.missing hn)) fun _ _ _ _ hab => hab.elim
  | @some c d hcd =>
    simp only [pure_bind]
    refine (hf.apply (hmay hn) ⟨hcd, Cst.height_lt_of_field? hn⟩).bind
      fun left left' _ _ hleft => ?_
    generalize hv : n.field? "value" = o, m.field? "value" = p at hvalue
    cases hvalue with
    | none => exact .pure hleft
    | some hvw =>
      refine (hf.expression ⟨hvw, Cst.height_lt_of_field? hv⟩).bind
        fun right right' _ _ hright => .pure ?_
      exact nodeAt_of h (S.firstByte hcd) (S.lastByte hvw)
        (by simp only [ShapeRel, Shape.map, hleft, hright])

theorem parameter (h : S.Rel n m) (hf : S.Lower n f g) (hn : S.Declares n) :
    S.Same S.TreeRel (Convert.parameter ctx₁ f n) (Convert.parameter ctx₂ g m) := by
  cases hk : n.isParameter with
  | true => exact parameter_of (.inl h) (parameters_of_rel h hk) hf
  | false =>
    unfold Convert.parameter
    rw [← isParameter_eq h, hk]
    exact binding h hf hn

/-- A list of conversions runs alike item by item, if what the second list lacks stops the first. -/
theorem mapM_but {R : Cst → Cst → Prop} {Q : Cst → Prop} {cs ds : List Cst}
    (h : Forall₂But R Q cs ds) {φ : Cst → Outcome (Tree μ)} {ψ : Cst → Outcome (Tree ν)}
    (hR : ∀ c ∈ cs, ∀ d, R c d → S.Same S.TreeRel (φ c) (ψ d))
    (hQ : ∀ c ∈ cs, Q c → (φ c).Stops S.Excused) :
    S.Same S.ListRel (cs.mapM φ) (ds.mapM ψ) := by
  induction h with
  | nil => exact .pure rfl
  | @cons c d cs ds hcd _ ih =>
    rw [List.mapM_cons, List.mapM_cons]
    refine (hR c (.head _) d hcd).bind fun t u _ _ htu => ?_
    refine (ih (fun c hc => hR c (.tail _ hc)) fun c hc => hQ c (.tail _ hc)).bind
      fun ts us _ _ htus => .pure ?_
    simp only [ListRel, List.map_cons, htu, htus]
  | @skip c cs ds hc _ _ =>
    rw [List.mapM_cons]
    exact .stops (hQ c (.head _) hc).bind

theorem parameters (h : S.Rel n m) (hf : S.Lower n f g) :
    S.Same S.ListRel (Convert.parameters ctx₁ f n) (Convert.parameters ctx₂ g m) := by
  unfold Convert.parameters
  refine (expect h .formalParameters).bind fun _ _ _ _ hk => ?_
  have hlt : ∀ c ∈ n.named.filter (!·.isThisParameter), c.height < n.height := fun c hc =>
    Cst.height_lt_of_mem_named (List.mem_filter.1 hc).1
  refine mapM_but (S.parameterList h hk) (fun c hc d hcd => ?_) fun c hc hblocks =>
    hf.blocked c hblocks (hlt c hc)
  rcases hcd with hkin | hparam
  · have hmay : S.May .parameter c := S.introduces (.inl h) (.listed hk (List.mem_filter.1 hc).1)
    exact hf.apply hmay ⟨hkin, hlt c hc⟩
  · exact hf.parameter c d hparam (hlt c hc)

variable (h : S.Rel n m) (hf : S.Lower n f g)
include h hf

/-! ## Functions -/

omit hf in
theorem functionName (form : FunctionForm)
    (hread : form ≠ .arrow → n.kind.readFields.contains "name") :
    S.Same S.OptionRel (Convert.functionName ctx₁ form n) (Convert.functionName ctx₂ form m) := by
  cases form with
  | declaration => exact bindName h (hread nofun)
  | expression => exact .pure (fieldIdentifier h (hread nofun))
  | arrow => exact .pure rfl

theorem functionParameters (hlist : n.kind.closedFields.contains "parameters") :
    S.Same S.ListRel (Convert.functionParameters ctx₁ f n)
      (Convert.functionParameters ctx₂ g m) := by
  have hparam := field_sub h "parameter" rfl
  unfold Convert.functionParameters
  generalize hn : n.field? "parameter" = o, m.field? "parameter" = p at hparam
  cases hparam with
  | none =>
    exact bindClosed h rfl hlist fun c d _ _ hcd => parameters hcd.rel (hf.mono hcd.lt)
  | @some c d hcd =>
    have hmay : S.May .binding c := S.introduces (.inl h) (.single hn)
    exact (hf.apply hmay hcd).bind fun t u _ _ htu =>
      .pure (by simp only [ListRel, List.map, htu])

omit h hf in
theorem isBlock_eq {c d : Cst} (hcd : S.Kin c d) :
    (c.kind == .statementBlock) = (d.kind == .statementBlock) :=
  kind_pred hcd (p := (· == .statementBlock)) rfl

omit h in
theorem functionBody (form : FunctionForm) {c d : Cst} (hcd : S.Sub n c d)
    (hrel : form ≠ .arrow → S.Rel c d) :
    S.Same S.TreeRel (Convert.functionBody ctx₁ f form c)
      (Convert.functionBody ctx₂ g form d) := by
  have hblock := isBlock_eq hcd.kin
  unfold Convert.functionBody
  simp only [beq_eq_decide, decide_eq_decide] at hblock
  simp only [← hblock]
  split
  case isTrue hk =>
    have hlow : S.Low n c d := ⟨rel_of_kind hcd.kin (by rw [hk]; rfl), hcd.lt⟩
    exact hf.plain rfl hlow
  case isFalse =>
    split
    · exact hf.expression hcd
    · exact unexpected (hrel ‹_›)

omit h hf in
theorem functionShape (form : FunctionForm) {s : FunctionShape (Tree μ)}
    {t : FunctionShape (Tree ν)} (hst : s.map (Tree.map S.left) = t.map (Tree.map S.right)) :
    S.ShapeRel (form.shape s) (form.shape t) := by
  cases form <;> simp only [ShapeRel, FunctionForm.shape, Shape.map, hst]

theorem function (form : FunctionForm) (hlook : n.mayLookUp "body")
    (hlist : n.kind.closedFields.contains "parameters")
    (hread : form ≠ .arrow → n.kind.readFields.contains "name")
    (hclosed : form ≠ .arrow → n.kind.closedFields.contains "body") :
    S.Same S.TreeRel (Convert.function ctx₁ f form n) (Convert.function ctx₂ g form m) := by
  unfold Convert.function
  refine (functionName h form hread).bind fun id id' _ _ hid => ?_
  refine (functionParameters h hf hlist).bind fun params params' _ _ hparams => ?_
  refine bindField h hlook fun c d hc _ hcd => ?_
  have hrel (hform : form ≠ .arrow) : S.Rel c d :=
    rel_of_closed h (Cst.mem_children_of_field? hc) (Cst.not_opensTo_of_field? hc (hclosed hform))
      hcd.kin
  refine (functionBody hf form hcd hrel).bind fun body body' _ _ hbody => .pure ?_
  refine node h (functionShape form ?_)
  simp only [FunctionShape.map, hid, hparams, hbody, S.functionModifiers h, kind_eq h, bne,
    isBlock_eq hcd.kin]

theorem methodValue (hk : n.kind = .methodDefinition) (modifiers : Modifiers) :
    S.Same S.TreeRel (Convert.methodValue ctx₁ f n modifiers)
      (Convert.methodValue ctx₂ g m modifiers) := by
  unfold Convert.methodValue
  refine bindClosed h rfl (by rw [hk]; rfl) fun list list' _ _ hlist => ?_
  refine bindClosed h (Cst.mayLookUp_of_kind hk rfl rfl) (by rw [hk]; rfl)
    fun body body' _ _ hbody => ?_
  refine (parameters hlist.rel (hf.mono hlist.lt)).bind fun params params' _ _ hparams => ?_
  refine (hf.plain rfl hbody).bind fun block block' _ _ hblock => .pure ?_
  refine nodeAt h (S.firstByte (.inl hlist.rel)) (S.lastByte (.inl h)) ?_
  simp only [ShapeRel, Shape.map, FunctionShape.map, Option.map, hparams, hblock]

theorem objectMethod (hk : n.kind = .methodDefinition) :
    S.Same S.ShapeRel (Convert.objectMethod ctx₁ f n) (Convert.objectMethod ctx₂ g m) := by
  unfold Convert.objectMethod
  refine bindClosed h rfl (by rw [hk]; rfl) fun name name' hn hm hname => ?_
  refine (hf.plain rfl hname).bind fun key key' _ _ hkey => ?_
  rw [S.methodModifiers h hn hm hname.rel]
  refine (methodValue h hf hk _).bind fun value value' _ _ hvalue => .pure ?_
  simp only [ShapeRel, Shape.map, hkey, hvalue, isComputed_eq (.inl hname.rel)]

/-! ## Classes -/

omit h hf in
theorem methodKind_eq {c d : Cst} (hcd : S.Rel c d) (modifiers : Modifiers) :
    Convert.methodKind ctx₁ c modifiers = Convert.methodKind ctx₂ d modifiers := by
  have hname : Convert.namesConstructor ctx₁ c = Convert.namesConstructor ctx₂ d := by
    unfold Convert.namesConstructor
    rw [← kind_eq hcd]
    split
    case isTrue hk => rw [S.text hcd (by simp [Cst.isRead, hk])]
    case isFalse =>
      cases hk : c.kind.isIdentifier with
      | true => rw [S.text hcd (Cst.isRead_of_isIdentifier hk)]
      | false => rfl
  unfold Convert.methodKind
  rw [hname]

theorem classMember :
    S.Same S.TreeRel (Convert.classMember ctx₁ f n) (Convert.classMember ctx₂ g m) := by
  unfold Convert.classMember
  refine (expect h .methodDefinition).bind fun _ _ _ _ hk => ?_
  refine bindClosed h rfl (by rw [hk]; rfl) fun name name' hn hm hname => ?_
  rw [S.methodModifiers h hn hm hname.rel]
  refine (hf.plain rfl hname).bind fun key key' _ _ hkey => ?_
  rw [methodKind_eq hname.rel]
  refine (methodValue h hf hk _).bind fun value value' _ _ hvalue => .pure (node h ?_)
  have hconstructor : S.TreeRel (ctx₁.node name (.identifier "constructor"))
      (ctx₂.node name' (.identifier "constructor")) := node hname.rel rfl
  simp only [ShapeRel, Shape.map, hvalue, isComputed_eq (.inl hname.rel)]
  split
  · rw [hconstructor]
  · rw [hkey]

theorem classBody :
    S.Same S.TreeRel (Convert.classBody ctx₁ f n) (Convert.classBody ctx₂ g m) := by
  unfold Convert.classBody
  refine (expect h .classBody).bind fun _ _ _ _ hk => ?_
  have hplain : n.kind.isPlain := by rw [hk]; rfl
  refine (hf.mapPlain rfl (named_low h (by rw [hk]; rfl))).bind
    fun members members' _ _ hmembers => .pure ?_
  refine nodeAt h (fun hp => ?_) (fun hp => ?_) (by simp only [ShapeRel, Shape.map, hmembers])
  · have hopen := token?_rel h hplain "\x7b"
    generalize n.token? "\x7b" = o, m.token? "\x7b" = p at hopen
    cases hopen with
    | none => exact S.start h hp
    | some hcd => exact S.stop hcd hp
  · have hclose := token?_rel h hplain "\x7d"
    generalize n.token? "\x7d" = o, m.token? "\x7d" = p at hclose
    cases hclose with
    | none => exact S.stop h hp
    | some hcd => exact S.start hcd hp

omit h hf in
theorem height_heritageClause? {clause : Cst} (hclause : n.heritageClause? = some clause) :
    clause.height < n.height := by
  obtain ⟨heritage, hheritage, hfind⟩ := Option.bind_eq_some_iff.1 hclause
  exact Nat.lt_trans (Cst.height_lt_of_mem_named (List.mem_of_find?_eq_some hfind))
    (Cst.height_lt_of_mem_named (List.mem_of_find?_eq_some hheritage))

omit hf in
theorem superClass (hk : n.kind = .classDeclaration ∨ n.kind = .classExpression) :
    S.Same (Option.Rel (S.Sub n)) (Convert.superClass ctx₁ n) (Convert.superClass ctx₂ m) := by
  have hclause := S.heritage h hk
  unfold Convert.superClass
  generalize hn : n.heritageClause? = o, m.heritageClause? = p at hclause
  cases hclause with
  | none => exact .pure .none
  | @some c d hcd =>
    have hlt := height_heritageClause? hn
    dsimp only
    rw [← kind_eq hcd]
    split
    case isTrue hextends =>
      have hvalue := field_sub hcd "value" rfl
      generalize hv : c.field? "value" = o, d.field? "value" = p at hvalue
      cases hvalue with
      | none =>
        refine bindHead hcd (S.extended hcd hextends hv) fun a b ha hab => .pure (.some ⟨hab, ?_⟩)
        exact Nat.lt_trans (Cst.height_lt_of_mem_named (List.mem_of_head? ha)) hlt
      | some h => exact .pure (.some (h.trans hlt))
    case isFalse => exact .pure (.some ⟨.inl hcd, hlt⟩)

omit hf in
theorem className (isDeclaration : Bool) (hread : n.kind.readFields.contains "name") :
    S.Same S.OptionRel (Convert.className ctx₁ isDeclaration n)
      (Convert.className ctx₂ isDeclaration m) := by
  unfold Convert.className
  split
  · exact bindName h hread
  · exact .pure (fieldIdentifier h hread)

theorem classLike (isDeclaration : Bool)
    (hk : n.kind = .classDeclaration ∨ n.kind = .classExpression) :
    S.Same S.TreeRel (Convert.classLike ctx₁ f isDeclaration n)
      (Convert.classLike ctx₂ g isDeclaration m) := by
  have hread : n.kind.readFields.contains "name" := by rcases hk with hk | hk <;> rw [hk] <;> rfl
  have hlook : n.mayLookUp "body" := by
    rcases hk with hk | hk <;> exact Cst.mayLookUp_of_kind hk rfl rfl
  have hclosed : n.kind.closedFields.contains "body" := by
    rcases hk with hk | hk <;> rw [hk] <;> rfl
  unfold Convert.classLike
  refine (reject (S.decorators h)).seq fun _ _ => ?_
  refine (className h isDeclaration hread).bind fun id id' _ _ hid => ?_
  refine (superClass h hk).bind fun clause clause' _ _ hclause => ?_
  refine (hf.onExpression hclause).bind fun extended extended' _ _ hextended => ?_
  refine bindClosed h hlook hclosed fun c d _ _ hcd => ?_
  refine (classBody hcd.rel (hf.mono hcd.lt)).bind fun body body' _ _ hbody => .pure (node h ?_)
  cases isDeclaration <;>
    simp [ShapeRel, Shape.map, ClassShape.map, hid, hextended, hbody]

/-! ## Expressions -/

omit hf in
theorem rejectOptionalChain :
    S.Same (fun _ _ => True) (Convert.rejectOptionalChain ctx₁ n)
      (Convert.rejectOptionalChain ctx₂ m) :=
  reject (S.optionalChains h)

omit hf in
theorem operator (allowed : List String) (htext : ctx₁.text n = ctx₂.text m) :
    S.Same Eq (Convert.operator ctx₁ allowed n) (Convert.operator ctx₂ allowed m) := by
  unfold Convert.operator
  rw [htext]
  split
  · exact .pure rfl
  · exact unexpected h

theorem typeWrapper (hplain : n.kind.isPlain) :
    S.Same S.TreeRel (Convert.typeWrapper ctx₁ f n) (Convert.typeWrapper ctx₂ g m) := by
  have hwrapped := wrapped?_sub h hplain
  unfold Convert.typeWrapper
  generalize n.wrapped? = o, m.wrapped? = p at hwrapped
  cases hwrapped with
  | none => exact unexpected h
  | some hcd => exact hf.expression hcd

theorem unary (hk : n.kind = .unaryExpression) :
    S.Same S.ShapeRel (Convert.unary ctx₁ f n) (Convert.unary ctx₂ g m) := by
  unfold Convert.unary
  refine bindRead h (by rw [hk]; rfl) fun c d _ hcd htext => ?_
  refine (operator hcd _ htext).bind ?_
  rintro op _ _ _ rfl
  refine hf.bindExpression h rfl fun t u htu => .pure ?_
  simp only [ShapeRel, Shape.map, htu]

omit h hf in
theorem contains_of_operator {allowed : List String} {ctx : Context μ} {op : String}
    (hop : (Convert.operator ctx allowed n).result = .ok op) : allowed.contains (ctx.text n) := by
  unfold Convert.operator at hop
  split at hop
  · assumption
  · cases hop

theorem update (hk : n.kind = .updateExpression) :
    S.Same S.ShapeRel (Convert.update ctx₁ f n) (Convert.update ctx₂ g m) := by
  unfold Convert.update
  refine bindFound h (S.readField h (by rw [hk]; rfl)) fun mark mark' ho ho' ⟨hmark, htext⟩ => ?_
  refine bindField h rfl fun argument argument' ha ha' hargument => ?_
  refine (operator hmark _ htext).bind ?_
  rintro op _ hop _ rfl
  refine (hf.expression hargument).bind fun t u _ _ htu => .pure ?_
  simp only [ShapeRel, Shape.map, htu, S.operatorFirst h hk ho ha ho' ha'
    (contains_of_operator hop)]

theorem binary (hk : n.kind = .binaryExpression) :
    S.Same S.ShapeRel (Convert.binary ctx₁ f n) (Convert.binary ctx₂ g m) := by
  unfold Convert.binary
  refine bindRead h (by rw [hk]; rfl) fun c d _ hcd htext => ?_
  rw [htext]
  refine hf.bindExpression h rfl fun left left' hleft => ?_
  refine hf.bindExpression h rfl fun right right' hright => .pure ?_
  unfold ShapeRel
  split <;> simp only [Shape.map, hleft, hright]

theorem sequence (hk : n.kind = .sequenceExpression) :
    S.Same S.ShapeRel (Convert.sequence f n) (Convert.sequence g m) := by
  rw [Convert.sequence_eq, Convert.sequence_eq]
  refine (hf.expressions (operands_sub h hk)).map fun ts us htu => ?_
  simp only [ShapeRel, Shape.map, htu]

omit hf in
theorem assignmentMark
    (hk : n.kind = .assignmentExpression ∨ n.kind = .augmentedAssignmentExpression) :
    S.Same (fun c d => S.Rel c d ∧ ctx₁.text c = ctx₂.text d) (Convert.assignmentMark ctx₁ n)
      (Convert.assignmentMark ctx₂ m) := by
  have hread : n.kind.readFields.contains "operator" := by
    rcases hk with hk | hk <;> rw [hk] <;> rfl
  have hoperator := S.readField h hread
  have htoken := token?_rel h (by rcases hk with hk | hk <;> rw [hk] <;> rfl) "="
  unfold Convert.assignmentMark
  generalize ho : n.field? "operator" = o, m.field? "operator" = p at hoperator
  cases hoperator with
  | some hcd => exact .pure hcd
  | none =>
    generalize hn : n.token? "=" = o, hm : m.token? "=" = p at htoken
    cases htoken with
    | none => exact unexpected h
    | some hcd => exact .pure ⟨hcd, S.assignText h hk ho hn hm⟩

theorem assignment
    (hk : n.kind = .assignmentExpression ∨ n.kind = .augmentedAssignmentExpression) :
    S.Same S.ShapeRel (Convert.assignment ctx₁ f n) (Convert.assignment ctx₂ g m) := by
  unfold Convert.assignment
  refine (assignmentMark h hk).bind fun c d _ _ ⟨hcd, htext⟩ => ?_
  refine (operator hcd _ htext).bind ?_
  rintro op _ _ _ rfl
  refine hf.bindField (fun c hc => ?_) h rfl fun left left' hleft => ?_
  · exact S.assigns h (.assignment hk hc)
  refine hf.bindExpression h rfl fun right right' hright => .pure ?_
  simp only [ShapeRel, Shape.map, hleft, hright]

theorem conditional :
    S.Same S.ShapeRel (Convert.conditional ctx₁ f n) (Convert.conditional ctx₂ g m) := by
  unfold Convert.conditional
  refine hf.bindExpression h rfl fun test test' htest => ?_
  refine hf.bindExpression h rfl fun yes yes' hyes => ?_
  refine hf.bindExpression h rfl fun no no' hno => .pure ?_
  simp only [ShapeRel, Shape.map, htest, hyes, hno]

theorem arguments :
    S.Same S.ListRel (Convert.arguments ctx₁ f n) (Convert.arguments ctx₂ g m) :=
  (expect h .arguments).bind fun _ _ _ _ hk =>
    hf.expressions (named_sub h (by rw [hk]; rfl))

theorem call (hk : n.kind = .callExpression) :
    S.Same S.ShapeRel (Convert.call ctx₁ f n) (Convert.call ctx₂ g m) := by
  unfold Convert.call
  refine (rejectOptionalChain h).seq fun _ _ => ?_
  refine hf.bindExpression h rfl fun callee callee' hcallee => ?_
  refine bindClosed h rfl (by rw [hk]; rfl) fun c d _ _ hcd => ?_
  rw [kind_eq hcd.rel]
  split
  · refine (hf.expression hcd.sub).bind fun t u _ _ htu => .pure ?_
    simp only [ShapeRel, Shape.map, hcallee, htu]
  · refine (arguments hcd.rel (hf.mono hcd.lt)).bind fun ts us _ _ htu => .pure ?_
    simp only [ShapeRel, Shape.map, hcallee, htu]

theorem creationArguments (hk : n.kind = .newExpression) :
    S.Same S.ListRel (Convert.creationArguments ctx₁ f n) (Convert.creationArguments ctx₂ g m) := by
  have hlist := field_low h "arguments" rfl (by rw [hk]; rfl)
  unfold Convert.creationArguments
  generalize n.field? "arguments" = o, m.field? "arguments" = p at hlist
  cases hlist with
  | none => exact .pure rfl
  | some hcd => exact arguments hcd.rel (hf.mono hcd.lt)

theorem creation (hk : n.kind = .newExpression) :
    S.Same S.ShapeRel (Convert.creation ctx₁ f n) (Convert.creation ctx₂ g m) := by
  unfold Convert.creation
  refine (creationArguments h hf hk).bind fun ts us _ _ htu => ?_
  refine hf.bindExpression h rfl fun callee callee' hcallee => .pure ?_
  simp only [ShapeRel, Shape.map, hcallee, htu]

omit hf in
theorem memberName (htext : ctx₁.text n = ctx₂.text m) :
    S.TreeRel (Convert.memberName ctx₁ n) (Convert.memberName ctx₂ m) := by
  unfold Convert.memberName
  rw [kind_eq h]
  split
  · exact privateIdentifier h htext
  · exact identifier h htext

theorem member (hk : n.kind = .memberExpression) :
    S.Same S.ShapeRel (Convert.member ctx₁ f n) (Convert.member ctx₂ g m) := by
  unfold Convert.member
  refine (rejectOptionalChain h).seq fun _ _ => ?_
  refine bindRead h (by rw [hk]; rfl) fun c d _ hcd htext => ?_
  refine hf.bindExpression h rfl fun object object' hobject => .pure ?_
  have hproperty := memberName hcd htext
  simp only [ShapeRel, Shape.map, hobject, hproperty]

theorem subscript :
    S.Same S.ShapeRel (Convert.subscript ctx₁ f n) (Convert.subscript ctx₂ g m) := by
  unfold Convert.subscript
  refine (rejectOptionalChain h).seq fun _ _ => ?_
  refine hf.bindExpression h rfl fun object object' hobject => ?_
  refine hf.bindExpression h rfl fun index index' hindex => .pure ?_
  simp only [ShapeRel, Shape.map, hobject, hindex]

theorem spread (hplain : n.kind.isPlain) :
    S.Same S.ShapeRel (Convert.spread ctx₁ f n) (Convert.spread ctx₂ g m) :=
  hf.bindFirstExpression h hplain fun t u htu =>
    .pure (by simp only [ShapeRel, Shape.map, htu])

theorem objectMember :
    S.Same S.TreeRel (Convert.objectMember ctx₁ f n) (Convert.objectMember ctx₂ g m) := by
  unfold Convert.objectMember
  rw [← kind_eq h]
  refine Outcome.Alike.map (V := S.ShapeRel) ?_ fun s t hst => node h hst
  split
  case h_1 hk => exact pairProperty h hf (by rw [hk]; rfl) fun _ _ => by trivial
  case h_2 hk => exact .pure (shorthandProperty h (by simp [Cst.isRead, hk, Kind.isIdentifier]))
  case h_3 hk => exact objectMethod h hf hk
  case h_4 hk => exact spread h hf (by rw [hk]; rfl)
  case h_5 => exact unexpected h

theorem yieldExpression (hplain : n.kind.isPlain) :
    S.Same S.ShapeRel (Convert.yieldExpression f n) (Convert.yieldExpression g m) := by
  unfold Convert.yieldExpression
  refine (hf.onExpression (optionRel_head? (named_sub h hplain))).bind
    fun t u _ _ htu => .pure ?_
  simp only [ShapeRel, Shape.map, htu, hasToken_eq h hplain]

theorem expression :
    S.Same S.TreeRel (Convert.expression ctx₁ f n) (Convert.expression ctx₂ g m) := by
  have close {x : Outcome (Shape (Tree μ))} {y : Outcome (Shape (Tree ν))}
      (hxy : S.Same S.ShapeRel x y) : S.Same S.TreeRel (ctx₁.node n <$> x) (ctx₂.node m <$> y) :=
    hxy.map fun s t hst => node h hst
  unfold Convert.expression
  rw [← kind_eq h]
  split
  case isTrue hk => exact .pure (identifier h (S.text h (Cst.isRead_of_isIdentifier hk)))
  split
  case isTrue hk => exact typeWrapper h hf (Kind.isPlain_of_isTypeWrapper hk)
  split
  case h_1 | h_2 => exact .pure (node h rfl)
  case h_3 hk => exact .pure (privateIdentifier h (S.text h (by simp [Cst.isRead, hk])))
  case h_4 hk => exact hf.firstExpression h (by rw [hk]; rfl)
  case h_5 hk => exact close (binary h hf hk)
  case h_6 hk => exact close (sequence h hf hk)
  case h_7 hk => exact close (assignment h hf (.inl hk))
  case h_8 hk => exact close (assignment h hf (.inr hk))
  case h_9 hk => exact close (unary h hf hk)
  case h_10 hk => exact close (update h hf hk)
  case h_11 => exact close (conditional h hf)
  case h_12 hk => exact close (call h hf hk)
  case h_13 hk => exact close (creation h hf hk)
  case h_14 hk => exact close (member h hf hk)
  case h_15 => exact close (subscript h hf)
  case h_16 hk =>
    refine (elements h hf (fun _ _ => by trivial) (by rw [hk]; rfl)).map fun ts us htu => node h ?_
    simp only [ShapeRel, Shape.map, htu]
  case h_17 hk =>
    refine (hf.mapPlain rfl (named_low h (by rw [hk]; rfl))).map
      fun ts us htu => node h ?_
    simp only [ShapeRel, Shape.map, htu]
  case h_18 hk => exact close (spread h hf (by rw [hk]; rfl))
  case h_19 hk => exact close (yieldExpression h hf (by rw [hk]; rfl))
  case h_20 hk =>
    refine hf.bindFirstExpression h (by rw [hk]; rfl) fun t u htu => .pure (node h ?_)
    simp only [ShapeRel, Shape.map, htu]
  case h_21 hk =>
    exact function h hf _ (Cst.mayLookUp_of_kind hk rfl rfl) (by rw [hk]; rfl) (absurd rfl)
      (absurd rfl)
  case h_22 hk | h_23 hk =>
    exact function h hf _ (Cst.mayLookUp_of_kind hk rfl rfl) (by rw [hk]; rfl)
      (fun _ => by rw [hk]; rfl) fun _ => by rw [hk]; rfl
  case h_24 hk => exact classLike h hf _ (.inr hk)
  case h_25 hk => exact template h hf hk
  case h_26 => exact literal h

end Estree.Simulation
