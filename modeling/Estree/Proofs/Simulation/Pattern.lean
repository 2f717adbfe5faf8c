import Estree.Proofs.Simulation.Basic

/-!
# Literals and patterns run alike

One lemma for each part of a rule: on nodes seen alike, with converters that run alike on lower
syntax, the part runs alike. The lemmas stand in the order of the definitions.
-/

namespace Estree

namespace Simulation

variable {κ μ ν : Type} {ctx₁ : Context μ} {ctx₂ : Context ν} {S : Simulation κ ctx₁ ctx₂}
variable {n m : Cst}

/-! ## Lists of lower syntax -/

theorem slots_sub (h : S.Rel n m) (hplain : n.kind.isPlain) :
    List.Forall₂ (Option.Rel (S.Sub n)) n.slots m.slots :=
  Cst.slotsOf_rel (fun _ _ h => isNamed_eq h.kin) (fun _ _ h => isToken_eq h.kin ",")
    (parts_sub h hplain) true

/-- A comma expression directly inside another is no type wrapper, and no operand of one. -/
theorem operands_sub (h : S.Rel n m) (hk : n.kind = .sequenceExpression) :
    List.Forall₂ (S.Sub n) n.operands m.operands := by
  induction hh : n.height using Nat.strongRecOn generalizing n m with
  | ind k ih =>
    rw [Cst.operands_eq, Cst.operands_eq]
    refine List.rel_flatMap (named_sub h (by rw [hk]; rfl)) fun c d hcd => ?_
    have hseq := kind_pred hcd.kin (p := (· == .sequenceExpression)) rfl
    by_cases hc : c.kind = .sequenceExpression
    · have hd : d.kind = .sequenceExpression := by simpa [hc] using hseq.symm
      have hrel := rel_of_kind hcd.kin (by rw [hc]; rfl)
      rw [if_pos hc, if_pos hd]
      exact (ih c.height (hh ▸ hcd.lt) hrel hc rfl).imp fun _ _ h => h.trans hcd.lt
    · have hd : d.kind ≠ .sequenceExpression := by simpa [hc] using hseq.symm
      rw [if_neg hc, if_neg hd]
      exact .cons hcd .nil

theorem substitutions_sub (h : S.Rel n m) (hplain : n.kind.isPlain) :
    List.Forall₂ (fun c d => S.Rel c d ∧ c.height < n.height ∧ c.kind = .templateSubstitution)
      n.substitutions m.substitutions := by
  have hsubs := forall₂_filter_and (p := (·.kind = .templateSubstitution))
    (q := (·.kind = .templateSubstitution)) (named_sub h hplain) fun _ _ h =>
      kind_pred h.kin (p := (· = .templateSubstitution)) rfl
  refine hsubs.imp fun c d h => ?_
  have hk : c.kind = .templateSubstitution := by simpa using h.2
  exact ⟨rel_of_kind h.1.kin (by rw [hk]; rfl), h.1.lt, hk⟩

theorem token?_rel (h : S.Rel n m) (hplain : n.kind.isPlain) (text : String) :
    Option.Rel S.Rel (n.token? text) (m.token? text) :=
  optionRel_mono (optionRel_find? (parts_sub h hplain) fun _ _ h => isToken_eq h.kin text)
    fun _ _ _ _ h => rel_of_isToken h.1.kin h.2

theorem hasToken_eq (h : S.Rel n m) (hplain : n.kind.isPlain) (text : String) :
    n.hasToken text = m.hasToken text := by
  have htoken := token?_rel h hplain text
  unfold Cst.hasToken
  generalize n.token? text = o, m.token? text = p at htoken ⊢
  cases htoken <;> rfl

theorem isComputed_eq (h : S.Kin n m) : Convert.isComputed n = Convert.isComputed m :=
  kind_pred h (p := (· == .computedPropertyName)) rfl

variable {f : Converter μ} {g : Converter ν} (h : S.Rel n m) (hf : S.Lower n f g)
include h

/-! ## Literals and templates -/

theorem literalNode (hread : n.isRead) {value : LiteralValue} {regex : Option RegexLiteral} :
    S.TreeRel (Convert.literalNode ctx₁ n value regex) (Convert.literalNode ctx₂ m value regex) := by
  unfold Convert.literalNode
  exact node h (by rw [S.text h hread]; rfl)

theorem fieldText {name : String} (hread : n.kind.readFields.contains name) :
    (n.field? name).map ctx₁.text = (m.field? name).map ctx₂.text := by
  have hfield := S.readField h hread
  generalize n.field? name = o, m.field? name = p at hfield
  cases hfield with
  | none => rfl
  | some hcd => exact congrArg some hcd.2

theorem regexLiteral (hk : n.kind = .regex) :
    S.Same S.TreeRel (Convert.regexLiteral ctx₁ n) (Convert.regexLiteral ctx₂ m) := by
  have hread : n.isRead := by simp [Cst.isRead, hk]
  unfold Convert.regexLiteral
  refine bindRead h (by rw [hk]; rfl) fun c d _ _ htext => ?_
  have hflags : n.kind.readFields.contains "flags" := by rw [hk]; rfl
  rw [htext, fieldText h hflags, (S.compiles : ctx₁.compiles = ctx₂.compiles)]
  dsimp only
  split
  · exact .pure (literalNode h hread)
  · exact Outcome.Alike.record.seq fun _ _ => .pure (literalNode h hread)

theorem literal : S.Same S.TreeRel (Convert.literal ctx₁ n) (Convert.literal ctx₂ m) := by
  unfold Convert.literal
  rw [← kind_eq h]
  split
  case h_1 hk | h_2 hk | h_3 hk =>
    exact .pure (literalNode h (by simp [Cst.isRead, hk]))
  case h_4 hk =>
    have hread : n.isRead := by simp [Cst.isRead, hk]
    rw [S.text h hread]
    split
    · exact .pure (literalNode h hread)
    · exact unexpected h
  case h_5 hk =>
    have hread : n.isRead := by simp [Cst.isRead, hk]
    rw [S.text h hread]
    exact .pure (literalNode h hread)
  case h_6 hk => exact regexLiteral h hk
  · exact unexpected h

theorem templateElements (tail : Bool) {xs ys : List (Nat × Nat)}
    (hgaps : List.Forall₂ (fun x y => (S.placed → x = y) ∧
      ctx₁.source.slice x.1 x.2 = ctx₂.source.slice y.1 y.2) xs ys) :
    S.ListRel (xs.map (Convert.templateElement ctx₁ n tail))
      (ys.map (Convert.templateElement ctx₂ m tail)) := by
  refine listRel_of_forall₂ (List.rel_map (fun x y hxy => ?_) hgaps)
  unfold Convert.templateElement
  refine nodeAt h (fun hp => by rw [hxy.1 hp]) (fun hp => by rw [hxy.1 hp]) ?_
  rw [hxy.2]
  rfl

include hf

theorem template (hk : n.kind = .templateString) :
    S.Same S.TreeRel (Convert.template ctx₁ f n) (Convert.template ctx₂ g m) := by
  have hgaps := S.gaps h hk
  unfold Convert.template
  refine Outcome.Alike.bind (V := S.ListRel) ?_ fun ts us _ _ htu => ?_
  · have hsubs := substitutions_sub h (by rw [hk]; rfl)
    refine (Outcome.Alike.mapM hsubs fun c _ d _ ⟨hcd, hlt, hc⟩ => ?_).mono
      fun _ _ => listRel_of_forall₂
    exact (hf.mono hlt).firstExpression hcd (by rw [hc]; rfl)
  · have hfirst := templateElements h false (forall₂_dropLast hgaps)
    have hlast := templateElements h true (forall₂_toList (optionRel_getLast? hgaps))
    refine .pure (node h ?_)
    simp only [ShapeRel, Shape.map, List.map_append, hfirst, hlast, htu]

/-! ## Patterns -/

omit hf in
theorem shorthandProperty (hread : n.isRead) :
    S.ShapeRel (Convert.shorthandProperty ctx₁ n) (Convert.shorthandProperty ctx₂ m) := by
  have hname := identifier h (S.text h hread)
  simp only [ShapeRel, Convert.shorthandProperty, Convert.plainProperty, Shape.map, hname]

theorem propertyKey :
    S.Same S.TreeRel (Convert.propertyKey ctx₁ f n) (Convert.propertyKey ctx₂ g m) := by
  unfold Convert.propertyKey
  rw [← kind_eq h]
  split
  case isTrue hk =>
    exact .pure (identifier h (S.text h (Cst.isRead_of_isIdentifier hk)))
  case isFalse =>
    split
    case h_1 hk => exact hf.firstExpression h (by rw [hk]; rfl)
    case h_2 hk => exact .pure (privateIdentifier h (S.text h (by simp [Cst.isRead, hk])))
    case h_3 | h_4 => exact literal h
    case h_5 => exact unexpected h

theorem pairProperty {role : Role} (hk : n.kind.closedFields.contains "key")
    (hmay : ∀ c, n.field? "value" = some c → S.May role c) :
    S.Same S.ShapeRel (Convert.pairProperty ctx₁ f role n) (Convert.pairProperty ctx₂ g role m) := by
  unfold Convert.pairProperty
  refine bindClosed h rfl hk fun c d _ _ hcd => ?_
  refine (hf.plain rfl hcd).bind fun key key' _ _ hkey => ?_
  refine hf.bindField hmay h rfl fun value value' hvalue => .pure ?_
  simp only [ShapeRel, Convert.plainProperty, Shape.map, hkey, hvalue, isComputed_eq (.inl hcd.rel)]

theorem defaultedProperty {role : Role} (hmay : ∀ c, n.field? "left" = some c → S.May role c) :
    S.Same S.ShapeRel (Convert.defaultedProperty ctx₁ f role n)
      (Convert.defaultedProperty ctx₂ g role m) := by
  unfold Convert.defaultedProperty
  refine hf.bindField hmay h rfl fun key key' hkey => ?_
  refine hf.bindExpression h rfl fun right right' hright => .pure ?_
  have hvalue := node h (s := .assignmentPattern key right) (t := .assignmentPattern key' right')
    (by simp only [ShapeRel, Shape.map, hkey, hright])
  simp only [ShapeRel, Convert.plainProperty, Shape.map, hkey, hvalue]

theorem elements {role : Role} (hmay : ∀ c ∈ n.parts, S.May role c) (hplain : n.kind.isPlain) :
    S.Same S.SlotsRel (Convert.elements f role n) (Convert.elements g role m) := by
  unfold Convert.elements
  refine (Outcome.Alike.mapM (slots_sub h hplain) fun o ho p _ hop => ?_).mono
    fun _ _ => slotsRel_of_forall₂
  refine Outcome.Alike.onSome hop fun c d hc _ hcd => hf.apply (hmay c ?_) hcd
  exact Cst.mem_parts_of_mem_slots (hc ▸ ho)

theorem defaulted {role : Role} (hmay : ∀ c, n.field? "left" = some c → S.May role c) :
    S.Same S.ShapeRel (Convert.defaulted ctx₁ f role n) (Convert.defaulted ctx₂ g role m) := by
  unfold Convert.defaulted
  refine hf.bindField hmay h rfl fun left left' hleft => ?_
  refine hf.bindExpression h rfl fun right right' hright => .pure ?_
  simp only [ShapeRel, Shape.map, hleft, hright]

theorem rest {role : Role} (hmay : ∀ c, n.named.head? = some c → S.May role c)
    (hplain : n.kind.isPlain) :
    S.Same S.ShapeRel (Convert.rest ctx₁ f role n) (Convert.rest ctx₂ g role m) := by
  unfold Convert.rest
  refine hf.bindFirst hmay h hplain fun argument argument' hargument => .pure ?_
  simp only [ShapeRel, Shape.map, hargument]

theorem binding (hn : S.Declares n) :
    S.Same S.TreeRel (Convert.binding ctx₁ f n) (Convert.binding ctx₂ g m) := by
  unfold Convert.binding
  rw [← kind_eq h]
  split
  case isTrue hk =>
    exact .pure (identifier h (S.text h (Cst.isRead_of_isIdentifier hk)))
  case isFalse =>
    refine Outcome.Alike.map (V := S.ShapeRel) ?_ fun s t hst => node h hst
    split
    case h_1 hk =>
      refine (hf.mapMembers rfl (fun c hc => ?_) (named_low h (by rw [hk]; rfl))).map
        fun ts us htu => ?_
      · exact S.patternPart hn (.listed (.inl hk) (Cst.mem_parts_of_mem_named hc))
      · simp only [ShapeRel, Shape.map, htu]
    case h_2 hk =>
      refine (elements h hf (fun c hc => ?_) (by rw [hk]; rfl)).map fun ts us htu => ?_
      · exact S.patternPart hn (.listed (.inr hk) hc)
      · simp only [ShapeRel, Shape.map, htu]
    case h_3 hk => exact defaulted h hf fun _ hc => S.patternPart hn (.defaulted (.inl hk) hc)
    case h_4 hk =>
      exact rest h hf (fun _ hc => S.patternPart hn (.rest hk hc)) (by rw [hk]; rfl)
    case h_5 => exact unexpected h

theorem bindingMember (hn : S.Declares n) :
    S.Same S.TreeRel (Convert.bindingMember ctx₁ f n) (Convert.bindingMember ctx₂ g m) := by
  unfold Convert.bindingMember
  rw [← kind_eq h]
  refine Outcome.Alike.map (V := S.ShapeRel) ?_ fun s t hst => node h hst
  split
  case h_1 hk =>
    exact pairProperty h hf (by rw [hk]; rfl) fun _ hc => S.patternPart hn (.value hk hc)
  case h_2 hk => exact .pure (shorthandProperty h (by simp [Cst.isRead, hk, Kind.isIdentifier]))
  case h_3 hk => exact defaultedProperty h hf fun _ hc => S.patternPart hn (.defaulted (.inr hk) hc)
  case h_4 hk => exact rest h hf (fun _ hc => S.patternPart hn (.rest hk hc)) (by rw [hk]; rfl)
  case h_5 => exact unexpected h

theorem target (hn : S.Assigns n) {e : Cst → Outcome (Tree μ)} {e' : Cst → Outcome (Tree ν)}
    (he : S.Same S.TreeRel (e n) (e' m)) :
    S.Same S.TreeRel (Convert.target ctx₁ f e n) (Convert.target ctx₂ g e' m) := by
  unfold Convert.target
  rw [← kind_eq h]
  split
  case isTrue hk =>
    exact .pure (identifier h (S.text h (Cst.isRead_of_isIdentifier hk)))
  case isFalse =>
    split
    case isTrue hk =>
      refine hf.first (fun _ hc => S.targetPart hn (.inside ?_ hc)) h
        (Kind.isPlain_of_isTypeWrapper hk)
      exact Kind.targetForm_of_isTypeWrapper hk
    case isFalse =>
      split
      case h_1 | h_2 => exact he
      case h_3 hk =>
        exact hf.first (fun _ hc => S.targetPart hn (.inside (by rw [hk]; rfl) hc)) h
          (by rw [hk]; rfl)
      case h_4 hk | h_5 hk =>
        refine (hf.mapMembers rfl (fun c hc => ?_) (named_low h (by rw [hk]; rfl))).map
          fun ts us htu => node h ?_
        · refine S.targetPart hn (.listed (.inl ?_) (Cst.mem_parts_of_mem_named hc))
          rw [hk]
          rfl
        · simp only [ShapeRel, Shape.map, htu]
      case h_6 hk | h_7 hk =>
        refine (elements h hf (fun c hc => ?_) (by rw [hk]; rfl)).map fun ts us htu => node h ?_
        · exact S.targetPart hn (.listed (.inr (by rw [hk]; rfl)) hc)
        · simp only [ShapeRel, Shape.map, htu]
      case h_8 hk | h_9 hk =>
        refine (defaulted h hf fun _ hc => ?_).map fun s t hst => node h hst
        exact S.targetPart hn (.defaulted (.inl (by rw [hk]; rfl)) hc)
      case h_10 hk | h_11 hk =>
        refine (rest h hf (fun _ hc => ?_) (by rw [hk]; rfl)).map fun s t hst => node h hst
        exact S.targetPart hn (.rest (by rw [hk]; rfl) hc)
      case h_12 => exact unexpected h

theorem targetMember (hn : S.Assigns n) :
    S.Same S.TreeRel (Convert.targetMember ctx₁ f n) (Convert.targetMember ctx₂ g m) := by
  unfold Convert.targetMember
  rw [← kind_eq h]
  refine Outcome.Alike.map (V := S.ShapeRel) ?_ fun s t hst => node h hst
  split
  case h_1 hk | h_2 hk =>
    refine pairProperty h hf (by rw [hk]; rfl) fun _ hc => ?_
    exact S.targetPart hn (.value (by rw [hk]; rfl) hc)
  case h_3 hk | h_4 hk =>
    exact .pure (shorthandProperty h (by simp [Cst.isRead, hk, Kind.isIdentifier]))
  case h_5 hk =>
    exact defaultedProperty h hf fun _ hc =>
      S.targetPart hn (.defaulted (.inr (by rw [hk]; rfl)) hc)
  case h_6 hk | h_7 hk =>
    refine rest h hf (fun _ hc => ?_) (by rw [hk]; rfl)
    exact S.targetPart hn (.rest (by rw [hk]; rfl) hc)
  case h_8 => exact unexpected h

end Simulation
end Estree
