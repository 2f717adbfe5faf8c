import Estree.Proofs.Simulation.Basic

/-!
# Trees with the same nodes

Where two trees have the same nodes but for extra ones, a comparison needs no more than that the
parts of nodes seen alike are seen alike one by one (`Likeness`). Then all that rules look for among
the parts is found alike, and no failure has to be excused: a likeness is a simulation.
-/

namespace Estree

/-- A comparison of conversions of trees that have the same nodes, but for extra ones. -/
structure Likeness (κ : Type) {μ ν : Type} (ctx₁ : Context μ) (ctx₂ : Context ν) extends
    Comparison κ ctx₁ ctx₂ where
  parts : ∀ {n m}, Rel n m →
    List.Forall₂ (fun c d => Rel c d ∧ c.head.field = d.head.field) n.parts m.parts
  field : ∀ {n m name}, Rel n m → n.mayLookUp name → Option.Rel Rel (n.field? name) (m.field? name)
  clauseBody : ∀ {n m c d name}, Rel n m → n.kind = .tryStatement →
    Cst.fieldNames.contains name → n.field? name = some c → m.field? name = some d →
    Option.Rel Rel (c.field? "body") (d.field? "body")
  readText : ∀ {n m c d name}, Rel n m → n.kind.readFields.contains name → n.field? name = some c →
    m.field? name = some d → ctx₁.text c = ctx₂.text d
  firstText : ∀ {n m c d}, Rel n m → n.kind = .namespaceImport → n.named.head? = some c →
    m.named.head? = some d → ctx₁.text c = ctx₂.text d
  /-- Which tokens start before the name of a method. -/
  methodTokens : ∀ {n m c d}, Rel n m → n.field? "name" = some c → m.field? "name" = some d →
    n.modifierTokens (some c) = m.modifierTokens (some d)
  firstByte : ∀ {n m}, Rel n m → placed → n.firstByte = m.firstByte
  lastByte : ∀ {n m}, Rel n m → placed → n.lastByte = m.lastByte
  mark : ∀ {n m a b c d}, Rel n m → (placed → a = c) → (placed → b = d) →
    left (ctx₁.mark n a b) = right (ctx₂.mark m c d)

/-- The fields whose text is read are looked up. -/
theorem Kind.contains_of_readFields {k : Kind} {name : String}
    (h : k.readFields.contains name) : Cst.fieldNames.contains name ∧ name ≠ "body" := by
  have hall : k.readFields.all fun s => Cst.fieldNames.contains s && s != "body" := by
    cases k <;> rfl
  simpa using List.all_eq_true.1 hall name (List.contains_iff_mem.1 h)

theorem Cst.mayLookUp_of_readFields {n : Cst} {name : String}
    (h : n.kind.readFields.contains name) : n.mayLookUp name := by
  obtain ⟨hname, hbody⟩ := Kind.contains_of_readFields h
  simp only [mayLookUp, hname, Bool.true_and, bne_iff_ne.2 hbody, Bool.true_or]

namespace Likeness

variable {κ μ ν : Type} {ctx₁ : Context μ} {ctx₂ : Context ν} (L : Likeness κ ctx₁ ctx₂)
variable {n m : Cst}

/-- The sight of a likeness, with no type wrapper over anything. -/
def sight : Sight where
  Rel := L.Rel
  Over _ _ := False
  Param _ _ := False

variable {L} (h : L.Rel n m)
include h

theorem kind_eq : n.kind = m.kind := (L.head h).kind_eq

theorem parts_rel : List.Forall₂ L.Rel n.parts m.parts := (L.parts h).imp fun _ _ h => h.1

theorem named_rel : List.Forall₂ L.Rel n.named m.named :=
  forall₂_filter (parts_rel h) fun _ _ h => (L.head h).isNamed

theorem decorators_rel : List.Forall₂ L.Rel n.decorators m.decorators :=
  forall₂_filter (named_rel h) fun _ _ h => by rw [(L.head h).label]

theorem isThisParameter_eq : n.isThisParameter = m.isThisParameter := by
  have hlook : n.mayLookUp "pattern" := rfl
  have hpattern := L.field h hlook
  have hkind : (n.field? "pattern").any (·.kind == .thisKeyword)
      = (m.field? "pattern").any (·.kind == .thisKeyword) := by
    generalize n.field? "pattern" = o, m.field? "pattern" = p at hpattern
    cases hpattern with
    | none => rfl
    | some hcd => simp [kind_eq hcd]
  have hdecorators : n.decorators.isEmpty = m.decorators.isEmpty := by
    rw [Bool.eq_iff_iff, List.isEmpty_iff_length_eq_zero, List.isEmpty_iff_length_eq_zero,
      (decorators_rel h).length_eq]
  simp only [Cst.isThisParameter, Cst.isParameter, kind_eq h, hdecorators, hkind]

theorem functionTokens_eq : n.modifierTokens none = m.modifierTokens none :=
  labels_takeWhile (parts_rel h) fun c d hcd => ⟨L.head hcd, by simp [kind_eq hcd]⟩

theorem heritageClause?_rel : Option.Rel L.Rel n.heritageClause? m.heritageClause? := by
  have hheritage := optionRel_find? (p := (·.kind == .classHeritage))
    (q := (·.kind == .classHeritage)) (named_rel h) fun _ _ h => by rw [kind_eq h]
  unfold Cst.heritageClause?
  generalize n.named.find? _ = o, m.named.find? _ = p at hheritage
  cases hheritage with
  | none => exact .none
  | some hcd =>
    exact optionRel_mono (optionRel_find? (q := (·.kind != .other)) (named_rel hcd.1)
      fun _ _ h => by rw [kind_eq h]) fun _ _ _ _ h => h.1

theorem readField {name : String} (hread : n.kind.readFields.contains name) :
    Option.Rel (fun c d => L.Rel c d ∧ ctx₁.text c = ctx₂.text d) (n.field? name)
      (m.field? name) :=
  optionRel_mono (L.field h (Cst.mayLookUp_of_readFields hread)) fun _ _ hc hd hcd =>
    ⟨hcd, L.readText h hread hc hd⟩

theorem clause (hk : n.kind = .tryStatement) {name : String}
    (hname : ["handler", "finalizer"].contains name) :
    Option.Rel (fun c d => L.Rel c d ∧ Option.Rel L.Rel (c.field? "body") (d.field? "body"))
      (n.field? name) (m.field? name) := by
  have hlook : Cst.fieldNames.contains name := by
    rcases List.mem_pair.1 (List.contains_iff_mem.1 hname) with rfl | rfl <;> rfl
  exact optionRel_mono (L.field h (Cst.mayLookUp_of_kind hk hlook rfl)) fun _ _ hc hd hcd =>
    ⟨hcd, L.clauseBody h hk hlook hc hd⟩

theorem firstNamed (hk : n.kind = .namespaceImport) :
    Option.Rel (fun c d => L.Rel c d ∧ ctx₁.text c = ctx₂.text d) n.named.head? m.named.head? :=
  optionRel_mono (optionRel_head? (named_rel h)) fun _ _ hc hd hcd =>
    ⟨hcd, L.firstText h hk hc hd⟩

omit h
variable (L)

/-- A likeness on some of the nodes only, which may say more of the failures there. What holds of a
node has to hold of its parts and of what is found in its fields. -/
def restrict (P : Cst → Prop) (Fail : Unsupported → Unsupported → Prop)
    (hpart : ∀ {n c}, P n → c ∈ n.parts → P c)
    (hfield : ∀ {n c name}, P n → n.field? name = some c → P c)
    (hfail : ∀ {n m}, L.Rel n m → P n → Fail (ctx₁.unsupported n) (ctx₂.unsupported m)) :
    Likeness κ ctx₁ ctx₂ where
  Rel n m := L.Rel n m ∧ P n
  Fail := Fail
  left := L.left
  right := L.right
  placed := L.placed
  compiles := L.compiles
  head h := L.head h.1
  fail h := hfail h.1 h.2
  text h := L.text h.1
  assignText h := L.assignText h.1
  defaultText h := L.defaultText h.1
  operatorFirst h := L.operatorFirst h.1
  gaps h := L.gaps h.1
  start h := L.start h.1
  stop h := L.stop h.1
  parts h := (forall₂_mem_zip (L.parts h.1)).imp fun _ _ hcd =>
    ⟨⟨hcd.1.1, hpart h.2 (List.of_mem_zip hcd.2).1⟩, hcd.1.2⟩
  field h hname := optionRel_mono (L.field h.1 hname) fun _ _ hc _ hcd => ⟨hcd, hfield h.2 hc⟩
  clauseBody h hk hname hc hd := optionRel_mono (L.clauseBody h.1 hk hname hc hd)
    fun _ _ hb _ hbd => ⟨hbd, hfield (hfield h.2 hc) hb⟩
  readText h := L.readText h.1
  firstText h := L.firstText h.1
  methodTokens h := L.methodTokens h.1
  firstByte h := L.firstByte h.1
  lastByte h := L.lastByte h.1
  mark h := L.mark h.1

/-- Where the nodes are the same, no type wrapper has to be looked through. -/
def toSimulation : Simulation κ ctx₁ ctx₂ where
  toSight := L.sight
  __ := L.toComparison
  Excused _ := False
  Declares _ := True
  Assigns _ := True
  introduces _ _ := trivial
  patternPart _ _ := trivial
  assigns _ _ := trivial
  targetPart _ _ := trivial
  opens _ _ := False.elim
  refused := False.elim
  unasserted := False.elim
  parts h _ := (L.parts h).imp fun _ _ h => ⟨.inl h.1, h.2⟩
  field h hname := optionRel_mono (L.field h hname) fun _ _ _ _ => .inl
  readField h := readField h
  clause h hk := clause h hk
  switchBody := by
    intro n m c d h hk hc hd
    have hlook : n.mayLookUp "body" := Cst.mayLookUp_of_kind hk rfl rfl
    have hbody := L.field h hlook
    rw [hc, hd, Option.rel_some_some] at hbody
    exact named_rel hbody
  firstText h := firstNamed h
  functionModifiers h := by rw [functionTokens_eq h]
  methodModifiers h hc hd _ := by rw [L.methodTokens h hc hd]
  decorators h := decorators_rel h
  optionalChains h := forall₂_filter (parts_rel h) fun _ _ h => by rw [kind_eq h]
  heritage h _ := heritageClause?_rel h
  extended h _ _ := optionRel_mono (optionRel_head? (named_rel h)) fun _ _ _ _ => .inl
  parameterList h _ := .of_forall₂ <|
    (forall₂_filter (named_rel h) fun _ _ h => by rw [isThisParameter_eq h]).imp
      fun _ _ h => .inl (.inl h)
  parameterPair := False.elim
  wraps := False.elim
  firstByte h := L.firstByte (h.resolve_right id)
  lastByte h := L.lastByte (h.resolve_right id)
  mark h := L.mark (h.resolve_right id)

/-- Where no type wrapper has to be looked through, it is left open what is declared or assigned. -/
theorem stands (role : Role) (n : Cst) : L.toSimulation.Stands role n := by cases role <;> trivial

end Likeness

end Estree
