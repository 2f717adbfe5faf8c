import Estree.Proofs.Encode
import Estree.Proofs.Simulation.Descent
import Estree.Proofs.Source
import Estree.Proofs.Untyped.Basic

/-!
# Types are invisible

A tree and the tree without types are converted alike (`Program.convert_untyped`), unless the
conversion of the first stops at a type wrapper that is declared, as a name or pattern or as a part
of one. This is so where no assertion `<T>x` is assigned to.

The two trees do not have the same nodes, so this is a simulation (`Simulation.untyped`) where a type
wrapper stands over its operand, and where parameters may lose their label.
-/

namespace Estree

/-! ## Nodes beside what they leave -/

/-- A node of a tree below which types stand where the grammar has them. -/
structure Cst.TypedIn (tree n : Cst) : Prop where
  isNode : n.IsNode tree
  typed : n.Everywhere Cst.TypesPlaced

/-- A node of a tree beside what it leaves when types are deleted, in any field. -/
structure Stripped (tree n m : Cst) : Prop extends Cst.TypedIn tree n where
  eq : m = n.untyped.inField m.head.field

/-- A type wrapper is over what its operand leaves, and every other node but a parameter is seen
beside what it leaves itself. -/
def Stripped.sight (tree : Cst) : Sight where
  Rel n m := Stripped tree n m ∧ n.kind.isTypeWrapper = false ∧ n.isParameter = false
  Over n m := Stripped tree n m ∧ n.kind.isTypeWrapper
  Param n m := Stripped tree n m ∧ n.isParameter

namespace Cst.TypedIn

variable {tree n c : Cst} (h : TypedIn tree n)
include h

theorem child (hc : c ∈ n.children) : TypedIn tree c := ⟨.child h.isNode hc, h.typed.child hc⟩

theorem part (hc : c ∈ n.parts) : TypedIn tree c := h.child (mem_children_of_mem_parts hc)

theorem named (hc : c ∈ n.named) : TypedIn tree c := h.child (mem_children_of_mem_named hc)

theorem field? {name : String} (hc : n.field? name = some c) : TypedIn tree c :=
  h.child (mem_children_of_field? hc)

end Cst.TypedIn

namespace Stripped

open Cst

variable {tree n m c d : Cst}

theorem of (h : TypedIn tree n) : Stripped tree n n.untyped := ⟨h, (inField_self _).symm⟩

/-- A child other than a parameter is seen beside what it leaves, or it is over it. -/
theorem kin_untyped (h : TypedIn tree n) (hp : n.isParameter = false) :
    (sight tree).Kin n n.untyped := by
  cases hw : n.kind.isTypeWrapper with
  | false => exact .inl ⟨.of h, hw, hp⟩
  | true => exact .inr ⟨.of h, hw⟩

theorem rel_untyped (h : TypedIn tree n) (hw : n.kind.isTypeWrapper = false)
    (hp : n.isParameter = false) : (sight tree).Rel n n.untyped := ⟨.of h, hw, hp⟩

section

variable (h : Stripped tree n m)
include h

theorem parts_eq : m.parts = n.untyped.parts := by rw [h.eq]; rfl

theorem named_eq : m.named = n.untyped.named := by rw [h.eq]; rfl

theorem decorators_eq : m.decorators = n.untyped.decorators := by rw [h.eq]; rfl

theorem field?_eq (name : String) : m.field? name = n.untyped.field? name := by rw [h.eq]; rfl

theorem modifierTokens_eq (name : Option Cst) :
    m.modifierTokens name = n.untyped.modifierTokens name := by rw [h.eq]; rfl

theorem isParameter_eq : m.isParameter = n.untyped.isParameter := by rw [h.eq]; rfl

theorem head_eq (hw : n.kind.isTypeWrapper = false) (hp : n.isParameter = false) :
    m.head = { n.head with field := m.head.field } := by
  rw [← head_untyped hw (ne_optionalParameter hp)]
  exact congrArg head h.eq

variable (hw : n.kind.isTypeWrapper = false)
include hw

/-- What is found in a field is not a parameter, and it leaves what is found there without types. -/
theorem field?_kin {name : String} (hname : name ∈ fieldNames) :
    Option.Rel (fun c d => (sight tree).Kin c d ∧ d = c.untyped) (n.field? name)
      (m.field? name) := by
  rw [h.field?_eq, field?_untyped h.typed hw hname]
  refine optionRel_map fun c hc => ⟨kin_untyped (h.field? hc) ?_, rfl⟩
  by_contra hp
  refine h.typed.root.unlooked c (mem_children_of_field? hc) ?_ name hname (field_of_field? hc)
  rw [eq_true_of_ne_false hp, Bool.or_true]

theorem field_kin {name : String} (hname : name ∈ fieldNames) :
    Option.Rel (sight tree).Kin (n.field? name) (m.field? name) :=
  optionRel_mono (h.field?_kin hw hname) fun _ _ _ _ h => h.1

/-- Where no type wrapper may stand, what is found in a field is seen alike. -/
theorem field_rel {name : String} (hname : name ∈ fieldNames)
    (hclosed : n.kind.closedFields.contains name) :
    Option.Rel (fun c d => (sight tree).Rel c d ∧ d = c.untyped) (n.field? name)
      (m.field? name) := by
  refine optionRel_mono (h.field?_kin hw hname) fun c d hc _ hcd => ⟨hcd.1.resolve_right ?_, hcd.2⟩
  rintro ⟨_, hwrapper⟩
  have hopen := h.typed.root.place c (mem_children_of_field? hc) hwrapper
  simp [not_opensTo_of_field? hc hclosed] at hopen

theorem decorators_rel : List.Forall₂ (sight tree).Rel n.decorators m.decorators := by
  rw [h.decorators_eq, decorators_untyped h.typed hw]
  refine forall₂_map fun c hc => ?_
  have hk : c.kind = .other := kind_of_label <| by
    rw [beq_iff_eq.1 (List.mem_filter.1 hc).2]
    rfl
  have hmem := (List.mem_filter.1 hc).1
  exact rel_untyped (h.named hmem) (by rw [hk]; rfl) (by rw [isParameter, hk]; rfl)

end

/-! ## Nodes that keep their parts -/

/-- In most nodes nothing is deleted. -/
theorem keeps_of_isPlain (h : n.TypesPlaced) (hplain : n.kind.isPlain) (hc : c ∈ n.children) :
    n.keeps c ∧ c.isParameter = false := by
  simp only [Kind.isPlain, Bool.not_eq_true', Bool.or_eq_false_iff, beq_eq_false_iff_ne] at hplain
  have hp : c.isParameter = false := eq_false_of_ne_true fun hp =>
    hplain.1.2 (h.parameters c hc hp)
  have himplements : c.isImplements = false := eq_false_of_ne_true fun hi =>
    hplain.2 (h.implementer c hc hi)
  simp [keeps, isThisParameter, hplain.1.1, hp, himplements]

theorem parts_of_isPlain (h : Stripped tree n m) (hw : n.kind.isTypeWrapper = false)
    (hplain : n.kind.isPlain) : m.parts = n.parts.map untyped := by
  rw [h.parts_eq, parts_untyped h.typed hw, List.filter_eq_self.2 fun c hc =>
    (keeps_of_isPlain h.typed.root hplain (mem_children_of_mem_parts hc)).1]

theorem named_of_isPlain (h : Stripped tree n m) (hw : n.kind.isTypeWrapper = false)
    (hplain : n.kind.isPlain) : m.named = n.named.map untyped := by
  rw [h.named_eq, named_untyped h.typed hw, List.filter_eq_self.2 fun c hc =>
    (keeps_of_isPlain h.typed.root hplain (mem_children_of_mem_named hc)).1]

theorem parts_kin (h : Stripped tree n m) (hw : n.kind.isTypeWrapper = false)
    (hplain : n.kind.isPlain) :
    List.Forall₂ (fun c d => (sight tree).Kin c d ∧ c.head.field = d.head.field) n.parts
      m.parts := by
  rw [h.parts_of_isPlain hw hplain]
  refine forall₂_map fun c hc => ⟨kin_untyped (h.part hc) ?_, (field_untyped c).symm⟩
  exact (keeps_of_isPlain h.typed.root hplain (mem_children_of_mem_parts hc)).2

theorem named_kin (h : Stripped tree n m) (hw : n.kind.isTypeWrapper = false)
    (hplain : n.kind.isPlain) : List.Forall₂ (sight tree).Kin n.named m.named := by
  rw [h.named_of_isPlain hw hplain]
  refine forall₂_map fun c hc => kin_untyped (h.named hc) ?_
  exact (keeps_of_isPlain h.typed.root hplain (mem_children_of_mem_named hc)).2

/-! ## Classes and parameters -/

/-- A node of a kind that types have nothing to do with is seen alike. -/
theorem rel_of_changing (h : TypedIn tree n) (hk : n.kind ∉ changing) :
    (sight tree).Rel n n.untyped := by
  simp only [changing, List.mem_append, not_or] at hk
  refine rel_untyped h (eq_false_of_ne_true fun hw => ?_) (eq_false_of_ne_true fun hp => ?_)
  · exact hk.1.1 (Kind.isTypeWrapper_iff.1 hw)
  · exact hk.2 (by simpa [isParameter] using hp)

theorem optionalChains_rel (h : Stripped tree n m) (hw : n.kind.isTypeWrapper = false) :
    List.Forall₂ (sight tree).Rel (n.parts.filter (·.kind == .optionalChain))
      (m.parts.filter (·.kind == .optionalChain)) := by
  rw [h.parts_eq, filter_kind_untyped h.typed hw (p := (· == .optionalChain)) (by decide)]
  refine forall₂_map fun c hc => ?_
  obtain ⟨hmem, hk⟩ := List.mem_filter.1 hc
  exact rel_of_changing (h.part hmem) (by rw [beq_iff_eq.1 hk]; decide)

/-- The clause that says what a class extends is seen alike. -/
theorem heritageClause?_rel (h : Stripped tree n m) (hw : n.kind.isTypeWrapper = false) :
    Option.Rel (sight tree).Rel n.heritageClause? m.heritageClause? := by
  unfold heritageClause?
  rw [h.named_eq, find?_kind_untyped h.typed hw (p := (· == .classHeritage)) (by decide)]
  cases hfind : n.named.find? (·.kind == .classHeritage) with
  | none => exact .none
  | some c =>
    have hin := h.named (List.mem_of_find?_eq_some hfind)
    have hc := hin.typed
    have hk : c.kind = .classHeritage := by simpa using List.find?_some hfind
    have hplain : c.kind.isTypeWrapper = false := by rw [hk]; rfl
    have hclause : ∀ d ∈ c.named, d.kind = .extendsClause ∨ d.kind = .other := by
      intro d hd
      rcases hc.root.heritage hk d hd with hlabel | himplements
      · unfold kind
        rw [hlabel]
        split
        · exact .inr rfl
        · exact .inl rfl
      · exact .inr (kind_of_isImplements himplements)
    have hview : c.untyped.named.find? (·.kind != .other)
        = (c.named.find? (·.kind != .other)).map untyped := by
      rw [named_untyped hc hplain, ← List.head?_filter, ← List.head?_filter, ← List.head?_map]
      refine congrArg List.head? (filter_map_untyped fun d hd => ?_)
      have hdw : d.kind.isTypeWrapper = false := by
        rcases hclause d hd with hk | hk <;> rw [hk] <;> rfl
      have hdp : d.isParameter = false := by
        rcases hclause d hd with hk | hk <;> rw [isParameter, hk] <;> rfl
      rw [kind_untyped hdw hdp]
      rcases hclause d hd with hk | hk
      · rw [keeps_of_kind (by simp [hk]) hdp, Bool.true_and]
      · rw [hk]
        exact Bool.and_false _
    rw [Option.map_some, Option.bind_some, Option.bind_some, hview]
    refine optionRel_map fun d hd => ?_
    have hmem := List.mem_of_find?_eq_some hd
    have hkd : d.kind = .extendsClause :=
      (hclause d hmem).resolve_right (by simpa using List.find?_some hd)
    exact rel_of_changing (hin.named hmem) (by rw [hkd]; decide)

theorem isParameter_untyped_eq (h : n.Everywhere TypesPlaced) :
    n.untyped.isParameter = n.isParameter := by
  cases hp : n.isParameter with
  | true => exact isParameter_untyped hp
  | false =>
    cases hw : n.kind.isTypeWrapper with
    | true => exact isParameter_of_isOperand (h.leaves.operand hw)
    | false => rw [isParameter, kind_untyped hw hp, ← isParameter, hp]

/-- What becomes a parameter `this` when types are deleted has a type wrapper for a pattern, so the
tree with types is refused there. -/
theorem blocks_of_isThisParameter {μ : Type} (ctx : Context μ) {X : Unsupported → Prop}
    (hX : ∀ c, IsDeclared tree c → c.kind.isTypeWrapper → X (ctx.unsupported c))
    (hn : TypedIn tree n) (hthis : n.isThisParameter = false) (huntyped : n.untyped.isThisParameter) :
    ctx.Blocks X n := by
  have h := hn.typed
  simp only [isThisParameter, Bool.and_eq_true, List.isEmpty_iff] at huntyped
  obtain ⟨⟨hparam, hdecorators⟩, hpattern⟩ := huntyped
  rw [isParameter_untyped_eq h] at hparam
  have hw := isTypeWrapper_of_isParameter hparam
  rw [decorators_untyped h hw, List.map_eq_nil_iff] at hdecorators
  obtain ⟨p, hp⟩ := Option.isSome_iff_exists.1 (h.root.pattern hparam)
  rw [field?_untyped h hw (by decide), hp, Option.map_some, Option.any_some, beq_iff_eq] at hpattern
  have hwrapper : p.kind.isTypeWrapper := by
    by_contra hplain
    have hplain := eq_false_of_ne_true hplain
    have hnone : p.isParameter = false := eq_false_of_ne_true fun hpp => by
      have hk := h.root.parameters p (mem_children_of_field? hp) hpp
      simp [isParameter, hk] at hparam
    rw [kind_untyped hplain hnone] at hpattern
    simp [isThisParameter, hparam, hdecorators, hp, hpattern] at hthis
  have hdeclared : IsDeclared tree p := .place hn.isNode (.pattern hparam hp)
  exact ⟨hparam, hdecorators, p, hp, hwrapper, hX p hdeclared hwrapper⟩

theorem parameters_but {μ : Type} (ctx : Context μ) {X : Unsupported → Prop}
    (hX : ∀ c, IsDeclared tree c → c.kind.isTypeWrapper → X (ctx.unsupported c))
    (h : Stripped tree n m)
    (hk : n.kind = .formalParameters) :
    Forall₂But (fun c d => (sight tree).Kin c d ∨ (sight tree).Param c d) (ctx.Blocks X)
      (n.named.filter (!·.isThisParameter)) (m.named.filter (!·.isThisParameter)) := by
  have hkeeps : ∀ c ∈ n.named, n.keeps c = !c.isThisParameter := by
    intro c hc
    have himplements : c.isImplements = false := eq_false_of_ne_true fun hi => by
      have hk' := h.typed.root.implementer c (mem_children_of_mem_named hc) hi
      simp [hk] at hk'
    simp [keeps, hk, Kind.takesTypes, himplements]
  rw [h.named_eq, named_untyped h.typed (by rw [hk]; rfl), ← List.filter_congr hkeeps]
  have hmem : ∀ c ∈ n.named.filter n.keeps, TypedIn tree c ∧ c.isThisParameter = false := by
    intro c hc
    obtain ⟨hc, hkept⟩ := List.mem_filter.1 hc
    rw [hkeeps c hc] at hkept
    exact ⟨h.named hc, by simpa using hkept⟩
  generalize n.named.filter n.keeps = cs at hmem
  induction cs with
  | nil => exact .nil
  | cons c cs ih =>
    obtain ⟨hc, hthis⟩ := hmem c List.mem_cons_self
    have ih := ih fun d hd => hmem d (.tail _ hd)
    rw [List.map_cons, List.filter_cons]
    split
    case isTrue =>
      refine .cons ?_ ih
      cases hp : c.isParameter with
      | true => exact .inr ⟨.of hc, hp⟩
      | false => exact .inl (kin_untyped hc hp)
    case isFalse hgone =>
      exact .skip (blocks_of_isThisParameter ctx hX hc hthis (by simpa using hgone)) ih

theorem parameters_view (h : Stripped tree n m) (hp : n.isParameter) {E : Cst → Cst → Prop} :
    (sight tree).Parameters E n m := by
  have hw := isTypeWrapper_of_isParameter hp
  have hpattern := h.typed.root.pattern hp
  exact {
    left := hp
    right := by rw [h.isParameter_eq, isParameter_untyped hp]
    decorators := h.decorators_rel hw
    pattern := h.field_kin hw (by decide)
    missing := fun hnone => by simp [hnone] at hpattern
    value := h.field_kin hw (by decide) }

/-! ## Type wrappers -/

/-- What a type wrapper is over is what its operand leaves. -/
theorem wraps (h : Stripped tree n m) (hw : n.kind.isTypeWrapper) : (sight tree).Wraps n m := by
  obtain ⟨c, hc, hkind⟩ := h.typed.root.exists_wrapped hw
  have hstripped : Stripped tree c m :=
    ⟨h.named (mem_named_of_wrapped? hc), by rw [h.eq, untyped_of_wrapped? hw hc]; rfl⟩
  refine ⟨hw, by rw [h.eq]; exact h.typed.leaves.operand hw, c, hc, ?_⟩
  rcases hkind with hoperand | hwrapper
  · exact .inl ⟨hstripped, isTypeWrapper_of_isOperand hoperand, isParameter_of_isOperand hoperand⟩
  · exact .inr ⟨hstripped, hwrapper⟩

/-! ## Texts and offsets -/

theorem text_eq {μ : Type} (ctx : Context μ) (h : (sight tree).Rel n m) :
    ctx.text n = ctx.text m := by
  have hhead := h.1.head_eq h.2.1 h.2.2
  rw [Context.text, Context.text, hhead]

theorem head_of_isToken {text : String} (ht : n.isToken text) : n.untyped.head = n.head := by
  rw [isToken, Bool.and_eq_true, Bool.not_eq_true'] at ht
  exact head_untyped_of_token ht.1

theorem isToken_untyped (h : n.Everywhere TypesPlaced) (text : String) :
    n.untyped.isToken text = n.isToken text := by
  cases hn : n.head.isNamed with
  | true => rw [isToken, isToken, h.leaves.isNamed, hn]; rfl
  | false => rw [isToken, isToken, head_untyped_of_token hn]

theorem head_of_token? (h : Stripped tree n m) (hw : n.kind.isTypeWrapper = false)
    (hplain : n.kind.isPlain) {text : String} (hc : n.token? text = some c)
    (hd : m.token? text = some d) : d.head = c.head := by
  have hparts : List.Forall₂ (fun c d => d = c.untyped ∧ c.Everywhere TypesPlaced)
      n.parts m.parts := by
    rw [h.parts_of_isPlain hw hplain]
    exact forall₂_map fun c hc => ⟨rfl, h.typed.part hc⟩
  have htoken := optionRel_find? (p := (·.isToken text)) (q := (·.isToken text)) hparts
    fun c d h => by rw [h.1, isToken_untyped h.2]
  rw [← token?, ← token?, hc, hd, Option.rel_some_some] at htoken
  rw [htoken.1.1, head_of_isToken htoken.2]

theorem gapsFrom_untyped {cs : List Cst} (h : ∀ c ∈ cs, c.untyped.head = c.head)
    (start stop : Nat) : gapsFrom start stop (cs.map untyped) = gapsFrom start stop cs := by
  induction cs generalizing start with
  | nil => rfl
  | cons c cs ih =>
    rw [List.map_cons, gapsFrom, gapsFrom, h c List.mem_cons_self,
      ih fun d hd => h d (.tail _ hd)]

theorem gaps_eq (h : Stripped tree n m) (hk : n.kind = .templateString) : m.gaps = n.gaps := by
  have hw : n.kind.isTypeWrapper = false := by rw [hk]; rfl
  have hhead := h.head_eq hw (by rw [isParameter, hk]; rfl)
  have hsubs : m.substitutions = n.substitutions.map untyped := by
    rw [substitutions, named_of_isPlain h hw (by rw [hk]; rfl), substitutions, List.filter_map]
    refine congrArg (List.map untyped) (List.filter_congr fun c hc => ?_)
    have hkind := keeps_and_kind (n := n) (h.typed.named hc) (p := (· = .templateSubstitution))
      (by decide)
    rwa [(keeps_of_isPlain h.typed.root (by rw [hk]; rfl) (mem_children_of_mem_named hc)).1,
      Bool.true_and] at hkind
  have hheads : ∀ c ∈ n.substitutions, c.untyped.head = c.head := by
    intro c hc
    have hk : c.kind = .templateSubstitution := by simpa using (List.mem_filter.1 hc).2
    exact head_untyped (by rw [hk]; rfl) (by simp [hk])
  rw [gaps, gaps, hhead, hsubs, gapsFrom_untyped hheads]

/-- The operator of an update comes first or not, also if the operand starts later without types. -/
theorem operatorFirst {μ : Type} (ctx : Context μ) (h : n.TypesPlaced) {a b : Cst}
    (ha : n.field? "operator" = some a) (hb : n.field? "argument" = some b)
    (hleaves : b.Leaves) (htext : updateOperators.contains (ctx.text a)) :
    a.head.start < b.head.start ↔ a.head.start < b.untyped.head.start := by
  have hne : a ≠ b := by
    rintro rfl
    have heq := (field_of_field? ha).symm.trans (field_of_field? hb)
    simp at heq
  have hapart := h.nests.apart (mem_children_of_field? ha) (mem_children_of_field? hb) hne
  -- An operator is not empty, so it does not start where it stops.
  have hwide : a.head.start < a.head.stop := by
    by_contra hempty
    rw [Context.text, ctx.source.slice_eq_nil (Nat.le_of_not_lt hempty)] at htext
    simp [updateOperators] at htext
  have := hleaves.start_le
  have := hleaves.forward
  have := hleaves.le_stop
  omega

end Stripped

/-! ## The simulation -/

/-- A conversion stops at a type wrapper that is declared. -/
def Context.RefusesDeclared {μ : Type} (ctx : Context μ) (tree : Cst) (u : Unsupported) : Prop :=
  ∃ w, Cst.IsDeclared tree w ∧ w.kind.isTypeWrapper ∧ u = ctx.unsupported w

/-- A conversion compared with that of the tree without types, where no assertion is assigned to. -/
def Simulation.untyped {μ : Type} (ctx : Context μ) (tree : Cst)
    (htargets : ∀ c, Cst.IsAssigned tree c → c.kind ≠ .typeAssertion) :
    Simulation Unit ctx ctx where
  toSight := Stripped.sight tree
  Fail := Eq
  Excused := ctx.RefusesDeclared tree
  Declares := Cst.IsDeclared tree
  Assigns := Cst.IsAssigned tree
  introduces h hc := .place (h.elim (·.1.isNode) (·.1.isNode)) hc
  patternPart := .part
  assigns h hc := .place h.1.isNode hc
  targetPart := .part
  opens h hc hover := h.1.typed.root.place _ hc hover.2
  refused hover hn := ⟨_, hn, hover.2, rfl⟩
  unasserted _ hn := htargets _ hn
  left _ := ()
  right _ := ()
  placed := False
  compiles := .refl ctx
  head := by
    rintro n m ⟨h, hw, hp⟩
    rw [h.head_eq hw hp]
    exact ⟨rfl, rfl, rfl, rfl, rfl⟩
  fail := by
    rintro n m ⟨h, hw, hp⟩
    rw [Context.unsupported, Context.unsupported, Cst.kindName, Cst.kindName, h.head_eq hw hp]
  text := fun h _ => Stripped.text_eq ctx h
  assignText := by
    rintro n m c d ⟨h, hw, _⟩ hk _ hc hd
    have hplain : n.kind.isPlain := by rcases hk with hk | hk <;> rw [hk] <;> rfl
    rw [Context.text, Context.text, h.head_of_token? hw hplain hc hd]
  defaultText := by
    rintro n m c d name ⟨h, hw, _⟩ _ hname hc hd ht
    have hlook : name ∈ Cst.fieldNames := by
      rcases List.mem_pair.1 (List.contains_iff_mem.1 hname) with rfl | rfl <;> decide
    have hfield := h.field?_kin hw hlook
    rw [hc, hd, Option.rel_some_some] at hfield
    rw [hfield.2, Context.text, Context.text, Stripped.head_of_isToken ht]
  operatorFirst := by
    rintro n m a b c d ⟨h, hw, _⟩ hk ha hb hc hd htext
    have hread : n.kind.closedFields.contains "operator" := by rw [hk]; rfl
    have hlook : "argument" ∈ Cst.fieldNames := by decide
    have hoperator := h.field_rel hw (by decide) hread
    have hargument := h.field?_kin hw hlook
    rw [ha, hc, Option.rel_some_some] at hoperator
    rw [hb, hd, Option.rel_some_some] at hargument
    have hleaves := (h.typed.field? hb).leaves
    obtain ⟨⟨hac, haw, hap⟩, -⟩ := hoperator
    rw [hargument.2, hac.head_eq haw hap]
    exact Stripped.operatorFirst ctx h.typed.root ha hb hleaves htext
  gaps := by
    rintro n m ⟨h, _, _⟩ hk
    rw [h.gaps_eq hk]
    exact List.forall₂_same.2 fun _ _ => ⟨fun _ => rfl, rfl⟩
  start := fun _ => False.elim
  stop := fun _ => False.elim
  parts := fun h => h.1.parts_kin h.2.1
  field := by
    rintro n m name ⟨h, hw, _⟩ hname
    rw [Cst.mayLookUp, Bool.and_eq_true] at hname
    exact h.field_kin hw (List.contains_iff_mem.1 hname.1)
  readField := by
    rintro n m name ⟨h, hw, _⟩ hread
    have hname := List.contains_iff_mem.1 (Kind.contains_of_readFields hread).1
    exact optionRel_mono (h.field_rel hw hname (Kind.contains_closedFields hread))
      fun _ _ _ _ hcd => ⟨hcd.1, Stripped.text_eq ctx hcd.1⟩
  clause := by
    rintro n m name ⟨h, hw, _⟩ hk hname
    have hmem := List.contains_iff_mem.1 hname
    have hlook : name ∈ Cst.fieldNames := by
      rcases List.mem_pair.1 hmem with rfl | rfl <;> decide
    have hclosed : n.kind.closedFields.contains name := by
      rcases List.mem_pair.1 hmem with rfl | rfl <;> rw [hk] <;> rfl
    refine optionRel_mono (h.field_rel hw hlook hclosed) fun c d hc _ hcd => ⟨hcd.1, ?_⟩
    refine optionRel_mono (hcd.1.1.field_kin hcd.1.2.1 (by decide)) fun a b ha _ hab =>
      hab.resolve_right ?_
    rintro ⟨_, hwrapper⟩
    have hblock := h.typed.root.clause hk name hmem
    rw [hc, Option.all_some, ha, Option.all_some, hwrapper] at hblock
    cases hblock
  switchBody := by
    rintro n m c d ⟨h, hw, _⟩ hk hc hd
    have hlook : "body" ∈ Cst.fieldNames := by decide
    have hbody := h.field?_kin hw hlook
    rw [hc, hd, Option.rel_some_some] at hbody
    have hplain := h.typed.root.switch hk
    rw [hc, Option.all_some, Bool.and_eq_true, Bool.and_eq_true, Bool.not_eq_true',
      List.all_eq_true] at hplain
    rw [hbody.2]
    have hcases := (Stripped.of (h.field? hc)).named_kin hplain.1.2 hplain.1.1
    refine (forall₂_mem_zip hcases).imp fun a b ⟨hab, hmem⟩ => hab.resolve_right ?_
    rintro ⟨_, hwrapper⟩
    have hcase := hplain.2 a (List.of_mem_zip hmem).1
    rw [hwrapper] at hcase
    cases hcase
  firstText := by
    rintro n m ⟨h, hw, _⟩ hk
    rw [h.named_of_isPlain hw (by rw [hk]; rfl), List.head?_map]
    refine optionRel_map fun c hc => ?_
    have hmem := Cst.mem_children_of_mem_named (List.mem_of_head? hc)
    have hcw : c.kind.isTypeWrapper = false := eq_false_of_ne_true fun hwrapper => by
      have hopen := h.typed.root.place c hmem hwrapper
      simp [Cst.not_opensTo_of_isClosedList (show n.kind.isClosedList by rw [hk]; rfl)] at hopen
    have hcp := (Stripped.keeps_of_isPlain h.typed.root (by rw [hk]; rfl) hmem).2
    have hrel := Stripped.rel_untyped (h.child hmem) hcw hcp
    exact ⟨hrel, Stripped.text_eq ctx hrel⟩
  functionModifiers := by
    rintro n m ⟨h, hw, _⟩
    rw [h.modifierTokens_eq]
    exact (Cst.modifiers_untyped h.typed hw rfl).symm
  methodModifiers := by
    rintro n m c d ⟨h, hw, _⟩ _ _ ⟨hcd, hcw, hcp⟩
    rw [h.modifierTokens_eq]
    refine (Cst.modifiers_untyped h.typed hw ?_).symm
    rw [Option.map_some, Option.map_some, hcd.head_eq hcw hcp]
  decorators := fun h => h.1.decorators_rel h.2.1
  optionalChains := fun h => h.1.optionalChains_rel h.2.1
  heritage := fun h _ => h.1.heritageClause?_rel h.2.1
  extended := by
    rintro n m ⟨h, _, _⟩ hk hnone
    have hvalue := h.typed.root.value hk
    simp [hnone] at hvalue
  parameterList := fun h hk => h.1.parameters_but ctx (fun _ hc hw => ⟨_, hc, hw, rfl⟩) hk
  parameterPair := fun h => h.1.parameters_view h.2
  wraps := fun h => h.1.wraps h.2
  firstByte := fun _ => False.elim
  lastByte := fun _ => False.elim
  mark := fun _ _ _ => rfl

/-! ## The conversion without types -/

/-- **Types leave no trace** in a result but for its labels, and none in a failure, where no assertion
is assigned to: unless the conversion stops at a type wrapper that is declared, the tree and the tree
without types are converted to the same, or they stop with the same failure. -/
theorem Program.convert_untyped {tree : Cst} (source : Source) (options : Options)
    (h : tree.Everywhere Cst.TypesPlaced) (hroot : tree.isParameter = false)
    (hwrapper : tree.kind.isTypeWrapper = false)
    (htargets : ∀ c, Cst.IsAssigned tree c → c.kind ≠ .typeAssertion) :
    (∃ w, Cst.IsDeclared tree w ∧ w.kind.isTypeWrapper ∧
      (Program.convert tree source options).result
        = .error ((context source options).unsupported w)) ∨
      ResultAlike Eq (fun t u => t.unlabelled = u.unlabelled ∧ t.structureEq u)
        (Program.convert tree source options).result
        (Program.convert tree.untyped source options).result := by
  let S := Simulation.untyped (context source options) tree htargets
  have hrel : S.Rel tree tree.untyped := Stripped.rel_untyped ⟨.root, h⟩ hwrapper hroot
  have same := (S.program hrel False.elim rfl).mono
    (U := fun (t u : Node) => t.unlabelled = u.unlabelled ∧ t.structureEq u)
    fun t u htu => ⟨htu, Node.structureEq_of_unlabelled htu⟩
  cases same with
  | stops h =>
    obtain ⟨_, hresult, w, hw, hkind, rfl⟩ := h
    exact .inl ⟨w, hw, hkind, hresult⟩
  | same _ result => exact .inr result

/-- The tree of `function f<T>(x?: T): T \x7b return x as T; \x7d`. -/
def genericFunction : Cst :=
  .node { label := "program", isNamed := true, start := 0, stop := 42 } [
    .node { label := "function_declaration", isNamed := true, start := 0, stop := 42 } [
      .node { label := "function", start := 0, stop := 8 } [],
      .node { label := "identifier", isNamed := true, start := 9, stop := 10,
              field := some "name" } [],
      .node { label := "type_parameters", isNamed := true, start := 10, stop := 13,
              field := some "type_parameters" } [
        .node { label := "<", start := 10, stop := 11 } [],
        .node { label := "type_parameter", isNamed := true, start := 11, stop := 12 } [
          .node { label := "type_identifier", isNamed := true, start := 11, stop := 12,
                  field := some "name" } []],
        .node { label := ">", start := 12, stop := 13 } []],
      .node { label := "formal_parameters", isNamed := true, start := 13, stop := 20,
              field := some "parameters" } [
        .node { label := "(", start := 13, stop := 14 } [],
        .node { label := "optional_parameter", isNamed := true, start := 14, stop := 19 } [
          .node { label := "identifier", isNamed := true, start := 14, stop := 15,
                  field := some "pattern" } [],
          .node { label := "?", start := 15, stop := 16 } [],
          .node { label := "type_annotation", isNamed := true, start := 16, stop := 19,
                  field := some "type" } [
            .node { label := ":", start := 16, stop := 17 } [],
            .node { label := "type_identifier", isNamed := true, start := 18, stop := 19 } []]],
        .node { label := ")", start := 19, stop := 20 } []],
      .node { label := "type_annotation", isNamed := true, start := 20, stop := 23,
              field := some "return_type" } [
        .node { label := ":", start := 20, stop := 21 } [],
        .node { label := "type_identifier", isNamed := true, start := 22, stop := 23 } []],
      .node { label := "statement_block", isNamed := true, start := 24, stop := 42,
              field := some "body" } [
        .node { label := "\x7b", start := 24, stop := 25 } [],
        .node { label := "return_statement", isNamed := true, start := 26, stop := 40 } [
          .node { label := "return", start := 26, stop := 32 } [],
          .node { label := "as_expression", isNamed := true, start := 33, stop := 39 } [
            .node { label := "identifier", isNamed := true, start := 33, stop := 34 } [],
            .node { label := "as", start := 35, stop := 37 } [],
            .node { label := "type_identifier", isNamed := true, start := 38, stop := 39 } []],
          .node { label := ";", start := 39, stop := 40 } []],
        .node { label := "\x7d", start := 41, stop := 42 } []]]]

theorem genericFunction_convert_untyped :
    genericFunction.Everywhere Cst.TypesPlaced ∧ genericFunction.isParameter = false ∧
      genericFunction.kind.isTypeWrapper = false ∧
      (∀ c, Cst.IsAssigned genericFunction c → c.kind ≠ .typeAssertion) ∧
      ResultAlike Eq (fun t u => t.unlabelled = u.unlabelled ∧ t.structureEq u)
        (Program.convert genericFunction
          (.ofString "function f<T>(x?: T): T \x7b return x as T; \x7d") {}).result
        (Program.convert genericFunction.untyped
          (.ofString "function f<T>(x?: T): T \x7b return x as T; \x7d") {}).result := by
  have typed : genericFunction.Everywhere Cst.TypesPlaced := by decide +kernel
  have unasserted : genericFunction.Everywhere (·.kind ≠ .typeAssertion) := by decide +kernel
  have htargets : ∀ c, Cst.IsAssigned genericFunction c → c.kind ≠ .typeAssertion := fun c hc =>
    (unasserted.of_isNode hc.isNode).root
  have hok : (Program.convert genericFunction
      (.ofString "function f<T>(x?: T): T \x7b return x as T; \x7d") {}).result.isOk := by
    decide +kernel
  refine ⟨typed, rfl, rfl, htargets,
    (Program.convert_untyped _ _ typed rfl rfl htargets).resolve_left ?_⟩
  rintro ⟨w, -, -, hw⟩
  rw [hw] at hok
  cases hok

/-! ## Where types are refused -/

/-- The tree of `let [a!] = o;`. -/
def assertedBinding : Cst :=
  .node { label := "program", isNamed := true, start := 0, stop := 13 } [
    .node { label := "lexical_declaration", isNamed := true, start := 0, stop := 13 } [
      .node { label := "let", start := 0, stop := 3, field := some "kind" } [],
      .node { label := "variable_declarator", isNamed := true, start := 4, stop := 12 } [
        .node { label := "array_pattern", isNamed := true, start := 4, stop := 8,
                field := some "name" } [
          .node { label := "[", start := 4, stop := 5 } [],
          .node { label := "non_null_expression", isNamed := true, start := 5, stop := 7 } [
            .node { label := "identifier", isNamed := true, start := 5, stop := 6 } [],
            .node { label := "!", start := 6, stop := 7 } []],
          .node { label := "]", start := 7, stop := 8 } []],
        .node { label := "=", start := 9, stop := 10 } [],
        .node { label := "identifier", isNamed := true, start := 11, stop := 12,
                field := some "value" } []],
      .node { label := ";", start := 12, stop := 13 } []]]

/-- A name that is declared cannot have a type wrapper around it. -/
theorem assertedBinding_refused :
    assertedBinding.Everywhere Cst.TypesPlaced ∧ assertedBinding.isParameter = false ∧
      assertedBinding.kind.isTypeWrapper = false ∧
      (∀ c, Cst.IsAssigned assertedBinding c → c.kind ≠ .typeAssertion) ∧
      ¬ ResultAlike Eq (fun t u => t.structureEq u)
        (Program.convert assertedBinding (.ofString "let [a!] = o;") {}).result
        (Program.convert assertedBinding.untyped (.ofString "let [a!] = o;") {}).result := by
  have unasserted : assertedBinding.Everywhere (·.kind ≠ .typeAssertion) := by decide +kernel
  refine ⟨by decide +kernel, rfl, rfl, fun c hc => (unasserted.of_isNode hc.isNode).root,
    fun alike => ?_⟩
  have hrefused : (Program.convert assertedBinding (.ofString "let [a!] = o;") {}).result
      = .error ⟨"non_null_expression", ⟨1, 5⟩⟩ := rfl
  have hconverted : (Program.convert assertedBinding.untyped (.ofString "let [a!] = o;")
      {}).result.isOk := by decide +kernel
  rw [hrefused] at alike
  generalize (Program.convert assertedBinding.untyped (.ofString "let [a!] = o;") {}).result = r
    at alike hconverted
  cases alike
  cases hconverted

end Estree
