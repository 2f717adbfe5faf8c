import Estree.Proofs.Simulation.Likeness
import Estree.Proofs.Simulation.Statement

/-!
# Descent

Conversions that differ in nothing but their marks run alike (`Simulation.marks`), so in particular a
conversion and itself. As a rule hands nothing to its converter but syntax lower than its own, it
makes no difference what the converter does with anything else (`Convert.rule_congr`): levels beyond
the height of a tree change nothing (`Convert.run_eq_run`), and `Convert.convert` obeys the rules
without any count (`Convert.convert_eq`). With this, what runs alike by rules runs alike as a whole
(`Simulation.lower`, `Simulation.program`).

A type wrapper over what the right tree has is looked through where an expression or a target is
read, and is unexpected where it is declared.
-/

namespace Estree

variable {μ ν κ : Type}

/-- Conversions of one tree over one text, which differ in nothing but their marks. -/
def Likeness.marks {ctx₁ : Context μ} {ctx₂ : Context ν} (hsource : ctx₁.source = ctx₂.source)
    (hcompiles : ctx₁.CompilesLike ctx₂) (left : μ → κ) (right : ν → κ)
    (hmark : ∀ n a b, left (ctx₁.mark n a b) = right (ctx₂.mark n a b)) :
    Likeness κ ctx₁ ctx₂ :=
  have htext (n : Cst) : ctx₁.text n = ctx₂.text n := by rw [Context.text, Context.text, hsource]
  { Rel := Eq
    Fail := Eq
    left := left
    right := right
    placed := True
    compiles := hcompiles
    head := by rintro n _ rfl; exact .refl _
    parts := by rintro n _ rfl; exact List.forall₂_same.2 fun _ _ => ⟨rfl, rfl⟩
    field := by rintro n _ name rfl _; cases n.field? name <;> constructor; rfl
    clauseBody := by
      rintro n _ c _ name rfl _ _ hc hd
      cases hc.symm.trans hd
      cases c.field? "body" <;> constructor
      rfl
    fail := by rintro n _ rfl; rw [Context.unsupported, Context.unsupported, hsource]
    text := by rintro n _ rfl _; exact htext n
    readText := by rintro n _ c _ _ rfl _ hc hd; cases hc.symm.trans hd; exact htext c
    firstText := by rintro n _ c _ rfl _ hc hd; cases hc.symm.trans hd; exact htext c
    assignText := by rintro n _ c _ rfl _ _ hc hd; cases hc.symm.trans hd; exact htext c
    defaultText := by rintro n _ c _ _ rfl _ _ hc hd _; cases hc.symm.trans hd; exact htext c
    operatorFirst := by
      rintro n _ a b _ _ rfl _ ha hb hc hd _
      cases ha.symm.trans hc
      cases hb.symm.trans hd
      exact Iff.rfl
    methodTokens := by rintro n _ c _ rfl hc hd; cases hc.symm.trans hd; rfl
    gaps := by
      rintro n _ rfl _
      exact List.forall₂_same.2 fun _ _ => ⟨fun _ => rfl, by rw [hsource]⟩
    start := by rintro n _ rfl _; rfl
    stop := by rintro n _ rfl _; rfl
    firstByte := by rintro n _ rfl _; rfl
    lastByte := by rintro n _ rfl _; rfl
    mark := by rintro n _ a b c d rfl hac hbd; rw [hac trivial, hbd trivial, hmark] }

/-- `Likeness.marks` as a simulation. -/
def Simulation.marks {ctx₁ : Context μ} {ctx₂ : Context ν} (hsource : ctx₁.source = ctx₂.source)
    (hcompiles : ctx₁.CompilesLike ctx₂) (left : μ → κ) (right : ν → κ)
    (hmark : ∀ n a b, left (ctx₁.mark n a b) = right (ctx₂.mark n a b)) :
    Simulation κ ctx₁ ctx₂ := (Likeness.marks hsource hcompiles left right hmark).toSimulation

namespace Convert

variable {ctx : Context μ} {n : Cst}

/-- A rule does not depend on what its converter does with syntax that is not lower. -/
theorem rule_congr {f g : Converter μ} (h : ∀ role c, c.height < n.height → f role c = g role c)
    (role : Role) : rule ctx f role n = rule ctx g role n := by
  let S : Simulation μ ctx ctx := .marks rfl rfl id id fun _ _ _ => rfl
  have refl (x : Outcome (Tree μ)) : S.Same S.TreeRel x x :=
    (Outcome.Alike.refl (fun _ => rfl) x).mono fun _ _ h => congrArg _ h
  have hlower : S.Lower n f g := {
    kin := by
      rintro role c _ _ ⟨rfl | hover, hlt⟩
      · rw [h role c hlt]
        exact refl _
      · exact hover.elim
    rel := by
      rintro role c _ _ ⟨rfl, hlt⟩ _
      rw [h role c hlt]
      exact refl _
    parameter := fun _ _ => False.elim
    blocked := fun c ⟨_, _, p, _, _, hX⟩ => hX.elim }
  have hbody : Option.Rel S.Rel (n.field? "body") (n.field? "body") := by
    cases n.field? "body" <;> constructor
    rfl
  have same := S.rule rfl hlower role (Likeness.stands _ role n) fun _ => hbody
  exact (same.mono fun t u htu => by rwa [← Tree.map_id t, ← Tree.map_id u]).eq

/-- Levels beyond the height of a tree change nothing. -/
theorem run_eq_run {levels more : Nat} (role : Role) (hl : n.height ≤ levels)
    (hm : n.height ≤ more) : run ctx levels role n = run ctx more role n := by
  induction levels generalizing more role n with
  | zero =>
    have := Cst.height_pos n
    omega
  | succ levels ih =>
    cases more with
    | zero =>
      have := Cst.height_pos n
      omega
    | succ more => exact rule_congr (fun role c hc => ih role (by omega) (by omega)) role

theorem run_eq_convert {levels : Nat} {role : Role} (hl : n.height ≤ levels) :
    run ctx levels role n = convert ctx role n := run_eq_run role hl (Nat.le_refl _)

/-- A conversion is the rule for its role with the conversion of what is lower. -/
theorem convert_eq (role : Role) : convert ctx role n = rule ctx (convert ctx) role n := by
  rw [← run_eq_convert (Nat.le_succ n.height), run]
  exact rule_congr (fun role c hc => run_eq_convert (Nat.le_of_lt hc)) role

/-! ## Type wrappers -/

variable {X : Unsupported → Prop} {f : Converter μ}

/-- A type wrapper is unexpected where it is declared. -/
theorem rule_stops {role : Role} (hrole : role = .binding ∨ role = .parameter)
    (hk : n.kind.isTypeWrapper) (hX : X (ctx.unsupported n)) : (rule ctx f role n).Stops X := by
  refine ⟨ctx.unsupported n, ?_, hX⟩
  rcases hrole with rfl | rfl <;> rcases Kind.eq_of_isTypeWrapper hk with hk | hk | hk | hk
  all_goals
    simp only [rule, parameter, Cst.isParameter, binding, hk]
    rfl

/-- In the head of a loop a type wrapper or its operand is an expression. -/
theorem forPart_eq (hk : n.kind ∈ Kind.typeWrappers ++ Kind.operands) :
    forPart ctx f n = expression ctx f n := by
  unfold forPart
  split
  case h_1 hk' | h_2 hk' | h_3 hk' => simp [hk', Kind.typeWrappers, Kind.operands] at hk
  case h_4 => rfl

theorem expression_wrapper (hk : n.kind.isTypeWrapper) :
    expression ctx f n = typeWrapper ctx f n := by
  rcases Kind.eq_of_isTypeWrapper hk with hk | hk | hk | hk
  all_goals
    unfold expression
    rw [hk]
    rfl

theorem target_wrapper {e : Cst → Outcome (Tree μ)} (hk : n.kind.isTypeWrapper) :
    target ctx f e n = ctx.firstNamed n >>= f .target := by
  rcases Kind.eq_of_isTypeWrapper hk with hk | hk | hk | hk
  all_goals
    unfold target
    rw [hk]
    rfl

end Convert

namespace Simulation

variable {ctx₁ : Context μ} {ctx₂ : Context ν} {S : Simulation κ ctx₁ ctx₂} {n m : Cst}

section
variable {f : Converter μ} {g : Converter ν} (hf : S.Lower n f g)
include hf

/-- A type wrapper that is read as an expression gives way to its operand. -/
theorem expression_over (h : S.Over n m)
    (hg : ∀ d, g .expression d = Convert.expression ctx₂ g d) :
    S.Same S.TreeRel (Convert.expression ctx₁ f n) (Convert.expression ctx₂ g m) := by
  obtain ⟨c, hc, hkin⟩ := (S.wraps h).wrapped
  have hlt : c.height < n.height := by
    unfold Cst.wrapped? at hc
    split at hc
    · exact Cst.height_lt_of_mem_named (List.mem_of_getLast? hc)
    · exact Cst.height_lt_of_mem_named (List.mem_of_head? hc)
  rw [Convert.expression_wrapper (S.wraps h).wrapper, Convert.typeWrapper, hc, ← hg]
  exact hf.expression ⟨hkin, hlt⟩

/-- A type wrapper that is assigned to gives way to its operand, which is its first named child as the
wrapper is no assertion. -/
theorem target_over (h : S.Over n m) (hn : S.Assigns n)
    (hg : ∀ d, g .target d = Convert.target ctx₂ g (Convert.expression ctx₂ g) d) :
    S.Same S.TreeRel (Convert.target ctx₁ f (Convert.expression ctx₁ f) n)
      (Convert.target ctx₂ g (Convert.expression ctx₂ g) m) := by
  obtain ⟨c, hc, hkin⟩ := (S.wraps h).wrapped
  rw [Cst.wrapped?, if_neg (S.unasserted h hn)] at hc
  rw [Convert.target_wrapper (S.wraps h).wrapper, Context.firstNamed, hc, pure_bind, ← hg]
  have hmay : S.May .target c :=
    S.targetPart hn (.inside (Kind.targetForm_of_isTypeWrapper (S.wraps h).wrapper) hc)
  exact hf.apply hmay ⟨hkin, Cst.height_lt_of_mem_named (List.mem_of_head? hc)⟩

end

/-- What is lower than a node is converted alike. -/
theorem lower (n : Cst) : S.Lower n (Convert.convert ctx₁) (Convert.convert ctx₂) := by
  induction hk : n.height using Nat.strongRecOn generalizing n with
  | ind k ih =>
    replace ih (c : Cst) (hlt : c.height < n.height) :
        S.Lower c (Convert.convert ctx₁) (Convert.convert ctx₂) := ih _ (hk ▸ hlt) c rfl
    constructor
    case kin =>
      intro role c d hmay hcd
      have hc := ih c hcd.lt
      rw [Convert.convert_eq, Convert.convert_eq]
      rcases hcd.kin with hrel | hover
      · refine rule hrel hc role (.of_may hmay) ?_
        rintro rfl
        exact hmay.elim
      have hview := S.wraps hover
      have hexpression := expression_over hc hover fun d => Convert.convert_eq .expression
      cases role with
      | expression => exact hexpression
      | forPart =>
        have hleft := Kind.isTypeWrapper_iff.1 hview.wrapper
        have hright := Cst.mem_operands hview.operand
        simp only [Convert.rule, Convert.forPart_eq (List.mem_append_left _ hleft),
          Convert.forPart_eq (List.mem_append_right _ hright)]
        exact hexpression
      | target => exact target_over hc hover hmay fun d => Convert.convert_eq .target
      | binding =>
        exact .stops (Convert.rule_stops (.inl rfl) hview.wrapper (S.refused hover hmay))
      | parameter =>
        exact .stops (Convert.rule_stops (.inr rfl) hview.wrapper (S.refused hover hmay))
      | _ => exact hmay.elim
    case rel =>
      intro role c d hstands hcd hbody
      rw [Convert.convert_eq, Convert.convert_eq]
      exact rule hcd.rel (ih c hcd.lt) role hstands hbody
    case parameter =>
      intro c d hcd hlt
      rw [Convert.convert_eq, Convert.convert_eq]
      exact parameter_of (.inr hcd) (S.parameterPair hcd) (ih c hlt)
    case blocked =>
      rintro c ⟨hparam, hdecorators, p, hp, hwrapper, hX⟩ _
      rw [Convert.convert_eq, Convert.rule, Convert.parameter, if_pos hparam, hdecorators,
        Context.field, hp]
      have hstops : (Convert.convert ctx₁ .binding p).Stops S.Excused := by
        rw [Convert.convert_eq]
        exact Convert.rule_stops (.inl rfl) hwrapper hX
      exact Outcome.Stops.of_ok rfl (Outcome.Stops.of_ok rfl hstops.bind)

/-- Nodes seen alike are converted alike. -/
theorem convert (h : S.Rel n m) (role : Role) (hn : S.Stands role n)
    (hbody : role = .catchClause → Option.Rel S.Rel (n.field? "body") (m.field? "body")) :
    S.Same S.TreeRel (Convert.convert ctx₁ role n) (Convert.convert ctx₂ role m) := by
  rw [Convert.convert_eq, Convert.convert_eq]
  exact rule h (lower n) role hn hbody

/-- Programs seen alike are converted alike. -/
theorem program (h : S.Rel n m) (hsize : S.placed → ctx₁.source.size = ctx₂.source.size)
    (htype : ctx₁.sourceType = ctx₂.sourceType) :
    S.Same S.TreeRel (Convert.program ctx₁ n) (Convert.program ctx₂ m) := by
  unfold Convert.program
  refine (expect h .program).bind fun _ _ _ _ hk => ?_
  have hitems : List.Forall₂ (S.Low n) (n.named.filter (·.kind != .hashBangLine))
      (m.named.filter (·.kind != .hashBangLine)) :=
    forall₂_filter (named_low h (by rw [hk]; rfl)) fun _ _ h => by rw [kind_eq h.rel]
  refine ((lower n).mapPlain rfl hitems).bind fun ts us _ _ htu => .pure ?_
  exact nodeAt h (fun _ => rfl) hsize (by simp only [ShapeRel, Shape.map, htu, htype])

end Simulation

end Estree
