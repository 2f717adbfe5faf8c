import Estree.Proofs.Sequence.Basic
import Estree.Proofs.Target.Wrapper

/-!
# Nested comma expressions

A comma expression yields the conversions of its operands in order, or fails as the first operand that
does (`Program.sequence_flattened`). So its value depends on the list of its operands alone, and not on
how comma expressions are nested in it. The nesting decides about the fields of the operands, but no
conversion looks at the field of its own node (`Convert.convert_inField`).
-/

namespace Estree

variable {μ : Type} {ctx : Context μ} {n m c : Cst} {t : Tree μ} {ts : List (Tree μ)}

/-! ## Fields -/

/-- Marks do not show the field of a node. -/
def Context.FieldBlind (ctx : Context μ) : Prop :=
  ∀ (n : Cst) field start stop, ctx.mark (n.inField field) start stop = ctx.mark n start stop

/-- A conversion and itself on nodes that differ in nothing but their fields. -/
def Likeness.fields (hmark : ctx.FieldBlind) : Likeness μ ctx ctx :=
  have refl (c : Cst) : ∃ field, c = c.inField field := ⟨c.head.field, c.inField_self.symm⟩
  have same (o : Option Cst) : Option.Rel (fun n m => ∃ field, m = n.inField field) o o := by
    cases o <;> constructor
    exact refl _
  { Rel n m := ∃ field, m = n.inField field
    Fail := Eq
    left := id
    right := id
    placed := True
    compiles := .refl ctx
    head := by
      rintro n _ ⟨field, rfl⟩
      constructor <;> rfl
    parts := by
      rintro n _ ⟨field, rfl⟩
      exact List.forall₂_same.2 fun c _ => ⟨refl c, rfl⟩
    field := by
      rintro n _ name ⟨field, rfl⟩ _
      exact same (n.field? name)
    clauseBody := by
      rintro n _ c d name ⟨field, rfl⟩ _ _ hc hd
      cases hc.symm.trans hd
      exact same (c.field? "body")
    fail := by
      rintro n _ ⟨field, rfl⟩
      rfl
    text := by
      rintro n _ ⟨field, rfl⟩ _
      rfl
    readText := by
      rintro n _ c d name ⟨field, rfl⟩ _ hc hd
      cases hc.symm.trans hd
      rfl
    firstText := by
      rintro n _ c d ⟨field, rfl⟩ _ hc hd
      cases hc.symm.trans hd
      rfl
    assignText := by
      rintro n _ c d ⟨field, rfl⟩ _ _ hc hd
      cases hc.symm.trans hd
      rfl
    defaultText := by
      rintro n _ c d name ⟨field, rfl⟩ _ _ hc hd _
      cases hc.symm.trans hd
      rfl
    operatorFirst := by
      rintro n _ a b c d ⟨field, rfl⟩ _ ha hb hc hd _
      cases ha.symm.trans hc
      cases hb.symm.trans hd
      exact Iff.rfl
    methodTokens := by
      rintro n _ c d ⟨field, rfl⟩ hc hd
      cases hc.symm.trans hd
      rfl
    gaps := by
      rintro n _ ⟨field, rfl⟩ _
      exact List.forall₂_same.2 fun _ _ => ⟨fun _ => rfl, rfl⟩
    start := by
      rintro n _ ⟨field, rfl⟩ _
      rfl
    stop := by
      rintro n _ ⟨field, rfl⟩ _
      rfl
    firstByte := by
      rintro ⟨head, cs⟩ _ ⟨field, rfl⟩ _
      rfl
    lastByte := by
      rintro ⟨head, cs⟩ _ ⟨field, rfl⟩ _
      rfl
    mark := by
      rintro n _ a b c d ⟨field, rfl⟩ hac hbd
      rw [hac trivial, hbd trivial, hmark] }

namespace Convert

/-- A node is converted alike in every field. -/
theorem convert_inField (hmark : ctx.FieldBlind) (role : Role) (field : Option String) :
    convert ctx role (n.inField field) = convert ctx role n := by
  let S := (Likeness.fields hmark).toSimulation
  have hrel : S.Rel n (n.inField field) := ⟨field, rfl⟩
  have hbody : Option.Rel S.Rel (n.field? "body") ((n.inField field).field? "body") := by
    change Option.Rel S.Rel (n.field? "body") (n.field? "body")
    cases n.field? "body" with
    | none => exact .none
    | some c => exact .some ⟨c.head.field, c.inField_self.symm⟩
  have same := S.convert hrel role (Likeness.stands _ role n) fun _ => hbody
  exact (same.mono fun t u htu => by rwa [← Tree.map_id t, ← Tree.map_id u]).eq.symm

/-- The conversion of a list of nodes does not depend on their fields. -/
theorem mapM_convert_inField (hmark : ctx.FieldBlind) (role : Role) (cs : List Cst) :
    (cs.map (·.inField none)).mapM (convert ctx role) = cs.mapM (convert ctx role) := by
  rw [List.mapM_map]
  exact congrArg (cs.mapM ·) (funext fun c => convert_inField hmark role none)

/-! ## Comma expressions -/

theorem expression_sequence {f : Converter μ} (hk : n.kind = .sequenceExpression) :
    expression ctx f n = ctx.node n <$> sequence f n := by
  rw [expression, hk]
  rfl

/-- A comma expression is converted as the list of its operands. -/
theorem convert_sequence (hk : n.kind = .sequenceExpression) : convert ctx .expression n =
    (ctx.node n <| .sequenceExpression ·) <$> n.operands.mapM (convert ctx .expression) := by
  rw [convert_eq, rule, expression_sequence hk, sequence_eq]
  exact Functor.map_map ..

/-- A comma expression succeeds with the conversions of its operands. -/
theorem result_sequence_eq_ok (hk : n.kind = .sequenceExpression) :
    (convert ctx .expression n).result = .ok t ↔
      ∃ ts, List.Forall₂ (fun c t => (convert ctx .expression c).result = .ok t) n.operands ts ∧
        t = ctx.node n (.sequenceExpression ts) := by
  rw [convert_sequence hk, Outcome.result_map_eq_ok]
  exact exists_congr fun ts => and_congr Outcome.result_mapM_eq_ok eq_comm

theorem result_sequence_eq_node (hk : n.kind = .sequenceExpression) :
    (convert ctx .expression n).result = .ok (ctx.node n (.sequenceExpression ts)) ↔
      (n.operands.mapM (convert ctx .expression)).result = .ok ts := by
  rw [convert_sequence hk, Outcome.result_map_eq_ok]
  constructor
  · rintro ⟨us, hus, heq⟩
    cases congrArg Tree.shape heq
    exact hus
  · intro h
    exact ⟨ts, h, rfl⟩

/-- A comma expression in parentheses and type wrappers stays a comma expression. -/
theorem result_encloses_sequence (h : c.Encloses n) (hk : n.kind = .sequenceExpression)
    (ht : (convert ctx .expression c).result = .ok t) :
    ∃ es, t = ctx.node n (.sequenceExpression es) ∧
      (convert ctx .expression n).result = .ok (ctx.node n (.sequenceExpression es)) := by
  rw [convert_expression_of_encloses h] at ht
  obtain ⟨es, hes, rfl⟩ := (result_sequence_eq_ok hk).1 ht
  exact ⟨es, rfl, ht⟩

/-- A comma expression fails as its first operand that does. -/
theorem result_sequence_eq_error (hk : n.kind = .sequenceExpression) {u : Unsupported} :
    (convert ctx .expression n).result = .error u ↔
      ∃ before c behind, n.operands = before ++ c :: behind ∧
        (∀ b ∈ before, ∃ t, (convert ctx .expression b).result = .ok t) ∧
        (convert ctx .expression c).result = .error u := by
  rw [convert_sequence hk, Outcome.result_map_eq_error, Outcome.result_mapM_eq_error]

end Convert

/-- No operand is a comma expression itself. -/
theorem Cst.kind_of_mem_operands (h : c ∈ n.operands) : c.kind ≠ .sequenceExpression := by
  induction hk : n.height using Nat.strongRecOn generalizing n with
  | ind k ih =>
    rw [operands_eq] at h
    obtain ⟨d, hd, hc⟩ := List.mem_flatMap.1 h
    split at hc
    case isTrue => exact ih d.height (hk ▸ height_lt_of_mem_named hd) hc rfl
    case isFalse hne =>
      obtain rfl := List.mem_singleton.1 hc
      exact hne

/-- **Only the operands of a comma expression count.** Its operands are reached through comma
expressions directly inside alone, so none of them is one. It succeeds exactly if all operands do, with
their conversions in order, and otherwise fails as the first operand that does. Another nesting of the
same operands, which may have them in other fields, gives the same expressions or the same failure. A
comma expression in parentheses or type wrappers is one operand, and stays a comma expression. -/
theorem Program.sequence_flattened {source : Source} {options : Options} {n : Cst}
    (hk : n.kind = .sequenceExpression) :
    let ctx := context source options
    let convert := Convert.convert ctx .expression
    (∀ c ∈ n.operands, c.kind ≠ .sequenceExpression) ∧
    (∀ t, (convert n).result = .ok t ↔
      ∃ ts, List.Forall₂ (fun c t => (convert c).result = .ok t) n.operands ts ∧
        t = ctx.node n (.sequenceExpression ts)) ∧
    (∀ u, (convert n).result = .error u ↔
      ∃ before c behind, n.operands = before ++ c :: behind ∧
        (∀ b ∈ before, ∃ t, (convert b).result = .ok t) ∧ (convert c).result = .error u) ∧
    (∀ m : Cst, m.kind = .sequenceExpression →
      m.operands.map (·.inField none) = n.operands.map (·.inField none) →
      (∀ ts, (convert m).result = .ok (ctx.node m (.sequenceExpression ts)) ↔
        (convert n).result = .ok (ctx.node n (.sequenceExpression ts))) ∧
      ∀ u, (convert m).result = .error u ↔ (convert n).result = .error u) ∧
    ∀ ts, (convert n).result = .ok (ctx.node n (.sequenceExpression ts)) →
      ∀ (i : Nat) c inner, n.operands[i]? = some c → c.Encloses inner →
        inner.kind = .sequenceExpression →
        ∃ es, ts[i]? = some (ctx.node inner (.sequenceExpression es)) ∧
          (convert inner).result = .ok (ctx.node inner (.sequenceExpression es)) := by
  intro ctx convert
  have hblind : ctx.FieldBlind := fun _ _ _ _ => rfl
  refine ⟨fun c => Cst.kind_of_mem_operands, fun t => Convert.result_sequence_eq_ok hk,
    fun u => Convert.result_sequence_eq_error hk, fun m hm hsame => ?_, ?_⟩
  · have hoperands : m.operands.mapM convert = n.operands.mapM convert := by
      rw [← Convert.mapM_convert_inField hblind, hsame, Convert.mapM_convert_inField hblind]
    constructor
    · intro ts
      rw [Convert.result_sequence_eq_node hm, hoperands, ← Convert.result_sequence_eq_node hk]
    · intro u
      rw [Convert.result_sequence_eq_error hm, ← Outcome.result_mapM_eq_error, hoperands,
        Outcome.result_mapM_eq_error, ← Convert.result_sequence_eq_error hk]
  · intro ts hts i c inner hc hencloses hinner
    have hrel := Outcome.result_mapM_eq_ok.1 ((Convert.result_sequence_eq_node hk).1 hts)
    obtain ⟨hi, rfl⟩ := List.getElem?_eq_some_iff.1 hc
    have hi' : i < ts.length := hrel.length_eq ▸ hi
    obtain ⟨es, ht, hes⟩ :=
      Convert.result_encloses_sequence hencloses hinner (hrel.get hi hi')
    exact ⟨es, List.getElem?_eq_some_iff.2 ⟨hi', ht⟩, hes⟩

/-- The tree of `(b,c)` in `a,(b,c),d`. -/
def innerSequence (field : String) : Cst :=
  .node { label := "parenthesized_expression", isNamed := true, start := 2, stop := 7, field } [
    .node { label := "(", start := 2, stop := 3 } [],
    .node { label := "sequence_expression", isNamed := true, start := 3, stop := 6 } [
      .node { label := "identifier", isNamed := true, start := 3, stop := 4,
              field := some "left" } [],
      .node { label := ",", start := 4, stop := 5 } [],
      .node { label := "identifier", isNamed := true, start := 5, stop := 6,
              field := some "right" } []],
    .node { label := ")", start := 6, stop := 7 } []]

/-- The tree of `a,(b,c),d` with its first comma inside. -/
def leftSequence : Cst :=
  .node { label := "sequence_expression", isNamed := true, start := 0, stop := 9 } [
    .node { label := "sequence_expression", isNamed := true, start := 0, stop := 7,
            field := some "left" } [
      .node { label := "identifier", isNamed := true, start := 0, stop := 1,
              field := some "left" } [],
      .node { label := ",", start := 1, stop := 2 } [],
      innerSequence "right"],
    .node { label := ",", start := 7, stop := 8 } [],
    .node { label := "identifier", isNamed := true, start := 8, stop := 9,
            field := some "right" } []]

/-- The tree of `a,(b,c),d` with its last comma inside. -/
def rightSequence : Cst :=
  .node { label := "sequence_expression", isNamed := true, start := 0, stop := 9 } [
    .node { label := "identifier", isNamed := true, start := 0, stop := 1,
            field := some "left" } [],
    .node { label := ",", start := 1, stop := 2 } [],
    .node { label := "sequence_expression", isNamed := true, start := 2, stop := 9,
            field := some "right" } [
      innerSequence "left",
      .node { label := ",", start := 7, stop := 8 } [],
      .node { label := "identifier", isNamed := true, start := 8, stop := 9,
              field := some "right" } []]]

theorem leftSequence_flattened :
    let ctx := Program.context (.ofString "a,(b,c),d") {}
    leftSequence.kind = .sequenceExpression ∧ rightSequence.kind = .sequenceExpression ∧
      rightSequence.operands.map (·.inField none) = leftSequence.operands.map (·.inField none) ∧
      ∃ ts inner es,
        (Convert.convert ctx .expression leftSequence).result =
          .ok (ctx.node leftSequence (.sequenceExpression ts)) ∧
        (Convert.convert ctx .expression rightSequence).result =
          .ok (ctx.node rightSequence (.sequenceExpression ts)) ∧
        ts.length = 3 ∧ ts[1]? = some (ctx.node inner (.sequenceExpression es)) := by
  intro ctx
  have hleft : leftSequence.kind = .sequenceExpression := rfl
  have hright : rightSequence.kind = .sequenceExpression := rfl
  have hsame : rightSequence.operands.map (·.inField none)
      = leftSequence.operands.map (·.inField none) := rfl
  obtain ⟨ts, hts, hlength⟩ : ∃ ts, (Convert.convert ctx .expression leftSequence).result =
      .ok (ctx.node leftSequence (.sequenceExpression ts)) ∧ ts.length = 3 := ⟨_, rfl, rfl⟩
  obtain ⟨inner, hinner, hencloses⟩ : ∃ inner : Cst, inner.kind = .sequenceExpression ∧
      (innerSequence "right").Encloses inner := ⟨_, rfl, .parentheses rfl rfl .self⟩
  obtain ⟨-, -, -, hnesting, hone⟩ := Program.sequence_flattened hleft
  obtain ⟨es, hes, -⟩ := hone ts hts 1 _ inner rfl hencloses hinner
  exact ⟨hleft, hright, hsame, ts, inner, es, hts, ((hnesting _ hright hsame).1 ts).2 hts,
    hlength, hes⟩

end Estree
