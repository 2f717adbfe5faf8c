import Estree.Convert.Pattern
import Estree.Proofs.Log.Basic

/-!
# What literals, templates and patterns record
-/

namespace Estree

open Outcome Context

variable {μ : Type} {ctx : Context μ} {compiles : String → String → Bool} {n : Cst}

/-! ## Literals and templates -/

theorem covers_identifier : Covers [] [ctx.identifier n] := .node rfl .nil

theorem covers_privateIdentifier : Covers [] [ctx.privateIdentifier n] := .node rfl .nil

/-- The literals that are no regular expressions. -/
theorem covers_literalNode {value : LiteralValue} :
    Covers [] [Convert.literalNode ctx n value none] := by
  refine .node ?_ .nil
  simp only [Shape.unusable?]
  split <;> rfl

/-- A regular expression literal is converted, whether it compiles or not, and has a value
exactly if it does. -/
theorem regexLiteral_ok {pattern : Cst} (h : n.field? "pattern" = some pattern) :
    let r := ctx.regexOf n pattern
    ∃ t, (Convert.regexLiteral ctx n).result = .ok t ∧
      t.shape.unusable? = if ctx.compiles r.pattern r.flags then none else some r := by
  intro r
  unfold Convert.regexLiteral Context.field
  rw [h, pure_bind]
  dsimp only
  split
  case isTrue hr => exact ⟨_, rfl, (if_pos hr).symm⟩
  case isFalse hr => exact ⟨_, rfl, (if_neg hr).symm⟩

theorem regexLiteral_logs : Logs (Covers · [·]) (Convert.regexLiteral ctx n)
    (Convert.regexLiteral (ctx.judging compiles) n) := by
  cases h : n.field? "pattern" with
  | none =>
    have hfail (ctx : Context μ) : Convert.regexLiteral ctx n = ctx.unexpected n := by
      unfold Convert.regexLiteral Context.field
      rw [h]
      rfl
    rw [hfail, hfail]
    exact .fail
  | some pattern =>
    obtain ⟨t, ht, -⟩ := @regexLiteral_ok _ (ctx.judging compiles) _ _ h
    generalize Convert.regexLiteral (ctx.judging compiles) n = y at ht
    unfold Convert.regexLiteral Context.field
    rw [h, pure_bind]
    dsimp only
    split
    · exact .ok [] rfl rfl ht (.leaf Shape.children_literal rfl)
    · exact .ok [ctx.regexOf n pattern] rfl rfl ht (.leaf Shape.children_literal rfl)

theorem literal_logs : Logs (Covers · [·]) (Convert.literal ctx n)
    (Convert.literal (ctx.judging compiles) n) := by
  unfold Convert.literal
  split
  case h_1 | h_2 | h_3 | h_5 => exact .pure covers_literalNode
  case h_4 =>
    rw [text_judging]
    split
    · exact .pure covers_literalNode
    · exact .fail
  case h_6 => exact regexLiteral_logs
  case h_7 => exact .fail

theorem literal_plain (hk : n.kind ≠ .regex) : (Convert.literal ctx n).Plain ([·]) := by
  unfold Convert.literal
  split
  case h_1 | h_2 | h_3 | h_5 => exact .pure covers_literalNode
  case h_4 =>
    split
    · exact .pure covers_literalNode
    · exact .fail
  case h_6 hregex => exact absurd hregex hk
  case h_7 => exact .fail

/-- No other literal depends on how regular expressions are judged. -/
theorem literal_judging (hk : n.kind ≠ .regex) :
    Convert.literal (ctx.judging compiles) n = Convert.literal ctx n := by
  unfold Convert.literal
  split
  case h_6 hregex => exact absurd hregex hk
  all_goals rfl

section
variable {f g : Converter μ} (hf : Converter.Logs f g)
include hf

theorem template_logs : Logs (Covers · [·]) (Convert.template ctx f n)
    (Convert.template (ctx.judging compiles) g n) := by
  unfold Convert.template
  refine Logs.seq (.mapM fun c _ => ?_) fun rs expressions _ h => .pure ?_
  · exact .step firstNamed_quiet fun d _ => hf.role .expression d
  · have helements (tail : Bool) (extents : List (Nat × Nat)) :
        Covers [] (extents.map (Convert.templateElement ctx n tail)) := by
      induction extents with
      | nil => exact .nil
      | cons extent extents ih =>
        have hextent : Covers [] [Convert.templateElement ctx n tail extent] := .leaf rfl rfl
        exact hextent.append ih
    exact .node rfl (((helements false _).append (helements true _)).append h.done.last)

/-! ## Parts of patterns -/

theorem propertyKey_logs : Logs
    (fun rs t => Covers rs [t] ∧ (n.kind.isIdentifier ∨ n.kind = .string → rs = []))
    (Convert.propertyKey ctx f n) (Convert.propertyKey (ctx.judging compiles) g n) := by
  unfold Convert.propertyKey
  split
  case isTrue => exact .pure ⟨covers_identifier, fun _ => rfl⟩
  case isFalse hidentifier =>
    split
    case h_1 hk =>
      refine .step firstNamed_quiet fun c _ => (hf.role .expression c).mono fun rs t h => ⟨h, ?_⟩
      rintro (hname | hname)
      · exact absurd hname hidentifier
      · cases hk.symm.trans hname
    case h_2 => exact .pure ⟨covers_privateIdentifier, fun _ => rfl⟩
    case h_3 hk | h_4 hk =>
      have hregex : n.kind ≠ .regex := by
        rw [hk]
        nofun
      rw [literal_judging hregex]
      exact (literal_plain hregex).mono fun rs t ⟨hrs, h⟩ => ⟨hrs ▸ h, fun _ => hrs⟩
    case h_5 => exact .fail

omit hf in
theorem shorthandProperty_covers : CoversShape [] (Convert.shorthandProperty ctx n) :=
  ⟨rfl, covers_identifier.append covers_identifier⟩

theorem pairProperty_logs {role : Role} : Logs CoversShape (Convert.pairProperty ctx f role n)
    (Convert.pairProperty (ctx.judging compiles) g role n) := by
  unfold Convert.pairProperty
  refine .step field_quiet fun name _ => ?_
  refine .seq (hf.role .propertyKey name) fun ks key _ hkey => ?_
  refine .step field_quiet fun c _ => ?_
  refine .seq (hf.role role c) fun vs value _ hvalue => .pure ?_
  exact ⟨rfl, hkey.append (hvalue.append .nil)⟩

theorem defaultedProperty_logs {role : Role} :
    Logs CoversShape (Convert.defaultedProperty ctx f role n)
      (Convert.defaultedProperty (ctx.judging compiles) g role n) := by
  unfold Convert.defaultedProperty
  refine .step field_quiet fun c _ => ?_
  refine .seq (hf.role role c) fun ls left _ hleft => ?_
  refine .step field_quiet fun d _ => ?_
  refine .seq (hf.role .expression d) fun rs right _ hright => .pure ?_
  -- The pattern is the key, and a part of the value as well.
  have hparts := (hleft.append (hright.append .nil)).again
  refine ⟨rfl, hparts.congr ?_⟩
  simp [Convert.plainProperty, Context.node, Context.nodeAt, Shape.children, Shape.fields,
    Field.children, Tree.unusable_mk, Shape.unusable?]

theorem elements_logs {role : Role} :
    Logs (fun rs os => Covers rs (os.filterMap id)) (Convert.elements f role n)
      (Convert.elements g role n) := by
  unfold Convert.elements
  refine (Logs.mapM_of fun o _ => .onSome fun c _ => hf.role role c).mono fun rs os h => ?_
  rwa [List.filterMap_eq_flatMap_toList]

theorem defaulted_logs {role : Role} : Logs CoversShape (Convert.defaulted ctx f role n)
    (Convert.defaulted (ctx.judging compiles) g role n) := by
  unfold Convert.defaulted
  refine .step field_quiet fun c _ => ?_
  refine .seq (hf.role role c) fun ls left _ hleft => ?_
  refine .step field_quiet fun d _ => ?_
  refine .seq (hf.role .expression d) fun rs right _ hright => .pure ?_
  exact ⟨rfl, hleft.append (hright.append .nil)⟩

theorem rest_logs {role : Role} : Logs CoversShape (Convert.rest ctx f role n)
    (Convert.rest (ctx.judging compiles) g role n) := by
  unfold Convert.rest
  refine .step firstNamed_quiet fun c _ => ?_
  refine .seq (hf.role role c) fun rs t _ ht => .pure ?_
  exact ⟨rfl, ht.append .nil⟩

/-! ## Declared names and patterns -/

theorem binding_logs : Logs (Covers · [·]) (Convert.binding ctx f n)
    (Convert.binding (ctx.judging compiles) g n) := by
  unfold Convert.binding
  split
  case isTrue => exact .pure covers_identifier
  case isFalse =>
    refine Logs.node ?_
    split
    case h_1 => exact .map (.mapM fun c _ => hf.role .bindingMember c) fun rs ts h => ⟨rfl, h.last⟩
    case h_2 => exact .map (elements_logs hf) fun rs ts h => ⟨rfl, h.last⟩
    case h_3 => exact defaulted_logs hf
    case h_4 => exact rest_logs hf
    case h_5 => exact .fail

theorem bindingMember_logs : Logs (Covers · [·]) (Convert.bindingMember ctx f n)
    (Convert.bindingMember (ctx.judging compiles) g n) := by
  unfold Convert.bindingMember
  refine Logs.node ?_
  split
  case h_1 => exact pairProperty_logs hf
  case h_2 => exact .pure shorthandProperty_covers
  case h_3 => exact defaultedProperty_logs hf
  case h_4 => exact rest_logs hf
  case h_5 => exact .fail

/-! ## Targets of assignments -/

theorem target_logs {e e' : Cst → Outcome (Tree μ)} (he : Logs (Covers · [·]) (e n) (e' n)) :
    Logs (Covers · [·]) (Convert.target ctx f e n)
      (Convert.target (ctx.judging compiles) g e' n) := by
  have hfirst : Logs (Covers · [·]) (ctx.firstNamed n >>= f .target)
      (ctx.firstNamed n >>= g .target) := .step firstNamed_quiet fun c _ => hf.role .target c
  unfold Convert.target
  split
  case isTrue => exact .pure covers_identifier
  case isFalse =>
  split
  case isTrue => exact hfirst
  case isFalse =>
  split
  case h_1 | h_2 => exact he
  case h_3 => exact hfirst
  case h_4 | h_5 =>
    exact .map (.mapM fun c _ => hf.role .targetMember c) fun rs ts h => .node rfl h.last
  case h_6 | h_7 => exact .map (elements_logs hf) fun rs os h => .node rfl h.last
  case h_8 | h_9 => exact .node (defaulted_logs hf)
  case h_10 | h_11 => exact .node (rest_logs hf)
  case h_12 => exact .fail

theorem targetMember_logs : Logs (Covers · [·]) (Convert.targetMember ctx f n)
    (Convert.targetMember (ctx.judging compiles) g n) := by
  unfold Convert.targetMember
  refine Logs.node ?_
  split
  case h_1 | h_2 => exact pairProperty_logs hf
  case h_3 | h_4 => exact .pure shorthandProperty_covers
  case h_5 => exact defaultedProperty_logs hf
  case h_6 | h_7 => exact rest_logs hf
  case h_8 => exact .fail

end

end Estree
