import Estree.Convert.Expression
import Estree.Proofs.Built.Expression
import Estree.Proofs.Log.Pattern

/-!
# What functions, classes and expressions record
-/

namespace Estree

open Outcome Context

variable {μ : Type} {ctx : Context μ} {compiles : String → String → Bool} {n : Cst}

/-- The identifier in a field that may be absent. -/
theorem covers_fieldIdentifier {o : Option Cst} : Covers [] (o.map ctx.identifier).toList := by
  cases o with
  | none => exact .nil
  | some c => exact covers_identifier

section
variable {f g : Converter μ} (hf : Converter.Logs f g)
include hf

/-! ## Functions -/

theorem parameter_logs : Logs (Covers · [·]) (Convert.parameter ctx f n)
    (Convert.parameter (ctx.judging compiles) g n) := by
  unfold Convert.parameter
  split
  case isFalse => exact binding_logs hf
  case isTrue =>
    refine .step reject_quiet fun _ _ => ?_
    refine .step field_quiet fun pattern _ => ?_
    refine .seq (hf.role .binding pattern) fun ls left _ hleft => ?_
    split
    case h_1 => exact .pure hleft.done
    case h_2 value _ =>
      refine .seq (hf.role .expression value) fun rs right _ hright => .pure ?_
      exact .node rfl (hleft.append (hright.append .nil))

theorem parameters_logs : Logs Covers (Convert.parameters ctx f n)
    (Convert.parameters (ctx.judging compiles) g n) := by
  unfold Convert.parameters
  exact .step expect_quiet fun _ _ => .mapM fun c _ => hf.role .parameter c

omit hf in
theorem functionName_plain (form : FunctionForm) :
    (Convert.functionName ctx form n).Plain Option.toList := by
  cases form with
  | declaration => exact Logs.step field_quiet fun c _ => Plain.pure covers_identifier
  | expression => exact .pure covers_fieldIdentifier
  | arrow => exact .pure .nil

theorem functionParameters_logs : Logs Covers (Convert.functionParameters ctx f n)
    (Convert.functionParameters (ctx.judging compiles) g n) := by
  unfold Convert.functionParameters
  split
  case h_1 param _ => exact .seq (hf.role .binding param) fun rs t _ ht => .pure ht.done
  case h_2 => exact .step field_quiet fun c _ => parameters_logs hf

theorem functionBody_logs {form : FunctionForm} :
    Logs (Covers · [·]) (Convert.functionBody ctx f form n)
      (Convert.functionBody (ctx.judging compiles) g form n) := by
  unfold Convert.functionBody
  split
  case isTrue => exact hf.role .block n
  case isFalse =>
    split
    case isTrue => exact hf.role .expression n
    case isFalse => exact .fail

omit hf in
theorem FunctionForm.covers {rs : List RegexLiteral} {form : FunctionForm}
    {function : FunctionShape (Tree μ)}
    (h : Covers rs (function.id.toList ++ (function.params ++ [function.body]))) :
    CoversShape rs (form.shape function) := by
  cases form <;> exact ⟨rfl, h⟩

theorem function_logs {form : FunctionForm} :
    Logs (Covers · [·]) (Convert.function ctx f form n)
      (Convert.function (ctx.judging compiles) g form n) := by
  unfold Convert.function
  refine (functionName_plain form).step fun id hid => ?_
  refine .seq (functionParameters_logs hf) fun ps params _ hparams => ?_
  refine .step field_quiet fun body _ => ?_
  refine .seq (functionBody_logs hf) fun bs block _ hblock => .pure ?_
  have hparts := hid.append (hparams.append hblock.done)
  exact (FunctionForm.covers hparts).node

/-! ## Methods and classes -/

omit hf in
theorem className_plain {isDeclaration : Bool} :
    (Convert.className ctx isDeclaration n).Plain Option.toList := by
  cases isDeclaration with
  | true => exact functionName_plain .declaration
  | false => exact functionName_plain .expression

theorem methodValue_logs {modifiers : Modifiers} :
    Logs (Covers · [·]) (Convert.methodValue ctx f n modifiers)
      (Convert.methodValue (ctx.judging compiles) g n modifiers) := by
  unfold Convert.methodValue
  refine .step field_quiet fun list _ => ?_
  refine .step field_quiet fun body _ => ?_
  refine .seq (parameters_logs hf) fun ps params _ hparams => ?_
  refine .seq (hf.role .block body) fun bs block _ hblock => .pure ?_
  exact .node rfl (Covers.nil.append (hparams.append hblock.done))

theorem objectMethod_logs : Logs CoversShape (Convert.objectMethod ctx f n)
    (Convert.objectMethod (ctx.judging compiles) g n) := by
  unfold Convert.objectMethod
  refine .step field_quiet fun name _ => ?_
  refine .seq (hf.role .propertyKey name) fun ks key _ hkey => ?_
  refine .seq (methodValue_logs hf) fun vs value _ hvalue => .pure ?_
  exact ⟨rfl, hkey.append (hvalue.append .nil)⟩

theorem classMember_logs : Logs (Covers · [·]) (Convert.classMember ctx f n)
    (Convert.classMember (ctx.judging compiles) g n) := by
  unfold Convert.classMember
  refine .step expect_quiet fun _ _ => ?_
  refine .step field_quiet fun name _ => ?_
  refine .seq (hf.name name) fun ks key _ hkey => ?_
  refine .seq (methodValue_logs hf) fun vs value _ hvalue => .pure ?_
  refine .node rfl (.append ?_ (hvalue.append .nil))
  split
  case isFalse => exact hkey.1
  case isTrue hconstructor =>
    have hname := kind_of_methodKind hconstructor
    rw [hkey.2 (hname.imp And.left And.left)]
    exact .leaf rfl rfl

theorem classBody_logs : Logs (Covers · [·]) (Convert.classBody ctx f n)
    (Convert.classBody (ctx.judging compiles) g n) := by
  unfold Convert.classBody
  refine .step expect_quiet fun _ _ => ?_
  refine .seq (.mapM fun c _ => hf.role .classMember c) fun rs members _ h => .pure ?_
  exact .node rfl (h.append .nil)

omit hf in
theorem superClass_quiet : (Convert.superClass ctx n).Quiet := by
  unfold Convert.superClass
  split
  case h_1 => exact .pure
  case h_2 =>
    split
    case isFalse => exact .pure
    case isTrue =>
      split
      case h_1 => exact .pure
      case h_2 => exact .bind firstNamed_quiet fun _ _ => .pure

theorem classLike_logs {isDeclaration : Bool} :
    Logs (Covers · [·]) (Convert.classLike ctx f isDeclaration n)
      (Convert.classLike (ctx.judging compiles) g isDeclaration n) := by
  unfold Convert.classLike
  refine .step reject_quiet fun _ _ => ?_
  refine className_plain.step fun id hid => ?_
  refine .step superClass_quiet fun clause _ => ?_
  refine .seq (.onSome fun c _ => hf.role .expression c) fun es extended _ hextended => ?_
  refine .step field_quiet fun c _ => ?_
  refine .seq (classBody_logs hf) fun bs body _ hbody => .pure ?_
  have hparts := hid.append (hextended.append hbody.done)
  cases isDeclaration <;> exact .node rfl hparts

/-! ## Expressions -/

omit hf in
theorem rejectOptionalChain_quiet : (Convert.rejectOptionalChain ctx n).Quiet := reject_quiet

omit hf in
theorem operator_quiet {allowed : List String} : (Convert.operator ctx allowed n).Quiet := by
  unfold Convert.operator
  split
  · exact .pure
  · exact .fail

theorem typeWrapper_logs : Logs (Covers · [·]) (Convert.typeWrapper ctx f n)
    (Convert.typeWrapper (ctx.judging compiles) g n) := by
  unfold Convert.typeWrapper
  split
  case h_1 operand _ => exact hf.role .expression operand
  case h_2 => exact .fail

theorem unary_logs : Logs CoversShape (Convert.unary ctx f n)
    (Convert.unary (ctx.judging compiles) g n) := by
  unfold Convert.unary
  refine .step field_quiet fun mark _ => ?_
  refine .step operator_quiet fun operator _ => ?_
  refine .step field_quiet fun c _ => ?_
  refine .seq (hf.role .expression c) fun rs argument _ h => .pure ?_
  exact ⟨rfl, h.append .nil⟩

theorem update_logs : Logs CoversShape (Convert.update ctx f n)
    (Convert.update (ctx.judging compiles) g n) := by
  unfold Convert.update
  refine .step field_quiet fun mark _ => ?_
  refine .step field_quiet fun c _ => ?_
  refine .step operator_quiet fun operator _ => ?_
  refine .seq (hf.role .expression c) fun rs argument _ h => .pure ?_
  exact ⟨rfl, h.append .nil⟩

theorem binary_logs : Logs CoversShape (Convert.binary ctx f n)
    (Convert.binary (ctx.judging compiles) g n) := by
  unfold Convert.binary
  refine .step field_quiet fun operator _ => ?_
  refine .step field_quiet fun c _ => ?_
  refine .seq (hf.role .expression c) fun ls left _ hleft => ?_
  refine .step field_quiet fun d _ => ?_
  refine .seq (hf.role .expression d) fun rs right _ hright => .pure ?_
  split <;> exact ⟨rfl, hleft.append (hright.append .nil)⟩

theorem sequence_logs : Logs CoversShape (Convert.sequence f n) (Convert.sequence g n) := by
  rw [Convert.sequence_eq, Convert.sequence_eq]
  exact .map (.mapM fun c _ => hf.role .expression c) fun rs ts h => ⟨rfl, h.last⟩

omit hf in
theorem assignmentMark_quiet : (Convert.assignmentMark ctx n).Quiet := by
  unfold Convert.assignmentMark
  split
  case h_1 => exact .pure
  case h_2 =>
    split
    case h_1 => exact .pure
    case h_2 => exact .fail

theorem assignment_logs : Logs CoversShape (Convert.assignment ctx f n)
    (Convert.assignment (ctx.judging compiles) g n) := by
  unfold Convert.assignment
  refine .step assignmentMark_quiet fun mark _ => ?_
  refine .step operator_quiet fun operator _ => ?_
  refine .step field_quiet fun c _ => ?_
  refine .seq (hf.role .target c) fun ls left _ hleft => ?_
  refine .step field_quiet fun d _ => ?_
  refine .seq (hf.role .expression d) fun rs right _ hright => .pure ?_
  exact ⟨rfl, hleft.append (hright.append .nil)⟩

theorem conditional_logs : Logs CoversShape (Convert.conditional ctx f n)
    (Convert.conditional (ctx.judging compiles) g n) := by
  unfold Convert.conditional
  refine .step field_quiet fun c _ => ?_
  refine .seq (hf.role .expression c) fun ts test _ htest => ?_
  refine .step field_quiet fun d _ => ?_
  refine .seq (hf.role .expression d) fun cs consequent _ hconsequent => ?_
  refine .step field_quiet fun e _ => ?_
  refine .seq (hf.role .expression e) fun as alternate _ halternate => .pure ?_
  exact ⟨rfl, htest.append (hconsequent.append (halternate.append .nil))⟩

theorem arguments_logs : Logs Covers (Convert.arguments ctx f n)
    (Convert.arguments (ctx.judging compiles) g n) := by
  unfold Convert.arguments
  exact .step expect_quiet fun _ _ => .mapM fun c _ => hf.role .expression c

theorem call_logs : Logs CoversShape (Convert.call ctx f n)
    (Convert.call (ctx.judging compiles) g n) := by
  unfold Convert.call
  refine .step rejectOptionalChain_quiet fun _ _ => ?_
  refine .step field_quiet fun c _ => ?_
  refine .seq (hf.role .expression c) fun cs callee _ hcallee => ?_
  refine .step field_quiet fun list _ => ?_
  split
  case isTrue =>
    refine .seq (hf.role .expression list) fun qs quasi _ hquasi => .pure ?_
    exact ⟨rfl, hcallee.append (hquasi.append .nil)⟩
  case isFalse =>
    refine .seq (arguments_logs hf) fun as args _ hargs => .pure ?_
    exact ⟨rfl, hcallee.append (hargs.append .nil)⟩

theorem creationArguments_logs : Logs Covers (Convert.creationArguments ctx f n)
    (Convert.creationArguments (ctx.judging compiles) g n) := by
  unfold Convert.creationArguments
  split
  case h_1 => exact arguments_logs hf
  case h_2 => exact .pure .nil

theorem creation_logs : Logs CoversShape (Convert.creation ctx f n)
    (Convert.creation (ctx.judging compiles) g n) := by
  unfold Convert.creation
  refine .seq (creationArguments_logs hf) fun as args _ hargs => ?_
  refine .step field_quiet fun c _ => ?_
  refine .seq (hf.role .expression c) fun cs callee _ hcallee => .pure ?_
  have hparts := hargs.append (hcallee.append .nil)
  exact ⟨rfl, (hparts.perm List.perm_append_comm).last⟩

omit hf in
theorem covers_memberName : Covers [] [Convert.memberName ctx n] := by
  unfold Convert.memberName
  split
  · exact covers_privateIdentifier
  · exact covers_identifier

theorem member_logs : Logs CoversShape (Convert.member ctx f n)
    (Convert.member (ctx.judging compiles) g n) := by
  unfold Convert.member
  refine .step rejectOptionalChain_quiet fun _ _ => ?_
  refine .step field_quiet fun property _ => ?_
  refine .step field_quiet fun c _ => ?_
  refine .seq (hf.role .expression c) fun rs object _ hobject => .pure ?_
  exact ⟨rfl, hobject.append covers_memberName⟩

theorem subscript_logs : Logs CoversShape (Convert.subscript ctx f n)
    (Convert.subscript (ctx.judging compiles) g n) := by
  unfold Convert.subscript
  refine .step rejectOptionalChain_quiet fun _ _ => ?_
  refine .step field_quiet fun c _ => ?_
  refine .seq (hf.role .expression c) fun os object _ hobject => ?_
  refine .step field_quiet fun d _ => ?_
  refine .seq (hf.role .expression d) fun is index _ hindex => .pure ?_
  exact ⟨rfl, hobject.append (hindex.append .nil)⟩

theorem spread_logs : Logs CoversShape (Convert.spread ctx f n)
    (Convert.spread (ctx.judging compiles) g n) := by
  unfold Convert.spread
  refine .step firstNamed_quiet fun c _ => ?_
  refine .seq (hf.role .expression c) fun rs argument _ h => .pure ?_
  exact ⟨rfl, h.append .nil⟩

theorem objectMember_logs : Logs (Covers · [·]) (Convert.objectMember ctx f n)
    (Convert.objectMember (ctx.judging compiles) g n) := by
  unfold Convert.objectMember
  refine Logs.node ?_
  split
  case h_1 => exact pairProperty_logs hf
  case h_2 => exact .pure shorthandProperty_covers
  case h_3 => exact objectMethod_logs hf
  case h_4 => exact spread_logs hf
  case h_5 => exact .fail

theorem yieldExpression_logs : Logs CoversShape (Convert.yieldExpression f n)
    (Convert.yieldExpression g n) := by
  unfold Convert.yieldExpression
  refine .seq (.onSome fun c _ => hf.role .expression c) fun rs argument _ h => .pure ?_
  exact ⟨rfl, h.append .nil⟩

theorem expression_logs : Logs (Covers · [·]) (Convert.expression ctx f n)
    (Convert.expression (ctx.judging compiles) g n) := by
  unfold Convert.expression
  split
  case isTrue => exact .pure covers_identifier
  case isFalse =>
  split
  case isTrue => exact typeWrapper_logs hf
  case isFalse =>
  split
  -- `this` and `super`
  case h_1 | h_2 => exact .pure (.node rfl .nil)
  case h_3 => exact .pure covers_privateIdentifier
  case h_4 => exact .step firstNamed_quiet fun c _ => hf.role .expression c
  case h_5 => exact .node (binary_logs hf)
  case h_6 => exact .node (sequence_logs hf)
  case h_7 | h_8 => exact .node (assignment_logs hf)
  case h_9 => exact .node (unary_logs hf)
  case h_10 => exact .node (update_logs hf)
  case h_11 => exact .node (conditional_logs hf)
  case h_12 => exact .node (call_logs hf)
  case h_13 => exact .node (creation_logs hf)
  case h_14 => exact .node (member_logs hf)
  case h_15 => exact .node (subscript_logs hf)
  case h_16 => exact .map (elements_logs hf) fun rs os h => .node rfl h.last
  case h_17 => exact .map (.mapM fun c _ => hf.role .objectMember c) fun rs ts h => .node rfl h.last
  case h_18 => exact .node (spread_logs hf)
  case h_19 => exact .node (yieldExpression_logs hf)
  -- `await`
  case h_20 =>
    refine .step firstNamed_quiet fun c _ => ?_
    exact .seq (hf.role .expression c) fun rs t _ h => .pure (.node rfl (h.append .nil))
  case h_21 | h_22 | h_23 => exact function_logs hf
  case h_24 => exact classLike_logs hf
  case h_25 => exact template_logs hf
  case h_26 => exact literal_logs

end

end Estree
