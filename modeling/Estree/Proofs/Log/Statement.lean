import Estree.Convert.Module
import Estree.Proofs.Log.Expression

/-!
# What statements, imports and exports record
-/

namespace Estree

open Outcome Context

variable {μ : Type} {ctx : Context μ} {compiles : String → String → Bool} {n : Cst}

section
variable {f g : Converter μ} (hf : Converter.Logs f g)
include hf

theorem block_logs : Logs (Covers · [·]) (Convert.block ctx f n)
    (Convert.block (ctx.judging compiles) g n) := by
  unfold Convert.block
  refine .step expect_quiet fun _ _ => ?_
  refine .seq (.mapM fun c _ => hf.role .statement c) fun rs body _ h => .pure ?_
  exact .node rfl (h.append .nil)

/-! ## Variables -/

omit hf in
theorem variableKind_quiet : (Convert.variableKind ctx n).Quiet := by
  unfold Convert.variableKind
  split
  · exact .pure
  · exact .fail

omit hf in
theorem declarationKind_quiet : (Convert.declarationKind ctx n).Quiet := by
  unfold Convert.declarationKind
  split
  · exact .pure
  · exact .bind field_quiet fun _ _ => variableKind_quiet

theorem declarator_logs : Logs (Covers · [·]) (Convert.declarator ctx f n)
    (Convert.declarator (ctx.judging compiles) g n) := by
  unfold Convert.declarator
  refine .step expect_quiet fun _ _ => ?_
  refine .seq (.onSome fun c _ => hf.role .expression c) fun vs init _ hinit => ?_
  refine .step field_quiet fun c _ => ?_
  refine .seq (hf.role .binding c) fun is id _ hid => .pure ?_
  have hparts := hinit.append (hid.append .nil)
  exact .node rfl (hparts.perm List.perm_append_comm).last

theorem variableList_logs {stop : Nat} : Logs (Covers · [·]) (Convert.variableList ctx f n stop)
    (Convert.variableList (ctx.judging compiles) g n stop) := by
  unfold Convert.variableList
  refine .step declarationKind_quiet fun kind _ => ?_
  refine .seq (.mapM fun c _ => hf.role .declarator c) fun rs declarations _ h => .pure ?_
  exact .node rfl (h.append .nil)

/-! ## Branches -/

theorem alternative_logs : Logs (Covers · [·]) (Convert.alternative ctx f n)
    (Convert.alternative (ctx.judging compiles) g n) := by
  unfold Convert.alternative
  split
  · exact .step firstNamed_quiet fun c _ => hf.role .statement c
  · exact hf.role .statement n

theorem branch_logs : Logs CoversShape (Convert.branch ctx f n)
    (Convert.branch (ctx.judging compiles) g n) := by
  unfold Convert.branch
  refine .seq (.onSome fun c _ => alternative_logs hf) fun as alternate _ halternate => ?_
  refine .step field_quiet fun c _ => ?_
  refine .seq (hf.role .expression c) fun ts test _ htest => ?_
  refine .step field_quiet fun d _ => ?_
  refine .seq (hf.role .statement d) fun cs consequent _ hconsequent => .pure ?_
  -- The alternative is converted first and stands last.
  have hparts := halternate.append (htest.append (hconsequent.append .nil))
  exact ⟨rfl, (hparts.perm List.perm_append_comm).last⟩

theorem caseTest_logs : Logs (fun rs o => Covers rs o.toList) (Convert.caseTest ctx f n)
    (Convert.caseTest (ctx.judging compiles) g n) := by
  unfold Convert.caseTest
  split
  case h_1 =>
    refine .step field_quiet fun c _ => ?_
    exact .seq (hf.role .expression c) fun rs t _ ht => .pure ht.done
  case h_2 => exact .pure .nil
  case h_3 => exact .fail

theorem switchCase_logs : Logs (Covers · [·]) (Convert.switchCase ctx f n)
    (Convert.switchCase (ctx.judging compiles) g n) := by
  unfold Convert.switchCase
  refine .seq (caseTest_logs hf) fun ts test _ htest => ?_
  refine .seq (.mapM fun c _ => hf.role .statement c) fun cs consequent _ hconsequent => .pure ?_
  exact .node rfl (htest.append (hconsequent.append .nil))

theorem switch_logs : Logs CoversShape (Convert.switch ctx f n)
    (Convert.switch (ctx.judging compiles) g n) := by
  unfold Convert.switch
  refine .step field_quiet fun c _ => ?_
  refine .seq (hf.role .expression c) fun ds discriminant _ hdiscriminant => ?_
  refine .step field_quiet fun body _ => ?_
  refine .seq (.mapM fun c _ => hf.role .switchCase c) fun cs cases _ hcases => .pure ?_
  exact ⟨rfl, hdiscriminant.append (hcases.append .nil)⟩

/-! ## Exceptions -/

theorem catchClause_logs : Logs (Covers · [·]) (Convert.catchClause ctx f n)
    (Convert.catchClause (ctx.judging compiles) g n) := by
  unfold Convert.catchClause
  refine .seq (.onSome fun c _ => hf.role .binding c) fun ps param _ hparam => ?_
  refine .step field_quiet fun c _ => ?_
  refine .seq (hf.role .block c) fun bs body _ hbody => .pure ?_
  exact .node rfl (hparam.append (hbody.append .nil))

theorem finalizer_logs : Logs (Covers · [·]) (Convert.finalizer ctx f n)
    (Convert.finalizer (ctx.judging compiles) g n) := by
  unfold Convert.finalizer
  exact .step field_quiet fun c _ => hf.role .block c

theorem tryStatement_logs : Logs CoversShape (Convert.tryStatement ctx f n)
    (Convert.tryStatement (ctx.judging compiles) g n) := by
  unfold Convert.tryStatement
  refine .step field_quiet fun c _ => ?_
  refine .seq (hf.role .block c) fun bs body _ hbody => ?_
  refine .seq (.onSome fun c _ => hf.role .catchClause c) fun hs handler _ hhandler => ?_
  refine .seq (.onSome fun c _ => finalizer_logs hf) fun fs finalizer _ hfinalizer => .pure ?_
  exact ⟨rfl, hbody.append (hhandler.append (hfinalizer.append .nil))⟩

/-! ## Loops -/

theorem forPart_logs : Logs (Covers · [·]) (Convert.forPart ctx f n)
    (Convert.forPart (ctx.judging compiles) g n) := by
  unfold Convert.forPart
  split
  case h_1 | h_2 => exact variableList_logs hf
  case h_3 => exact .step firstNamed_quiet fun c _ => hf.role .expression c
  case h_4 => exact expression_logs hf

theorem forLoop_logs : Logs CoversShape (Convert.forLoop ctx f n)
    (Convert.forLoop (ctx.judging compiles) g n) := by
  unfold Convert.forLoop
  refine .seq (.onSome fun c _ => hf.role .forPart c) fun is init _ hinit => ?_
  refine .seq (.onSome fun c _ => hf.role .forPart c) fun ts test _ htest => ?_
  refine .seq (.onSome fun c _ => hf.role .expression c) fun us update _ hupdate => ?_
  refine .step field_quiet fun c _ => ?_
  refine .seq (hf.role .statement c) fun bs body _ hbody => .pure ?_
  exact ⟨rfl, hinit.append (htest.append (hupdate.append (hbody.append .nil)))⟩

theorem loopVariable_logs {keyword name : Cst} :
    Logs (Covers · [·]) (Convert.loopVariable ctx f n keyword name)
      (Convert.loopVariable (ctx.judging compiles) g n keyword name) := by
  unfold Convert.loopVariable
  refine .step variableKind_quiet fun kind _ => ?_
  refine .seq (.onSome fun c _ => hf.role .expression c) fun vs init _ hinit => ?_
  refine .seq (hf.role .binding name) fun is id _ hid => .pure ?_
  have hparts := hinit.append (hid.append .nil)
  refine .node rfl (.last (.node rfl ?_))
  exact (hparts.perm List.perm_append_comm).last

theorem loopTarget_logs {name : Cst} : Logs (Covers · [·]) (Convert.loopTarget ctx f n name)
    (Convert.loopTarget (ctx.judging compiles) g n name) := by
  unfold Convert.loopTarget
  split
  case h_1 => exact loopVariable_logs hf
  case h_2 => exact hf.role .target name

theorem loopOver_logs : Logs CoversShape (Convert.loopOver ctx f n)
    (Convert.loopOver (ctx.judging compiles) g n) := by
  unfold Convert.loopOver
  refine .step field_quiet fun name _ => ?_
  refine .seq (loopTarget_logs hf) fun ls left _ hleft => ?_
  refine .step field_quiet fun c _ => ?_
  refine .seq (hf.role .expression c) fun rs right _ hright => ?_
  refine .step field_quiet fun d _ => ?_
  refine .seq (hf.role .statement d) fun bs body _ hbody => ?_
  refine .step field_quiet fun operator _ => ?_
  have hparts := hleft.append (hright.append (hbody.append .nil))
  rw [text_judging]
  split
  · exact .pure ⟨rfl, hparts⟩
  · exact .pure ⟨rfl, hparts⟩
  · exact .fail

theorem whileLoop_logs : Logs CoversShape (Convert.whileLoop ctx f n)
    (Convert.whileLoop (ctx.judging compiles) g n) := by
  unfold Convert.whileLoop
  refine .step field_quiet fun c _ => ?_
  refine .seq (hf.role .expression c) fun ts test _ htest => ?_
  refine .step field_quiet fun d _ => ?_
  refine .seq (hf.role .statement d) fun bs body _ hbody => .pure ?_
  exact ⟨rfl, htest.append (hbody.append .nil)⟩

theorem doLoop_logs : Logs CoversShape (Convert.doLoop ctx f n)
    (Convert.doLoop (ctx.judging compiles) g n) := by
  unfold Convert.doLoop
  refine .step field_quiet fun c _ => ?_
  refine .seq (hf.role .statement c) fun bs body _ hbody => ?_
  refine .step field_quiet fun d _ => ?_
  refine .seq (hf.role .expression d) fun ts test _ htest => .pure ?_
  exact ⟨rfl, hbody.append (htest.append .nil)⟩

/-! ## Other statements -/

theorem withStatement_logs : Logs CoversShape (Convert.withStatement ctx f n)
    (Convert.withStatement (ctx.judging compiles) g n) := by
  unfold Convert.withStatement
  refine .step field_quiet fun c _ => ?_
  refine .seq (hf.role .expression c) fun os object _ hobject => ?_
  refine .step field_quiet fun d _ => ?_
  refine .seq (hf.role .statement d) fun bs body _ hbody => .pure ?_
  exact ⟨rfl, hobject.append (hbody.append .nil)⟩

theorem labeled_logs : Logs CoversShape (Convert.labeled ctx f n)
    (Convert.labeled (ctx.judging compiles) g n) := by
  unfold Convert.labeled
  refine .step field_quiet fun label _ => ?_
  refine .step field_quiet fun c _ => ?_
  refine .seq (hf.role .statement c) fun bs body _ hbody => .pure ?_
  exact ⟨rfl, covers_identifier.append (hbody.append .nil)⟩

theorem statement_logs : Logs (Covers · [·]) (Convert.statement ctx f n)
    (Convert.statement (ctx.judging compiles) g n) := by
  unfold Convert.statement
  split
  case h_1 => exact block_logs hf
  case h_2 | h_3 => exact variableList_logs hf
  case h_4 | h_5 => exact function_logs hf
  case h_6 => exact classLike_logs hf
  -- Expression statements, and `throw` below.
  case h_7 | h_21 =>
    refine .step firstNamed_quiet fun c _ => ?_
    exact .seq (hf.role .expression c) fun rs t _ h => .pure (.node rfl (h.append .nil))
  case h_8 | h_9 => exact .pure (.node rfl .nil)
  case h_10 => exact .node (branch_logs hf)
  case h_11 => exact .node (switch_logs hf)
  case h_12 => exact .node (tryStatement_logs hf)
  case h_13 => exact .node (whileLoop_logs hf)
  case h_14 => exact .node (doLoop_logs hf)
  case h_15 => exact .node (forLoop_logs hf)
  case h_16 => exact .node (loopOver_logs hf)
  case h_17 => exact .node (withStatement_logs hf)
  -- Jumps.
  case h_18 | h_19 => exact .pure (.node rfl covers_fieldIdentifier.last)
  case h_20 =>
    refine .seq (.onSome fun c _ => hf.role .expression c) fun rs argument _ h => .pure ?_
    exact .node rfl (h.append .nil)
  case h_22 => exact .node (labeled_logs hf)
  case h_23 => exact .fail

end

/-! ## Imports -/

theorem moduleSource_plain : (Convert.moduleSource ctx n).Plain ([·]) := by
  unfold Convert.moduleSource
  refine Logs.step expect_quiet fun _ h => literal_plain ?_
  rw [result_expect.1 h]
  nofun

theorem moduleSource_judging :
    Convert.moduleSource (ctx.judging compiles) n = Convert.moduleSource ctx n := by
  unfold Convert.moduleSource Context.expect
  split
  case isTrue hk => rw [literal_judging (by rw [hk]; nofun)]
  case isFalse => rfl

theorem exportName_plain : (Convert.exportName ctx n).Plain ([·]) := by
  unfold Convert.exportName
  split
  case isTrue hk => exact literal_plain (by rw [hk]; nofun)
  case isFalse =>
    split
    · exact .pure covers_identifier
    · exact .fail

theorem exportName_judging :
    Convert.exportName (ctx.judging compiles) n = Convert.exportName ctx n := by
  unfold Convert.exportName
  split
  case isTrue hk => exact literal_judging (by rw [hk]; nofun)
  case isFalse => rfl

theorem importSpecifier_logs : Logs (Covers · [·]) (Convert.importSpecifier ctx n)
    (Convert.importSpecifier (ctx.judging compiles) n) := by
  unfold Convert.importSpecifier
  refine .step expect_quiet fun _ _ => ?_
  refine .step field_quiet fun name _ => ?_
  rw [exportName_judging]
  refine exportName_plain.step fun imported himported => .pure (.node rfl ?_)
  cases n.field? "alias" with
  | none => exact himported.append himported
  | some c => exact himported.append covers_identifier

theorem importBinding_logs : Logs Covers (Convert.importBinding ctx n)
    (Convert.importBinding (ctx.judging compiles) n) := by
  unfold Convert.importBinding
  split
  case h_1 => exact .pure (.node rfl covers_identifier)
  case h_2 => exact .step firstNamed_quiet fun c _ => .pure (.node rfl covers_identifier)
  case h_3 => exact .mapM fun c _ => importSpecifier_logs
  case h_4 => exact .fail

theorem importPart_logs : Logs Covers (Convert.importPart ctx n)
    (Convert.importPart (ctx.judging compiles) n) := by
  unfold Convert.importPart
  split
  case h_1 =>
    refine .seq (.mapM_of fun c _ => importBinding_logs) fun rs tss _ h => .pure ?_
    rw [List.flatMap_id'] at h
    exact h.done
  case h_2 => exact .pure .nil
  case h_3 => exact .fail

theorem importDeclaration_logs : Logs (Covers · [·]) (Convert.importDeclaration ctx n)
    (Convert.importDeclaration (ctx.judging compiles) n) := by
  unfold Convert.importDeclaration
  refine .step reject_quiet fun _ _ => ?_
  refine .step field_quiet fun c _ => ?_
  rw [moduleSource_judging]
  refine moduleSource_plain.step fun source hsource => ?_
  refine .seq (.mapM_of fun c _ => importPart_logs) fun rs tss _ h => .pure ?_
  rw [List.flatMap_id'] at h
  exact .node rfl (h.append hsource)

/-! ## Exports -/

theorem exportSpecifier_logs : Logs (Covers · [·]) (Convert.exportSpecifier ctx n)
    (Convert.exportSpecifier (ctx.judging compiles) n) := by
  have halias : Convert.exportName (ctx.judging compiles) = Convert.exportName ctx :=
    funext fun _ => exportName_judging
  unfold Convert.exportSpecifier
  refine .step expect_quiet fun _ _ => ?_
  refine .step field_quiet fun name _ => ?_
  rw [halias]
  refine exportName_plain.step fun localName hlocal => ?_
  refine (Plain.onSome fun _ => exportName_plain).step fun outer houter => .pure (.node rfl ?_)
  cases outer with
  | none => exact hlocal.append hlocal
  | some t => exact hlocal.append houter

theorem exportNames_logs : Logs CoversShape (Convert.exportNames ctx n)
    (Convert.exportNames (ctx.judging compiles) n) := by
  have hsource : Convert.moduleSource (ctx.judging compiles) = Convert.moduleSource ctx :=
    funext fun _ => moduleSource_judging
  unfold Convert.exportNames
  refine .step reject_quiet fun _ _ => ?_
  rw [hsource]
  refine (Plain.onSome fun _ => moduleSource_plain).step fun source hsource => ?_
  dsimp only
  split
  case h_1 clause _ =>
    split
    case isTrue =>
      refine .seq (.mapM fun c _ => exportSpecifier_logs) fun rs specifiers _ h => .pure ?_
      exact ⟨rfl, h.append hsource.last⟩
    case isFalse =>
      split
      case h_1 source =>
        refine .step firstNamed_quiet fun c _ => ?_
        rw [exportName_judging]
        exact exportName_plain.step fun exported h => .pure ⟨rfl, hsource.append h⟩
      case h_2 => exact .fail
  case h_2 source =>
    split
    · exact .pure ⟨rfl, hsource⟩
    · exact .fail
  case h_3 => exact .fail

section
variable {f g : Converter μ} (hf : Converter.Logs f g)
include hf

theorem exportShape_logs : Logs CoversShape (Convert.exportShape ctx f n)
    (Convert.exportShape (ctx.judging compiles) g n) := by
  unfold Convert.exportShape
  split
  case h_1 _ declaration _ =>
    refine .seq (hf.role .statement declaration) fun rs t _ h => .pure ?_
    split <;> exact ⟨rfl, h.append .nil⟩
  case h_2 value _ _ =>
    exact .seq (hf.role .expression value) fun rs t _ h => .pure ⟨rfl, h.append .nil⟩
  case h_3 =>
    split
    case isTrue =>
      refine .step firstNamed_quiet fun c _ => ?_
      exact .seq (hf.role .expression c) fun rs t _ h => .pure ⟨rfl, h.append .nil⟩
    case isFalse => exact exportNames_logs

theorem moduleItem_logs : Logs (Covers · [·]) (Convert.moduleItem ctx f n)
    (Convert.moduleItem (ctx.judging compiles) g n) := by
  unfold Convert.moduleItem
  split
  case h_1 =>
    refine .step reject_quiet fun _ _ => ?_
    exact .seq (exportShape_logs hf) fun rs s _ h => .pure (.done h.node)
  case h_2 => exact importDeclaration_logs
  case h_3 => exact statement_logs hf

end

end Estree
