import Estree.Convert.Program
import Estree.Proofs.Log.Statement

/-!
# The log of a conversion

The rules record what they find unusable (`Convert.rule_logs`), so a run of them does at any number of
levels (`Convert.run_logs`), and so does the conversion of a program. What a log says follows:
`Program.convert_log`.
-/

namespace Estree

open Outcome Context

namespace Convert

variable {μ : Type} {ctx : Context μ} {compiles : String → String → Bool}

/-- One level records what it finds unusable if the level below does. -/
theorem rule_logs {f g : Converter μ} (hf : Converter.Logs f g) :
    Converter.Logs (rule ctx f) (rule (ctx.judging compiles) g) where
  role role n := by
    cases role with
    | moduleItem => exact moduleItem_logs hf
    | statement => exact statement_logs hf
    | block => exact block_logs hf
    | forPart => exact forPart_logs hf
    | declarator => exact declarator_logs hf
    | switchCase => exact switchCase_logs hf
    | catchClause => exact catchClause_logs hf
    | expression => exact expression_logs hf
    | objectMember => exact objectMember_logs hf
    | propertyKey => exact (propertyKey_logs hf).mono fun _ _ => And.left
    | parameter => exact parameter_logs hf
    | classMember => exact classMember_logs hf
    | binding => exact binding_logs hf
    | bindingMember => exact bindingMember_logs hf
    | target => exact target_logs hf (expression_logs hf)
    | targetMember => exact targetMember_logs hf
  name n := propertyKey_logs hf

theorem run_logs (levels : Nat) :
    Converter.Logs (run ctx levels) (run (ctx.judging compiles) levels) := by
  induction levels with
  | zero => exact ⟨fun _ _ => .fail, fun _ => .fail⟩
  | succ levels ih => exact rule_logs ih

theorem program_logs {root : Cst} :
    Logs (Covers · [·]) (program ctx root) (program (ctx.judging compiles) root) := by
  unfold program
  refine .step expect_quiet fun _ _ => ?_
  refine .seq (.mapM fun c _ => (run_logs c.height).role .moduleItem c) fun rs body _ h => .pure ?_
  exact .node rfl (h.append .nil)

/-- A regular expression literal is converted, whether it compiles or not, and has a value
exactly if it does. -/
theorem convert_regex {n pattern : Cst} (hk : n.kind = .regex)
    (h : n.field? "pattern" = some pattern) :
    let r := ctx.regexOf n pattern
    ∃ t, (convert ctx .expression n).result = .ok t ∧
      t.shape.unusable? = if ctx.compiles r.pattern r.flags then none else some r := by
  intro r
  have heq (f : Converter μ) : expression ctx f n = regexLiteral ctx n := by
    unfold expression literal
    rw [hk]
    rfl
  obtain ⟨levels, hlevels⟩ := Nat.exists_eq_add_one.2 n.height_pos
  rw [convert, hlevels, run, rule, heq]
  exact regexLiteral_ok h

end Convert

/-- **The log of a conversion tells how it ends**, whatever engine judges which regular expressions
compile; the program has one of its own. After its beginning the log has the regular expressions that
do not compile, and then the failure if there is one. They never decide about success: under any
judgement the conversion fails in the same cases and in the same way. If it succeeds they are what the
literals without a value have: each is in the log, and none more often than in the result. A regular
expression literal has no value exactly if its pattern and flags do not compile. -/
theorem Program.convert_log (tree : Cst) (source : Source) (options : Options) :
    let own := context source options
    let start := LogEntry.started options.fileName options.target
    let report compiles := Report.ofOutcome options (Convert.program (own.judging compiles) tree)
    convert tree source options = report own.compiles ∧
    ∀ compiles : String → String → Bool,
      (∃ regexes : List RegexLiteral,
        (∀ u, (report compiles).result = .error u → (report compiles).log
          = start :: (regexes.map RegexLiteral.event ++ [Event.unsupported u]).map .event) ∧
        ∀ node, (report compiles).result = .ok node →
          (report compiles).log = start :: (regexes.map RegexLiteral.event).map .event ∧
          regexes.Subperm node.unusable ∧
          ∀ t r, Tree.IsNode t node → t.shape.unusable? = some r → r ∈ regexes) ∧
      (∀ u, (convert tree source options).result = .error u ↔
        (report compiles).result = .error u) ∧
      ∀ n pattern, n.kind = .regex → n.field? "pattern" = some pattern →
        let r := own.regexOf n pattern
        ∃ t, (Convert.convert (own.judging compiles) .expression n).result = .ok t ∧
          t.shape.unusable? = if compiles r.pattern r.flags then none else some r := by
  intro own start report
  have hlogs : ∀ before after, Logs (Covers · [·]) (Convert.program (own.judging before) tree)
      (Convert.program (own.judging after) tree) :=
    fun before after => @Convert.program_logs _ (own.judging before) after tree
  refine ⟨rfl, fun compiles => ⟨?_, fun u => (hlogs own.compiles compiles).error_iff, ?_⟩⟩
  case refine_2 =>
    exact fun n pattern => @Convert.convert_regex _ (own.judging compiles) n pattern
  have hlog : (report compiles).log
      = start :: (Convert.program (own.judging compiles) tree).events.map .event := rfl
  cases hlogs compiles compiles with
  | @ok regexes node _ events hok _ hcovers =>
    refine ⟨regexes, ?_, ?_⟩
    · intro u hu
      cases hok.symm.trans hu
    · intro node' hnode
      cases hok.symm.trans hnode
      have hflat : [node].flatMap Tree.unusable = node.unusable := List.flatMap_singleton ..
      refine ⟨by rw [hlog, events], hflat ▸ hcovers.subperm, ?_⟩
      intro t r ht hr
      exact hcovers.subset (hflat ▸ Tree.mem_unusable ht hr)
  | @error regexes failure events herror _ =>
    refine ⟨regexes, ?_, ?_⟩
    · intro u hu
      cases herror.symm.trans hu
      rw [hlog, events]
    · intro node hnode
      cases herror.symm.trans hnode

/-- The tree of `/a/zz;enum E{}`. -/
def flaggedRegex : Cst :=
  .node { label := "program", isNamed := true, start := 0, stop := 14 } [
    .node { label := "expression_statement", isNamed := true, start := 0, stop := 6 } [
      .node { label := "regex", isNamed := true, start := 0, stop := 5 } [
        .node { label := "/", start := 0, stop := 1 } [],
        .node { label := "regex_pattern", isNamed := true, start := 1, stop := 2,
                field := some "pattern" } [],
        .node { label := "/", start := 2, stop := 3 } [],
        .node { label := "regex_flags", isNamed := true, start := 3, stop := 5,
                field := some "flags" } []],
      .node { label := ";", start := 5, stop := 6 } []],
    .node { label := "enum_declaration", isNamed := true, start := 6, stop := 14 } []]

example : (Program.convert flaggedRegex (.ofString "/a/zz;enum E\x7b\x7d") {}).log =
    [.started "module.ts" .esNext, .event (.unusableRegex "a" "zz"),
     .event (.unsupported ⟨"enum_declaration", ⟨1, 6⟩⟩)] := by
  decide +kernel

end Estree
