import Estree.Proofs.Built.Statement
import Estree.Proofs.Trace

/-!
# Syntax that error recovery made up

A parser that recovers from errors leaves error nodes in its tree, and missing nodes for what it
would have liked to read. Such a node is of no kind of its own, so nearly every rule fails at it
(`Convert.convert_damaged`). A rule that does not ask what a node is takes it for code, however:
names are taken so where `Cst.Trusts` says, and so are the operators of binary expressions. These
are the only ways for a damaged node to become a name or an operator (`Program.convert_recovered`).
-/

namespace Estree

namespace Cst

variable {n c : Cst}

theorem kind_of_isDamaged (h : n.isDamaged) : n.kind = .other := by simp [kind, h]

theorem mem_children_of_operatorMark? (h : n.operatorMark? = some c) : c ∈ n.children := by
  rcases Option.or_eq_some_iff.1 h with h | ⟨_, h⟩
  · exact mem_children_of_field? h
  · exact mem_children_of_mem_parts (mem_parts_of_token? h)

end Cst

variable {μ : Type} {ctx : Context μ} {n c : Cst} {s : Shape (Tree μ)} {Q : Cst → Prop}

theorem Context.bind_unexpected {α β : Type} (g : α → Outcome β) :
    (ctx.unexpected n : Outcome α) >>= g = ctx.unexpected n := rfl

theorem Context.map_unexpected {α β : Type} (g : α → β) :
    g <$> (ctx.unexpected n : Outcome α) = ctx.unexpected n := rfl

namespace Convert

variable {f : Converter μ}

/-! ## Rules at nodes of no kind -/

theorem expect_of_other {kind : Kind} (hk : c.kind = .other) (h : kind ≠ .other) :
    ctx.expect kind c = ctx.unexpected c := if_neg fun he => h (he.symm.trans hk)

theorem expression_of_other (hk : c.kind = .other) : expression ctx f c = ctx.unexpected c := by
  simp [expression, literal, hk, Kind.isIdentifier, Kind.isTypeWrapper]

theorem statement_of_other (hk : c.kind = .other) : statement ctx f c = ctx.unexpected c := by
  simp [statement, hk]

theorem binding_of_other (hk : c.kind = .other) : binding ctx f c = ctx.unexpected c := by
  simp [binding, hk, Kind.isIdentifier, Context.map_unexpected]

/-- A rule fails at a node of no kind. That for a handler only looks at the children. -/
theorem rule_of_other {role : Role} (hrole : role ≠ .catchClause) (hk : c.kind = .other) :
    rule ctx f role c = ctx.unexpected c := by
  cases role with
  | catchClause => exact absurd rfl hrole
  | moduleItem => simp [rule, moduleItem, hk, statement_of_other]
  | statement => exact statement_of_other hk
  | expression => exact expression_of_other hk
  | forPart => simp [rule, forPart, hk, expression_of_other]
  | binding => exact binding_of_other hk
  | parameter => simp [rule, parameter, Cst.isParameter, hk, binding_of_other]
  | block => simp [rule, block, expect_of_other hk, Context.bind_unexpected]
  | declarator => simp [rule, declarator, expect_of_other hk, Context.bind_unexpected]
  | classMember => simp [rule, classMember, expect_of_other hk, Context.bind_unexpected]
  | switchCase => simp [rule, switchCase, caseTest, hk, Context.bind_unexpected]
  | objectMember => simp [rule, objectMember, hk, Context.map_unexpected]
  | bindingMember => simp [rule, bindingMember, hk, Context.map_unexpected]
  | targetMember => simp [rule, targetMember, hk, Context.map_unexpected]
  | propertyKey => simp [rule, propertyKey, hk, Kind.isIdentifier]
  | target => simp [rule, target, hk, Kind.isIdentifier, Kind.isTypeWrapper]

theorem convert_damaged {role : Role} (hrole : role ≠ .catchClause) (hc : c.isDamaged) :
    convert ctx role c = ctx.unexpected c := by
  rw [convert_eq, rule_of_other hrole (Cst.kind_of_isDamaged hc)]

end Convert

/-! ## Names and operators -/

namespace Cst

/-- What may be read for a name or an operator in a tree. -/
inductive IsWord (c tree : Cst) : Prop
  | name : c.IsNode tree → c.kind.isIdentifier → IsWord c tree
  | privateName : c.IsNode tree → c.kind = .privatePropertyIdentifier → IsWord c tree
  | trusted {p : Cst} : p.IsNode tree → p.Trusts c → IsWord c tree
  | operator {p : Cst} : p.IsNode tree → p.operatorMark? = some c → IsWord c tree

theorem IsWord.isNode {c tree : Cst} (h : c.IsWord tree) : c.IsNode tree := by
  cases h with
  | name h | privateName h => exact h
  | trusted hp hc => exact hp.child hc.sees.mem_children
  | operator hp hc => exact hp.child (mem_children_of_operatorMark? hc)

end Cst

/-- The text of a piece of syntax, unless it is damaged, is more than a number sign. -/
def Context.IsWritten (ctx : Context μ) (n : Cst) : Prop :=
  n.isDamaged = false → ctx.text n ∉ ["", "#"]

instance (ctx : Context μ) : DecidablePred ctx.IsWritten := fun n =>
  inferInstanceAs (Decidable (n.isDamaged = false → ctx.text n ∉ ["", "#"]))

/-- How a node of a traced result comes by the name or the operator that it has. -/
structure Tree.Vouched (ctx : Context μ) (tree : Cst) (u : Tree Origin) : Prop where
  isNode : u.mark.piece.IsNode tree
  /-- A name is the text of a word, without the number sign of a private name, or it is the key of a
  constructor that is written as a string. -/
  name : ∀ name, u.shape.name? = some name →
    u.mark.piece.IsWord tree ∧ ctx.text u.mark.piece ∈ [name, "#" ++ name] ∨
      u.mark.piece.kind = .string ∧ name = "constructor"
  /-- Only what the syntax around it trusts may be a name without having been read. -/
  trusted : ∀ name, u.shape.name? = some name → u.mark.piece.isDamaged →
    ∃ p : Cst, p.IsNode tree ∧ p.Trusts u.mark.piece
  operator : ∀ operator, u.shape.operator? = some operator →
    ∃ mark, u.mark.piece.operatorMark? = some mark ∧ ctx.text mark = operator ∧
      ∀ allowed, u.shape.operators? = some allowed → operator ∈ allowed

section

variable {tree : Cst} {name : String}

/-- A name stems from a word, unless it is the key of a constructor. -/
theorem Context.Stems.isWord (h : ctx.Stems (·.IsNode tree) n s) (hn : n.IsNode tree)
    (hname : s.name? = some name) :
    n.IsWord tree ∧ ctx.text n ∈ [name, "#" ++ name] ∨ n.kind = .string ∧ name = "constructor" := by
  cases h with
  | nameless hnone => cases hnone.symm.trans hname
  | identifier hk =>
    obtain rfl := Option.some.inj hname
    exact .inl ⟨.name hn hk, List.mem_cons_self⟩
  | trusted hp hpn =>
    obtain rfl := Option.some.inj hname
    exact .inl ⟨.trusted hp.root hpn, List.mem_cons_self⟩
  | privateIdentifier hk htext =>
    obtain rfl := Option.some.inj hname
    exact .inl ⟨.privateName hn hk, by simpa using htext⟩
  | constructor hk => exact .inr ⟨hk, (Option.some.inj hname).symm⟩

/-- A name that stems from a damaged node stems from one that is trusted. -/
theorem Context.Stems.trusts (h : ctx.Stems Q n s) (hname : s.name? = some name)
    (hn : n.isDamaged) : ∃ p : Cst, p.Everywhere Q ∧ p.Trusts n := by
  have hk := Cst.kind_of_isDamaged hn
  cases h with
  | nameless hnone => cases hnone.symm.trans hname
  | identifier hkind => simp [hk, Kind.isIdentifier] at hkind
  | trusted hp hpn => exact ⟨_, hp, hpn⟩
  | privateIdentifier hkind | constructor hkind => cases hk.symm.trans hkind

/-- A rule that asks for an operator of its own never gets an empty one. -/
theorem Shape.eq_binaryExpression {s : Shape (Tree μ)} (hs : s.operator? = some "")
    (hallowed : ∀ allowed, s.operators? = some allowed → "" ∈ allowed) :
    ∃ left right, s = .binaryExpression "" left right := by
  cases s with
  | binaryExpression _ left right => exact ⟨left, right, by rw [Option.some.inj hs]⟩
  | unaryExpression | updateExpression | logicalExpression | assignmentExpression =>
    exact absurd (hallowed _ rfl) (by decide)
  | _ => cases hs

end

namespace Tree.Vouched

variable {tree : Cst} {u : Tree Origin}

/-- An empty name was not read if every word that was read is written. -/
theorem isDamaged (h : u.Vouched ctx tree) (hwords : ∀ c : Cst, c.IsWord tree → ctx.IsWritten c)
    (hname : u.shape.name? = some "") : u.mark.piece.isDamaged := by
  by_contra hdamaged
  rcases h.name "" hname with ⟨hword, htext⟩ | ⟨_, hconstructor⟩
  · exact hwords _ hword (by simpa using hdamaged) htext
  · exact absurd hconstructor (by decide)

/-- An empty operator is that of a binary expression, and it was not read if every word that was
read is written. -/
theorem mark_isDamaged (h : u.Vouched ctx tree)
    (hwords : ∀ c : Cst, c.IsWord tree → ctx.IsWritten c)
    (hoperator : u.shape.operator? = some "") :
    ∃ left right mark, u.shape = .binaryExpression "" left right ∧
      u.mark.piece.operatorMark? = some mark ∧ mark.isDamaged := by
  obtain ⟨mark, hmark, htext, hallowed⟩ := h.operator "" hoperator
  obtain ⟨left, right, hs⟩ := Shape.eq_binaryExpression hoperator hallowed
  refine ⟨left, right, mark, hs, hmark, ?_⟩
  by_contra hdamaged
  exact hwords mark (.operator h.isNode hmark) (by simpa using hdamaged) (by simp [htext])

end Tree.Vouched

/-- Every node of a traced result is vouched for by the tree. -/
theorem Convert.program_vouched {tree : Cst} {t u : Tree Origin}
    (h : (program ctx.traced tree).result = .ok t) (hu : Tree.IsNode u t) : u.Vouched ctx tree := by
  obtain ⟨n, hn, ⟨a, b, hmark⟩, hstems⟩ :=
    (program_allStem h Cst.IsNode.root.everywhere).of_isNode hu
  obtain rfl : u.mark.piece = n := congrArg Origin.piece hmark
  constructor
  case isNode => exact hn.root
  case name => exact fun name hname => hstems.isWord hn.root hname
  case trusted =>
    intro name hname hdamaged
    obtain ⟨p, hp, hpn⟩ := hstems.trusts hname hdamaged
    exact ⟨p, hp.root, hpn⟩
  case operator =>
    intro operator hoperator
    obtain ⟨⟨mark, hmark, htext⟩, hallowed⟩ := hstems.suits.operates operator hoperator
    exact ⟨mark, hmark, htext.symm, hallowed⟩

/-- **What error recovery made up is code in few places only.** In a result every name comes from a
node that is neither an error nor missing, or from one that the node around it trusts. Every
operator is the text of its mark, and one that its rule asks for, except that a binary expression
takes any text. So if the words that were read are written, an empty name or operator was made up
in one of these places. Everywhere else a damaged node that is converted makes the conversion fail
at it, unless it is a handler. -/
theorem Program.convert_recovered {tree : Cst} {source : Source} {options : Options} :
    (∀ node, (convert tree source options).result = .ok node →
      ∃ t : Tree Origin, (Convert.program (context source options).traced tree).result = .ok t ∧
        t.map (fun o => .ofBytes source options.fileName o.start o.stop) = node ∧
        ∀ u, Tree.IsNode u t → u.Vouched (context source options) tree ∧
          ((∀ c : Cst, c.IsWord tree → (context source options).IsWritten c) →
            (u.shape.name? = some "" → u.mark.piece.isDamaged) ∧
            (u.shape.operator? = some "" → ∃ left right mark,
              u.shape = .binaryExpression "" left right ∧
                u.mark.piece.operatorMark? = some mark ∧ mark.isDamaged))) ∧
    ∀ role (c : Cst), role ≠ .catchClause → c.isDamaged →
      Convert.convert (context source options) role c = (context source options).unexpected c := by
  refine ⟨fun node h => ?_, fun role c hrole hc => Convert.convert_damaged hrole hc⟩
  obtain ⟨t, ht, hnode⟩ := Convert.exists_traced h
  refine ⟨t, ht, hnode, fun u hu => ?_⟩
  have hvouched := Convert.program_vouched ht hu
  exact ⟨hvouched, fun hwords => ⟨hvouched.isDamaged hwords, hvouched.mark_isDamaged hwords⟩⟩

/-- The name that a parser makes up between the point and the template of ``a.`x`;``. -/
def missingName : Cst :=
  .node { label := "property_identifier", isNamed := true, isMissing := true, start := 2, stop := 2,
          field := some "property" } []

/-- The tree of ``a.`x`;``. -/
def unnamedMember : Cst :=
  .node { label := "program", isNamed := true, start := 0, stop := 6 } [
    .node { label := "expression_statement", isNamed := true, start := 0, stop := 6 } [
      .node { label := "call_expression", isNamed := true, start := 0, stop := 5 } [
        .node { label := "member_expression", isNamed := true, start := 0, stop := 2,
                field := some "function" } [
          .node { label := "identifier", isNamed := true, start := 0, stop := 1,
                  field := some "object" } [],
          .node { label := ".", start := 1, stop := 2 } [],
          missingName],
        .node { label := "template_string", isNamed := true, start := 2, stop := 5,
                field := some "arguments" } [
          .node { label := "`", start := 2, stop := 3 } [],
          .node { label := "string_fragment", isNamed := true, start := 3, stop := 4 } [],
          .node { label := "`", start := 4, stop := 5 } []]],
      .node { label := ";", start := 5, stop := 6 } []]]

def unnamedText : Source := .ofString "a.`x`;"

/-- All of the tree but the missing name is written. -/
theorem unnamedMember_written :
    unnamedMember.Everywhere (Program.context unnamedText {}).IsWritten := by decide +kernel

theorem unnamedMember_recovered :
    (∃ (node : Node) (t u : Tree Origin),
      (Program.convert unnamedMember unnamedText {}).result = .ok node ∧
      t.map (fun o => .ofBytes unnamedText "module.ts" o.start o.stop) = node ∧
      Tree.IsNode u t ∧ u.shape.name? = some "" ∧ u.mark.piece.isDamaged ∧
      u.Vouched (Program.context unnamedText {}) unnamedMember) ∧
    Convert.convert (Program.context unnamedText {}) .expression missingName =
      (Program.context unnamedText {}).unexpected missingName := by
  obtain ⟨hconverts, hfails⟩ := @Program.convert_recovered unnamedMember unnamedText {}
  obtain ⟨t, ht, hnode, hnodes⟩ := hconverts _ rfl
  obtain ⟨u, hu, hname⟩ : ∃ u, Tree.IsNode u t ∧ u.shape.name? = some "" := by
    cases ht
    exact ⟨_, .child (.child (.child (.child .root (.head _)) (.head _)) (.head _))
      (.tail _ (.head _)), rfl⟩
  have hwords (c : Cst) (hc : c.IsWord unnamedMember) :=
    (unnamedMember_written.of_isNode hc.isNode).root
  obtain ⟨hvouched, hempty⟩ := hnodes u hu
  exact ⟨⟨_, t, u, rfl, hnode, hu, hname, (hempty hwords).1 hname, hvouched⟩,
    hfails .expression missingName nofun rfl⟩

/-- A missing name is taken for one, and is the only empty one. -/
theorem unnamedMember_converts :
    missingName.IsNode unnamedMember ∧ missingName.isDamaged ∧
    (∀ c : Cst, c.IsNode unnamedMember →
      (Program.context unnamedText {}).IsWritten c) ∧
    ∃ node u, (Program.convert unnamedMember unnamedText {}).result = .ok node ∧
      Tree.IsNode u node ∧ u.shape = .identifier "" := by
  have hmember : Cst.IsNode _ unnamedMember :=
    .child (.child (.child .root (.head _)) (.head _)) (.head _)
  exact ⟨.child hmember (.tail _ (.tail _ (.head _))), rfl,
    fun c hc => (unnamedMember_written.of_isNode hc).root, _, _, rfl,
    .child (.child (.child (.child .root (.head _)) (.head _)) (.head _)) (.tail _ (.head _)), rfl⟩

end Estree
