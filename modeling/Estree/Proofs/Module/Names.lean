import Estree.Proofs.Module.Basic
import Estree.Proofs.Simulation.Descent

/-!
# The places of module names

A name may stand as what is imported, as what is exported, as the alias of an export, and as what
everything of a module is exported under. In each of these places identifiers and strings yield the
same (`Program.convert_moduleNames`). The keyword `default` may stand in the first three. In the last
place the name is looked for among the named parts of the clause, where the keyword is not.
-/

namespace Estree

namespace Cst

variable {n s : Cst}

/-- The names in the braces of an import statement. -/
def importedNames (n : Cst) : List Cst :=
  (n.named.filter (·.kind = .importClause)).flatMap fun clause =>
    (clause.named.filter (·.kind = .namedImports)).flatMap named

/-- An import clause binds names, a whole module, or names in braces. -/
def HasBindings (n : Cst) : Prop :=
  ∀ b ∈ n.named, b.kind = .identifier ∨ b.kind = .namespaceImport ∧ b.named ≠ [] ∨
    b.kind = .namedImports

/-- An import statement is in order, but for the names in its braces. -/
structure ImportsValues (n : Cst) : Prop where
  modifier : n.token? "type" = none
  source : ∃ c, n.field? "source" = some c ∧ c.kind = .string
  parts : ∀ p ∈ n.named, p.kind = .importClause ∧ p.HasBindings ∨ p.kind = .string

/-- What holds of the names in the braces of an import statement holds in each of its clauses. -/
theorem forall_mem_importedNames {P : Cst → Prop} :
    (∀ s ∈ n.importedNames, P s) ↔ ∀ p ∈ n.named, p.kind = .importClause →
      ∀ b ∈ p.named, b.kind = .namedImports → ∀ s ∈ b.named, P s := by
  simp only [importedNames, List.mem_flatMap, List.mem_filter, decide_eq_true_eq]
  constructor
  · intro h p hp hclause b hb hbraces s hs
    exact h s ⟨p, ⟨hp, hclause⟩, b, ⟨hb, hbraces⟩, hs⟩
  · rintro h s ⟨p, ⟨hp, hclause⟩, b, ⟨hb, hbraces⟩, hs⟩
    exact h p hp hclause b hb hbraces s hs

end Cst

variable {μ : Type} {ctx : Context μ} {n c clause : Cst} {t : Tree μ} {ts : List (Tree μ)}

/-! ## Success -/

/-- A list is related to another one if each of its members is related to something. -/
theorem exists_forall₂ {α β : Type} {R : α → β → Prop} {as : List α} :
    (∃ bs, List.Forall₂ R as bs) ↔ ∀ a ∈ as, ∃ b, R a b := by
  induction as with
  | nil => simp
  | cons a as ih =>
    rw [List.forall_mem_cons, ← ih]
    constructor
    · rintro ⟨_, _ | ⟨hab, habs⟩⟩
      exact ⟨⟨_, hab⟩, _, habs⟩
    · rintro ⟨⟨b, hab⟩, bs, habs⟩
      exact ⟨b :: bs, .cons hab habs⟩

namespace Context

theorem exists_binds : (∃ ts, ctx.Binds n ts) ↔
    n.kind = .identifier ∨ n.kind = .namespaceImport ∧ n.named ≠ [] ∨
      n.kind = .namedImports ∧ ∀ s ∈ n.named, ∃ t, ctx.Imports s t := by
  rw [← exists_forall₂]
  constructor
  · rintro ⟨_, hk | ⟨hk, hc⟩ | ⟨hk, hts⟩⟩
    · exact .inl hk
    · exact .inr (.inl ⟨hk, List.ne_nil_of_mem (List.mem_of_head? hc)⟩)
    · exact .inr (.inr ⟨hk, _, hts⟩)
  · rintro (hk | ⟨hk, hne⟩ | ⟨hk, ts, hts⟩)
    · exact ⟨_, .name hk⟩
    · exact ⟨_, .whole hk (List.head?_eq_some_head hne)⟩
    · exact ⟨ts, .names hk hts⟩

theorem exists_partBinds : (∃ ts, ctx.PartBinds n ts) ↔
    n.kind = .importClause ∧ (∀ b ∈ n.named, ∃ ts, ctx.Binds b ts) ∨ n.kind = .string := by
  rw [← exists_forall₂]
  constructor
  · rintro ⟨_, ⟨hk, htss⟩ | hk⟩
    · exact .inl ⟨hk, _, htss⟩
    · exact .inr hk
  · rintro (⟨hk, tss, htss⟩ | hk)
    · exact ⟨_, .clause hk htss⟩
    · exact ⟨_, .source hk⟩

/-- The parts of an import statement bind something exactly if they are of the known forms and the
names in braces yield something. -/
theorem exists_partBinds_named : (∀ p ∈ n.named, ∃ ts, ctx.PartBinds p ts) ↔
    (∀ p ∈ n.named, p.kind = .importClause ∧ p.HasBindings ∨ p.kind = .string) ∧
      ∀ s ∈ n.importedNames, ∃ t, ctx.Imports s t := by
  simp only [exists_partBinds, exists_binds, Cst.forall_mem_importedNames]
  constructor
  · intro h
    constructor
    · intro p hp
      refine (h p hp).imp_left fun ⟨hclause, hb⟩ => ⟨hclause, fun b hmem => ?_⟩
      exact (hb b hmem).imp_right (Or.imp_right And.left)
    · intro p hp hclause b hb hbraces s hs
      rcases h p hp with ⟨-, hall⟩ | hsource
      · rcases hall b hb with hk | ⟨hk, -⟩ | ⟨-, hnames⟩
        · cases hbraces.symm.trans hk
        · cases hbraces.symm.trans hk
        · exact hnames s hs
      · cases hclause.symm.trans hsource
  · rintro ⟨hparts, hnames⟩ p hp
    refine (hparts p hp).imp_left fun ⟨hclause, hb⟩ => ⟨hclause, fun b hmem => ?_⟩
    exact (hb b hmem).imp_right (Or.imp_right fun hk => ⟨hk, hnames p hp hclause b hmem hk⟩)

end Context

/-! ## Specifiers -/

/-- Whether a tree is a specifier for a name in the braces of an import. -/
def Tree.isImportSpecifier (t : Tree μ) : Bool := t.typeName == "ImportSpecifier"

/-- Lists that are kept or dropped part by part, along with what the parts yield. -/
theorem forall₂_filter_flatten {R : Cst → List (Tree μ) → Prop} {Q : Cst → Tree μ → Prop}
    {keep : Cst → Bool} {names : Cst → List Cst} {cs : List Cst} {tss : List (List (Tree μ))}
    (h : List.Forall₂ R cs tss)
    (hkeep : ∀ c ts, keep c → R c ts →
      List.Forall₂ Q (names c) (ts.filter Tree.isImportSpecifier))
    (hdrop : ∀ c ts, ¬keep c → R c ts → ts.filter Tree.isImportSpecifier = []) :
    List.Forall₂ Q ((cs.filter keep).flatMap names)
      (tss.flatten.filter Tree.isImportSpecifier) := by
  induction h with
  | nil => exact .nil
  | @cons c ts cs tss hc _ ih =>
    rw [List.flatten_cons, List.filter_append]
    by_cases hk : keep c
    · rw [List.filter_cons_of_pos hk, List.flatMap_cons]
      exact List.rel_append (hkeep c ts hk hc) ih
    · rw [List.filter_cons_of_neg hk, hdrop c ts hk hc]
      exact ih

namespace Context

theorem Imports.isImportSpecifier (h : ctx.Imports n t) : t.isImportSpecifier := by
  cases h
  rfl

theorem Imports.filter_eq_self {cs : List Cst} (h : List.Forall₂ ctx.Imports cs ts) :
    ts.filter Tree.isImportSpecifier = ts := by
  induction h with
  | nil => rfl
  | cons h _ ih => rw [List.filter_cons_of_pos h.isImportSpecifier, ih]

/-- Names in braces yield specifiers for names, one each. -/
theorem Binds.names_filter (h : ctx.Binds n ts) (hk : n.kind = .namedImports) :
    List.Forall₂ ctx.Imports n.named (ts.filter Tree.isImportSpecifier) := by
  rcases h with hname | ⟨hwhole, -⟩ | ⟨-, hts⟩
  · cases hk.symm.trans hname
  · cases hk.symm.trans hwhole
  · rwa [Imports.filter_eq_self hts]

theorem Binds.filter_eq_nil (h : ctx.Binds n ts) (hk : n.kind ≠ .namedImports) :
    ts.filter Tree.isImportSpecifier = [] := by
  rcases h with _ | _ | ⟨hbraces, -⟩
  · rfl
  · rfl
  · exact absurd hbraces hk

/-- The parts of an import statement yield specifiers for the names in its braces, one each. -/
theorem partBinds_importedNames {tss : List (List (Tree μ))}
    (h : List.Forall₂ ctx.PartBinds n.named tss) :
    List.Forall₂ ctx.Imports n.importedNames (tss.flatten.filter Tree.isImportSpecifier) := by
  refine forall₂_filter_flatten h ?_ ?_
  · rintro p _ hclause (⟨-, htss⟩ | hsource)
    · refine forall₂_filter_flatten htss ?_ ?_
      · exact fun b ts hk hb => hb.names_filter (of_decide_eq_true hk)
      · exact fun b ts hk hb => hb.filter_eq_nil fun h => hk (decide_eq_true h)
    · cases (of_decide_eq_true hclause).symm.trans hsource
  · rintro p _ hclause (⟨hk, -⟩ | -)
    · exact absurd (decide_eq_true hk) hclause
    · rfl

end Context

namespace Convert

theorem convert_importStatement (hk : n.kind = .importStatement) :
    convert ctx .moduleItem n = importDeclaration ctx n := by
  rw [convert_eq, rule, moduleItem, hk]

theorem convert_exportStatement (hk : n.kind = .exportStatement) :
    convert ctx .moduleItem n = exportDeclaration ctx (convert ctx) n := by
  rw [convert_eq, rule, moduleItem, hk]

/-- An export statement without a declaration or an expression converts exactly if its names do. -/
theorem result_exportStatement (hk : n.kind = .exportStatement) (hvalue : ¬n.ExportsValue) :
    (convert ctx .moduleItem n).result = .ok t ↔
      n.decorators = [] ∧ ∃ s, (exportNames ctx n).result = .ok s ∧ ctx.node n s = t := by
  rw [convert_exportStatement hk, result_exportDeclaration hvalue]

theorem convert_exportStatement_error (hk : n.kind = .exportStatement) (hvalue : ¬n.ExportsValue)
    (hdecorators : n.decorators = []) {u : Unsupported}
    (h : (exportNames ctx n).result = .error u) :
    (convert ctx .moduleItem n).result = .error u := by
  rw [convert_exportStatement hk, exportDeclaration, hdecorators,
    exportShape_of_not_exportsValue hvalue]
  exact Outcome.result_bind_error h _

section
variable (hk : n.kind = .exportStatement) (hvalue : ¬n.ExportsValue)
  (hclause : n.exportClause? = some clause)
include hk hvalue hclause

theorem result_exportBraces (hbraces : clause.kind = .exportClause) :
    (convert ctx .moduleItem n).result = .ok t ↔
      n.decorators = [] ∧ n.token? "type" = none ∧ ∃ specifiers from?,
        List.Forall₂ ctx.Exports clause.named specifiers ∧
        ctx.Sources (n.field? "source") from? ∧
        ctx.node n (.exportNamedDeclaration none specifiers from?) = t := by
  rw [result_exportStatement hk hvalue]
  simp only [result_exportNames_braces hclause hbraces]
  constructor
  · rintro ⟨hdecorators, _, ⟨hmodifier, ts, from?, hts, hfrom, rfl⟩, rfl⟩
    exact ⟨hdecorators, hmodifier, ts, from?, hts, hfrom, rfl⟩
  · rintro ⟨hdecorators, hmodifier, ts, from?, hts, hfrom, rfl⟩
    exact ⟨hdecorators, _, ⟨hmodifier, ts, from?, hts, hfrom, rfl⟩, rfl⟩

theorem result_exportWhole (hwhole : clause.kind = .namespaceExport) :
    (convert ctx .moduleItem n).result = .ok t ↔
      n.decorators = [] ∧ n.token? "type" = none ∧ ∃ d c exported,
        n.field? "source" = some d ∧ d.kind = .string ∧
        clause.named.head? = some c ∧ ctx.Names c exported ∧
        ctx.node n (.exportAllDeclaration (ctx.stringLiteral d) (some exported)) = t := by
  rw [result_exportStatement hk hvalue]
  simp only [result_exportNames_whole hclause hwhole]
  constructor
  · rintro ⟨hdecorators, _, ⟨hmodifier, d, c, exported, hd, hstring, hc, hname, rfl⟩, rfl⟩
    exact ⟨hdecorators, hmodifier, d, c, exported, hd, hstring, hc, hname, rfl⟩
  · rintro ⟨hdecorators, hmodifier, d, c, exported, hd, hstring, hc, hname, rfl⟩
    exact ⟨hdecorators, _, ⟨hmodifier, d, c, exported, hd, hstring, hc, hname, rfl⟩, rfl⟩

end

/-- An import statement converts exactly if it is in order and all names in its braces are. -/
theorem exists_importDeclaration : (∃ t, (importDeclaration ctx n).result = .ok t) ↔
    n.ImportsValues ∧ ∀ s ∈ n.importedNames, ∃ t, ctx.Imports s t := by
  simp only [result_importDeclaration]
  constructor
  · rintro ⟨_, hmodifier, c, tss, hc, hk, htss, -⟩
    obtain ⟨hparts, hnames⟩ := Context.exists_partBinds_named.1 (exists_forall₂.1 ⟨tss, htss⟩)
    exact ⟨⟨hmodifier, ⟨c, hc, hk⟩, hparts⟩, hnames⟩
  · rintro ⟨⟨hmodifier, ⟨c, hc, hk⟩, hparts⟩, hnames⟩
    obtain ⟨tss, htss⟩ := exists_forall₂.2 (Context.exists_partBinds_named.2 ⟨hparts, hnames⟩)
    exact ⟨_, hmodifier, c, tss, hc, hk, htss, rfl⟩

end Convert

/-- **Names of imports and exports are read alike**, but for the keyword `default` after `* as`. A
statement yields the names in its braces, one each: it fails if one of them is no identifier, no string
and not the keyword. What everything of a module is exported under is the first named part of its
clause, so a clause with the keyword alone is unexpected. -/
theorem Program.convert_moduleNames (source : Source) (options : Options) (n : Cst) :
    let ctx := context source options
    let convert := Convert.convert ctx .moduleItem
    (n.kind = .importStatement →
      ((∃ t, (convert n).result = .ok t) ↔
        n.ImportsValues ∧ ∀ s ∈ n.importedNames, ∃ t, ctx.Imports s t) ∧
      ∀ t, (convert n).result = .ok t → ∃ c specifiers, n.field? "source" = some c ∧
        t = ctx.node n (.importDeclaration specifiers (ctx.stringLiteral c)) ∧
        List.Forall₂ ctx.Imports n.importedNames (specifiers.filter Tree.isImportSpecifier)) ∧
    ∀ clause, n.kind = .exportStatement → ¬n.ExportsValue → n.exportClause? = some clause →
      (clause.kind = .exportClause → ∀ t, (convert n).result = .ok t ↔
        n.decorators = [] ∧ n.token? "type" = none ∧ ∃ specifiers from?,
          List.Forall₂ ctx.Exports clause.named specifiers ∧
          ctx.Sources (n.field? "source") from? ∧
          ctx.node n (.exportNamedDeclaration none specifiers from?) = t) ∧
      (clause.kind = .namespaceExport → ∀ t, (convert n).result = .ok t ↔
        n.decorators = [] ∧ n.token? "type" = none ∧ ∃ d c exported,
          n.field? "source" = some d ∧ d.kind = .string ∧
          clause.named.head? = some c ∧ ctx.Names c exported ∧
          ctx.node n (.exportAllDeclaration (ctx.stringLiteral d) (some exported)) = t) ∧
      (clause.kind = .namespaceExport → n.decorators = [] → n.token? "type" = none →
        ∀ d, n.field? "source" = some d → d.kind = .string → clause.named = [] →
          (convert n).result = .error (ctx.unsupported clause)) := by
  intro ctx convert
  refine ⟨fun hk => ?_, fun clause hk hvalue hclause => ⟨fun hbraces t => ?_, fun hwhole t => ?_,
    fun hwhole hdecorators hmodifier d hd hstring hnamed => ?_⟩⟩
  · have himport : convert n = Convert.importDeclaration ctx n := Convert.convert_importStatement hk
    rw [himport]
    refine ⟨Convert.exists_importDeclaration, fun t ht => ?_⟩
    obtain ⟨-, c, tss, hc, -, htss, rfl⟩ := Convert.result_importDeclaration.1 ht
    exact ⟨c, tss.flatten, hc, rfl, Context.partBinds_importedNames htss⟩
  · exact Convert.result_exportBraces hk hvalue hclause hbraces
  · exact Convert.result_exportWhole hk hvalue hclause hwhole
  · exact Convert.convert_exportStatement_error hk hvalue hdecorators
      (Convert.exportNames_of_named_eq_nil hclause hwhole hmodifier hd hstring hnamed)

/-- The tree of `import {default as a,"b" as c} from "m";`. -/
def keywordImport : Cst :=
  .node { label := "import_statement", isNamed := true, start := 0, stop := 40 } [
    .node { label := "import", start := 0, stop := 6 } [],
    .node { label := "import_clause", isNamed := true, start := 7, stop := 30 } [
      .node { label := "named_imports", isNamed := true, start := 7, stop := 30 } [
        .node { label := "\x7b", start := 7, stop := 8 } [],
        .node { label := "import_specifier", isNamed := true, start := 8, stop := 20 } [
          .node { label := "default", start := 8, stop := 15, field := some "name" } [],
          .node { label := "as", start := 16, stop := 18 } [],
          .node { label := "identifier", isNamed := true, start := 19, stop := 20,
                  field := some "alias" } []],
        .node { label := ",", start := 20, stop := 21 } [],
        .node { label := "import_specifier", isNamed := true, start := 21, stop := 29 } [
          .node { label := "string", isNamed := true, start := 21, stop := 24,
                  field := some "name" } [],
          .node { label := "as", start := 25, stop := 27 } [],
          .node { label := "identifier", isNamed := true, start := 28, stop := 29,
                  field := some "alias" } []],
        .node { label := "\x7d", start := 29, stop := 30 } []]],
    .node { label := "from", start := 31, stop := 35 } [],
    .node { label := "string", isNamed := true, start := 36, stop := 39,
            field := some "source" } [],
    .node { label := ";", start := 39, stop := 40 } []]

/-- The tree of `{a as default}` in `export {a as default};`. -/
def keywordBraces : Cst :=
  .node { label := "export_clause", isNamed := true, start := 7, stop := 21 } [
    .node { label := "\x7b", start := 7, stop := 8 } [],
    .node { label := "export_specifier", isNamed := true, start := 8, stop := 20 } [
      .node { label := "identifier", isNamed := true, start := 8, stop := 9,
              field := some "name" } [],
      .node { label := "as", start := 10, stop := 12 } [],
      .node { label := "default", start := 13, stop := 20, field := some "alias" } []],
    .node { label := "\x7d", start := 20, stop := 21 } []]

/-- The tree of `export {a as default};`. -/
def keywordExport : Cst :=
  .node { label := "export_statement", isNamed := true, start := 0, stop := 22 } [
    .node { label := "export", start := 0, stop := 6 } [],
    keywordBraces,
    .node { label := ";", start := 21, stop := 22 } []]

/-- The tree of `* as default` in `export * as default from "b";`. -/
def keywordWhole : Cst :=
  .node { label := "namespace_export", isNamed := true, start := 7, stop := 19 } [
    .node { label := "*", start := 7, stop := 8 } [],
    .node { label := "as", start := 9, stop := 11 } [],
    .node { label := "default", start := 12, stop := 19 } []]

/-- The tree of `export * as default from "b";`. -/
def keywordExportAll : Cst :=
  .node { label := "export_statement", isNamed := true, start := 0, stop := 29 } [
    .node { label := "export", start := 0, stop := 6 } [],
    keywordWhole,
    .node { label := "from", start := 20, stop := 24 } [],
    .node { label := "string", isNamed := true, start := 25, stop := 28,
            field := some "source" } [],
    .node { label := ";", start := 28, stop := 29 } []]

theorem keywordImport_moduleNames :
    (let ctx := Program.context (.ofString "import \x7bdefault as a,\"b\" as c\x7d from \"m\";") {}
    keywordImport.kind = .importStatement ∧ keywordImport.ImportsValues ∧
      keywordImport.importedNames.length = 2 ∧ ∃ specifiers : List Node,
        List.Forall₂ ctx.Imports keywordImport.importedNames
          (specifiers.filter Tree.isImportSpecifier)) ∧
    (let ctx := Program.context (.ofString "export \x7ba as default\x7d;") {}
    keywordExport.kind = .exportStatement ∧ ¬keywordExport.ExportsValue ∧
      keywordExport.exportClause? = some keywordBraces ∧ keywordBraces.kind = .exportClause ∧
      ∃ specifiers : List Node, List.Forall₂ ctx.Exports keywordBraces.named specifiers) ∧
    (let ctx := Program.context (.ofString "export * as default from \"b\";") {}
    keywordExportAll.kind = .exportStatement ∧ ¬keywordExportAll.ExportsValue ∧
      keywordExportAll.exportClause? = some keywordWhole ∧ keywordWhole.kind = .namespaceExport ∧
      (Convert.convert ctx .moduleItem keywordExportAll).result =
        .error (ctx.unsupported keywordWhole)) := by
  refine ⟨?_, ?_, ?_⟩ <;> intro ctx
  · have hk : keywordImport.kind = .importStatement := rfl
    obtain ⟨t, ht⟩ : ∃ t, (Convert.convert ctx .moduleItem keywordImport).result = .ok t :=
      ⟨_, rfl⟩
    obtain ⟨hexists, hnames⟩ := (Program.convert_moduleNames _ {} keywordImport).1 hk
    obtain ⟨_, specifiers, -, -, hspecifiers⟩ := hnames t ht
    exact ⟨hk, (hexists.1 ⟨t, ht⟩).1, rfl, specifiers, hspecifiers⟩
  · have hk : keywordExport.kind = .exportStatement := rfl
    have hvalue : ¬keywordExport.ExportsValue := by decide
    have hclause : keywordExport.exportClause? = some keywordBraces := rfl
    obtain ⟨t, ht⟩ : ∃ t, (Convert.convert ctx .moduleItem keywordExport).result = .ok t :=
      ⟨_, rfl⟩
    obtain ⟨hbraces, -⟩ := (Program.convert_moduleNames _ {} keywordExport).2 _ hk hvalue hclause
    obtain ⟨-, -, specifiers, _, hspecifiers, -⟩ := (hbraces rfl t).1 ht
    exact ⟨hk, hvalue, hclause, rfl, specifiers, hspecifiers⟩
  · have hk : keywordExportAll.kind = .exportStatement := rfl
    have hvalue : ¬keywordExportAll.ExportsValue := by decide
    have hclause : keywordExportAll.exportClause? = some keywordWhole := rfl
    obtain ⟨-, -, hkeyword⟩ :=
      (Program.convert_moduleNames _ {} keywordExportAll).2 _ hk hvalue hclause
    exact ⟨hk, hvalue, hclause, rfl, hkeyword rfl rfl rfl _ rfl rfl rfl⟩

/-- The keyword is a name in the braces of an export, but none for everything of a module. -/
theorem keywordExportAll_unexpected :
    (∃ t name outer, (Convert.convert (Program.context (.ofString "export \x7ba as default\x7d;") {})
      .moduleItem keywordExport).result = .ok t ∧
      name.shape = .identifier "a" ∧ outer.shape = .identifier "default" ∧
      t.children.map Tree.shape = [.exportSpecifier name outer]) ∧
    (Convert.convert (Program.context (.ofString "export * as default from \"b\";") {})
      .moduleItem keywordExportAll).result = .error ⟨"namespace_export", ⟨1, 7⟩⟩ :=
  ⟨⟨_, _, _, rfl, rfl, rfl, rfl⟩, rfl⟩

end Estree
