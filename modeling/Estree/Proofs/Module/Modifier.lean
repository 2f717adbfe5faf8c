import Estree.Proofs.Built.Statement
import Estree.Proofs.Module.Names

/-!
# Modifiers of imports and exports

An import or export statement with the modifier `type` fails, unless it exports a declaration or an
expression. Imports and exports stand nowhere but directly in a program, so each of them in a result
comes from a statement without the modifier (`Program.convert_typeOnly`). A modifier of a single name
is not looked at, and neither is the modifier `typeof`.
-/

namespace Estree

variable {μ : Type} {ctx : Context μ} {cat : Category} {n c : Cst} {t u : Tree μ}

/-! ## Where imports and exports stand -/

/-- No node of a tree is an import or an export. -/
def Tree.IsPlain (t : Tree μ) : Prop := t.Everywhere fun u => Category.moduleParts? u.shape = none

/-- What is built is an import or export at its root at most, and there only as an item of a
program. -/
structure Tree.PlainBelow (cat : Category) (t : Tree μ) : Prop where
  root : cat.inner → Category.moduleParts? t.shape = none
  below : ∀ c ∈ t.children, c.IsPlain

theorem Tree.PlainBelow.isPlain (h : PlainBelow cat t) (hcat : cat.inner) : t.IsPlain :=
  .mk (h.root hcat) h.below

theorem Tree.PlainBelow.of_children {s : Shape (Tree μ)} {m : μ}
    (hs : Category.moduleParts? s = none) (hc : ∀ c ∈ s.children, c.IsPlain) :
    PlainBelow cat (.mk s m) := ⟨fun _ => hs, hc⟩

/-- Imports and exports are not built from what stands inside of other syntax. -/
theorem Built.plainBelow (h : Built ctx cat n t) (hcat : cat ≠ .program) : t.PlainBelow cat := by
  induction h with
  | @node cat n s ps _ _ hparts _ ih =>
    refine ⟨fun hin => Category.moduleParts?_eq_none hin hparts, fun c hc => ?_⟩
    have hc : c ∈ ps.map Prod.snd := Category.parts?_children hparts ▸ hc
    obtain ⟨p, hp, rfl⟩ := List.mem_map.1 hc
    have hin := Category.parts?_inner hcat hparts p hp
    exact (ih p hp (by rintro hp; cases hp ▸ hin)).isPlain hin
  | within _ _ ih => exact ih hcat
  | widen hle _ ih =>
    have h := ih (Category.ne_program_of_le hle hcat)
    exact ⟨fun hin => h.root (Category.inner_of_le hle hin), h.below⟩
  | identifier | trusted | privateIdentifier | templateElement => exact .of_children rfl nofun
  | @literal n value regex =>
    refine .of_children rfl ?_
    rw [Shape.children_literal]
    exact nofun
  | defaultParameter _ _ _ _ _ ihleft ihright =>
    have hleft := (ihleft nofun).isPlain rfl
    have hright := (ihright nofun).isPlain rfl
    exact .of_children rfl (List.forall_mem_cons.2 ⟨hleft, List.forall_mem_singleton.2 hright⟩)
  | @methodFunction n list body params block _ _ _ _ _ _ _ _ ihparams ihblock =>
    refine .of_children rfl fun c hc => ?_
    have hc : c ∈ params ∨ c = block := by simpa using hc
    rcases hc with hc | rfl
    · exact (ihparams c hc nofun).isPlain rfl
    · exact (ihblock nofun).isPlain rfl
  | constructor _ _ _ _ ih =>
    have hkey {name : Cst} : (ctx.node name (.identifier "constructor")).IsPlain := .mk rfl nofun
    have hvalue := (ih nofun).isPlain rfl
    exact .of_children rfl (List.forall_mem_cons.2 ⟨hkey, List.forall_mem_singleton.2 hvalue⟩)
  | @classBody n origin members _ _ _ _ ih =>
    refine .of_children rfl fun c hc => ?_
    have hc : c ∈ members := by simpa using hc
    exact (ih c hc nofun).isPlain rfl
  | @variableList n origin declarations _ _ _ _ ih =>
    refine .of_children rfl fun c hc => ?_
    have hc : c ∈ declarations := by simpa using hc
    exact (ih c hc nofun).isPlain rfl
  | @loopVariable n keyword name value id init _ _ _ _ _ _ _ _ ihid ihinit =>
    refine .of_children rfl (List.forall_mem_singleton.2 (.mk rfl fun c hc => ?_))
    have hc : c ∈ (Shape.variableDeclarator id init).children := hc
    have hc : c = id ∨ init = some c := by simpa using hc
    rcases hc with rfl | hc
    · exact (ihid nofun).isPlain rfl
    · exact (ihinit c hc nofun).isPlain rfl
  | @forLoop n init test update body condition _ _ _ _ _ _ ihinit ihtest ihupdate ihbody =>
    refine .of_children rfl fun c hc => ?_
    have hc : init = some c ∨ test = some c ∨ update = some c ∨ c = body := by
      simpa [or_assoc] using hc
    have hcondition := Category.inner_of_le (Role.category_forPart_le condition) rfl
    rcases hc with hc | hc | hc | rfl
    · exact (ihinit c hc nofun).isPlain rfl
    · exact (ihtest c hc (by rintro hp; cases hp ▸ hcondition)).isPlain hcondition
    · exact (ihupdate c hc nofun).isPlain rfl
    · exact (ihbody nofun).isPlain rfl

/-! ## Items -/

/-- The items of a program: all named parts but a line for the shell. -/
def Cst.items (n : Cst) : List Cst := n.named.filter (·.kind != .hashBangLine)

/-- An import or export statement has the modifier `type`, and it does not export a declaration or an
expression. -/
structure Cst.TypeOnly (n : Cst) : Prop where
  modifier : n.hasToken "type"
  kind : n.kind = .importStatement ∨ n.kind = .exportStatement ∧ ¬n.ExportsValue

namespace Convert

/-- A program converts exactly if its items do. -/
theorem result_program : (program ctx n).result = .ok t ↔ n.kind = .program ∧
    ∃ body, (n.items.mapM (convert ctx .moduleItem)).result = .ok body ∧
      ctx.nodeAt n 0 ctx.source.size (.program body ctx.sourceType) = t := by
  simp only [program, Cst.items, Outcome.result_bind_eq_ok, Context.result_expect,
    Outcome.result_pure, Except.ok.injEq]
  constructor
  · rintro ⟨_, hk, hbody⟩
    exact ⟨hk, hbody⟩
  · rintro ⟨hk, hbody⟩
    exact ⟨(), hk, hbody⟩

/-- A statement of types fails at its modifier, unless it is an export that fails at a decorator. -/
theorem convert_of_typeOnly (h : n.TypeOnly) :
    ∃ c, (n.token? "type" = some c ∨ n.kind = .exportStatement ∧ n.decorators.head? = some c) ∧
      (convert ctx .moduleItem n).result = .error (ctx.unsupported c) := by
  obtain ⟨c, hc⟩ := Option.isSome_iff_exists.1 h.modifier
  have hreject {α : Type} (k : Unit → Outcome α) :
      (rejectTypeModifier ctx n >>= k).result = .error (ctx.unsupported c) := by
    rw [rejectTypeModifier_of_token? hc]
    exact Outcome.result_bind_error rfl k
  rcases h.kind with hk | ⟨hk, hvalue⟩
  · refine ⟨c, .inl hc, ?_⟩
    rw [convert_importStatement hk]
    exact hreject _
  · cases hdecorators : n.decorators with
    | nil =>
      exact ⟨c, .inl hc, convert_exportStatement_error hk hvalue hdecorators (hreject _)⟩
    | cons d ds =>
      refine ⟨d, .inr ⟨hk, rfl⟩, ?_⟩
      rw [convert_exportStatement hk, exportDeclaration, hdecorators]
      exact Outcome.result_bind_error rfl _

/-- What converts to an import or export is a statement of it. -/
theorem kind_of_moduleParts? (h : (convert ctx .moduleItem n).result = .ok t)
    (ht : Category.moduleParts? t.shape ≠ none) :
    n.kind = .importStatement ∨ n.kind = .exportStatement := by
  rw [convert_eq, rule] at h
  unfold moduleItem at h
  split at h
  case h_1 hk => exact .inr hk
  case h_2 hk => exact .inl hk
  case h_3 =>
    have hplain := (statement_built convert_sound h).plainBelow (by decide)
    exact absurd (hplain.root rfl) ht

theorem moduleItem_plainBelow (h : (convert ctx .moduleItem n).result = .ok t) :
    t.PlainBelow .moduleItem := by
  have hbuilt : Built ctx .moduleItem n t := convert_sound.built .moduleItem n t h
  exact hbuilt.plainBelow (by decide)

/-- An import or export in a program is one of its items. -/
theorem mem_body_of_moduleParts? {body : List (Tree μ)}
    (hbody : (n.items.mapM (convert ctx .moduleItem)).result = .ok body)
    {m : μ} {type : SourceType} (hu : Tree.IsNode u (.mk (.program body type) m))
    (hmodule : Category.moduleParts? u.shape ≠ none) : u ∈ body := by
  rcases hu.eq_or_below with rfl | ⟨v, hv, hu⟩
  · exact absurd rfl hmodule
  have hv : v ∈ body := by simpa [Tree.children, Tree.shape] using hv
  rcases hu.eq_or_below with rfl | ⟨c, hc, hu⟩
  · exact hv
  obtain ⟨item, -, hitem⟩ := Outcome.exists_of_mem_mapM hbody hv
  exact absurd (((moduleItem_plainBelow hitem).below c hc).of_isNode hu) hmodule

/-- No item of a program that converts is a statement of types. -/
theorem not_typeOnly_of_mem_items {body : List (Tree μ)}
    (hbody : (n.items.mapM (convert ctx .moduleItem)).result = .ok body)
    (hc : c ∈ n.items) : ¬c.TypeOnly := by
  intro htype
  obtain ⟨u, hu⟩ := exists_forall₂.1 ⟨body, Outcome.result_mapM_eq_ok.1 hbody⟩ c hc
  obtain ⟨d, -, hfail⟩ := convert_of_typeOnly htype
  cases hfail.symm.trans hu

end Convert

/-! ## Modifiers without effect -/

/-- A rule makes the same of two nodes, but for their extents. -/
def Context.MakesSame (ctx : Context μ) (rule : Cst → Outcome (Tree μ)) (n m : Cst) : Prop :=
  ∀ s, (rule n).result = .ok (ctx.node n s) ↔ (rule m).result = .ok (ctx.node m s)

/-- Two specifiers have the same names, whatever else stands in them. -/
structure Cst.SameNames (n m : Cst) : Prop where
  kind : n.kind = m.kind
  name : n.field? "name" = m.field? "name"
  outer : n.field? "alias" = m.field? "alias"

/-- Two import statements have the same parts, and the same modifier `type` if they have it. -/
structure Cst.SameImport (n m : Cst) : Prop where
  modifier : n.token? "type" = m.token? "type"
  source : n.field? "source" = m.field? "source"
  named : n.named = m.named

section
variable {m : Cst} {s : Shape (Tree μ)}

theorem Cst.SameNames.symm (h : n.SameNames m) : m.SameNames n :=
  ⟨h.kind.symm, h.name.symm, h.outer.symm⟩

theorem Cst.SameImport.symm (h : n.SameImport m) : m.SameImport n :=
  ⟨h.modifier.symm, h.source.symm, h.named.symm⟩

theorem Context.Imports.of_sameNames (hsame : n.SameNames m) (h : ctx.Imports n (ctx.node n s)) :
    ctx.Imports m (ctx.node m s) := by
  generalize ht : ctx.node n s = t at h
  cases h with
  | mk hk hc himported =>
    obtain rfl : s = _ := congrArg Tree.shape ht
    rw [hsame.outer]
    exact .mk (hsame.kind ▸ hk) (hsame.name ▸ hc) himported

theorem Context.Exports.of_sameNames (hsame : n.SameNames m) (h : ctx.Exports n (ctx.node n s)) :
    ctx.Exports m (ctx.node m s) := by
  generalize ht : ctx.node n s = t at h
  cases h with
  | mk hk hc hname houter =>
    obtain rfl : s = _ := congrArg Tree.shape ht
    exact .mk (hsame.kind ▸ hk) (hsame.name ▸ hc) hname (hsame.outer ▸ houter)

namespace Convert

theorem importSpecifier_makesSame (h : n.SameNames m) : ctx.MakesSame (importSpecifier ctx) n m := by
  intro s
  rw [result_importSpecifier, result_importSpecifier]
  exact ⟨.of_sameNames h, .of_sameNames h.symm⟩

theorem exportSpecifier_makesSame (h : n.SameNames m) : ctx.MakesSame (exportSpecifier ctx) n m := by
  intro s
  rw [result_exportSpecifier, result_exportSpecifier]
  exact ⟨.of_sameNames h, .of_sameNames h.symm⟩

theorem result_importDeclaration_of_sameImport (hsame : n.SameImport m)
    (h : (importDeclaration ctx n).result = .ok (ctx.node n s)) :
    (importDeclaration ctx m).result = .ok (ctx.node m s) := by
  obtain ⟨hmodifier, c, tss, hc, hk, htss, ht⟩ := result_importDeclaration.1 h
  obtain rfl : s = _ := congrArg Tree.shape ht
  exact result_importDeclaration.2 ⟨hsame.modifier ▸ hmodifier, c, tss, hsame.source ▸ hc, hk,
    hsame.named ▸ htss, rfl⟩

theorem importDeclaration_makesSame (h : n.SameImport m) :
    ctx.MakesSame (importDeclaration ctx) n m := fun _ =>
  ⟨result_importDeclaration_of_sameImport h, result_importDeclaration_of_sameImport h.symm⟩

end Convert

end

/-- **Statements of types are no imports or exports of values.** One with the modifier `type` fails,
at the modifier or at a decorator, and so does a program with such an item. Every import and export in
a result comes from an item without the modifier, or from one that exports a declaration or an
expression. Modifiers of single names have no effect, nor has `typeof`: names that differ in nothing
else yield the same, and so do import statements. -/
theorem Program.convert_typeOnly (tree : Cst) (source : Source) (options : Options) :
    let ctx := context source options
    let item := Convert.convert ctx .moduleItem
    (∀ n : Cst, n.TypeOnly → ∃ c,
      (n.token? "type" = some c ∨ n.kind = .exportStatement ∧ n.decorators.head? = some c) ∧
      (item n).result = .error (ctx.unsupported c)) ∧
    ((∃ n ∈ tree.items, n.TypeOnly) →
      ∃ u, (convert tree source options).result = .error u) ∧
    (∀ node, (convert tree source options).result = .ok node →
      ∀ u, Tree.IsNode u node → Category.moduleParts? u.shape ≠ none →
        ∃ n ∈ tree.items, (n.kind = .importStatement ∨ n.kind = .exportStatement) ∧
          ¬n.TypeOnly ∧ (item n).result = .ok u) ∧
    (∀ n m : Cst, n.SameNames m → ctx.MakesSame (Convert.importSpecifier ctx) n m ∧
      ctx.MakesSame (Convert.exportSpecifier ctx) n m) ∧
    ∀ n m : Cst, n.SameImport m → ctx.MakesSame (Convert.importDeclaration ctx) n m := by
  intro ctx item
  refine ⟨fun n => Convert.convert_of_typeOnly, fun ⟨n, hn, htype⟩ => ?_,
    fun node hnode u hu hmodule => ?_, fun n m h =>
      ⟨Convert.importSpecifier_makesSame h, Convert.exportSpecifier_makesSame h⟩,
    fun n m => Convert.importDeclaration_makesSame⟩
  · cases hresult : (convert tree source options).result with
    | error u => exact ⟨u, rfl⟩
    | ok node =>
      obtain ⟨-, body, hbody, -⟩ := Convert.result_program.1 hresult
      exact absurd htype (Convert.not_typeOnly_of_mem_items hbody hn)
  · obtain ⟨-, body, hbody, rfl⟩ := Convert.result_program.1 hnode
    have hmem := Convert.mem_body_of_moduleParts? hbody hu hmodule
    obtain ⟨n, hn, hitem⟩ := Outcome.exists_of_mem_mapM hbody hmem
    exact ⟨n, hn, Convert.kind_of_moduleParts? hitem hmodule,
      Convert.not_typeOnly_of_mem_items hbody hn, hitem⟩

/-- The tree of a name `a` in the braces of `import {type a} from "b";`, with the modifier or in its
place something that is not looked at. -/
def modifiedName (modifier : String) : Cst :=
  .node { label := "import_specifier", isNamed := true, start := 8, stop := 14 } [
    .node { label := modifier, start := 8, stop := 12 } [],
    .node { label := "identifier", isNamed := true, start := 13, stop := 14,
            field := some "name" } []]

/-- The tree of `import {type a} from "b";`. -/
def modifiedNameImport : Cst :=
  .node { label := "program", isNamed := true, start := 0, stop := 25 } [
    .node { label := "import_statement", isNamed := true, start := 0, stop := 25 } [
      .node { label := "import", start := 0, stop := 6 } [],
      .node { label := "import_clause", isNamed := true, start := 7, stop := 15 } [
        .node { label := "named_imports", isNamed := true, start := 7, stop := 15 } [
          .node { label := "\x7b", start := 7, stop := 8 } [],
          modifiedName "type",
          .node { label := "\x7d", start := 14, stop := 15 } []]],
      .node { label := "from", start := 16, stop := 20 } [],
      .node { label := "string", isNamed := true, start := 21, stop := 24,
              field := some "source" } [],
      .node { label := ";", start := 24, stop := 25 } []]]

/-- The tree of an import of `a` from `"b"`, with a modifier of the given width in front. -/
def modifiedImport (modifier : String) (width : Nat) : Cst :=
  .node { label := "import_statement", isNamed := true, start := 0, stop := width + 19 } [
    .node { label := "import", start := 0, stop := 6 } [],
    .node { label := modifier, start := 7, stop := width + 7 } [],
    .node { label := "import_clause", isNamed := true, start := width + 8,
            stop := width + 9 } [
      .node { label := "identifier", isNamed := true, start := width + 8,
              stop := width + 9 } []],
    .node { label := "from", start := width + 10, stop := width + 14 } [],
    .node { label := "string", isNamed := true, start := width + 15,
            stop := width + 18, field := some "source" } [],
    .node { label := ";", start := width + 18, stop := width + 19 } []]

/-- The tree of a program of one statement. -/
def singleItem (item : Cst) : Cst :=
  .node { label := "program", isNamed := true, start := item.head.start, stop := item.head.stop }
    [item]

theorem modifiedImport_convert_typeOnly :
    (let source := .ofString "import type a from \"b\";"
    let ctx := Program.context source {}
    let n := modifiedImport "type" 4
    n.TypeOnly ∧ n ∈ (singleItem n).items ∧
      (∃ c, (Convert.convert ctx .moduleItem n).result = .error (ctx.unsupported c)) ∧
      ∃ u, (Program.convert (singleItem n) source {}).result = .error u) ∧
    (let source := .ofString "import \x7btype a\x7d from \"b\";"
    let ctx := Program.context source {}
    (∃ node u n, (Program.convert modifiedNameImport source {}).result = .ok node ∧
      Tree.IsNode u node ∧ Category.moduleParts? u.shape ≠ none ∧
      n ∈ modifiedNameImport.items ∧ ¬n.TypeOnly) ∧
    (modifiedName "type").SameNames (modifiedName "let") ∧
      ctx.MakesSame (Convert.importSpecifier ctx) (modifiedName "type") (modifiedName "let")) ∧
    (let ctx := Program.context (.ofString "import typeof a from \"b\";") {}
    (modifiedImport "typeof" 6).SameImport (modifiedImport "module" 6) ∧
      ctx.MakesSame (Convert.importDeclaration ctx) (modifiedImport "typeof" 6)
        (modifiedImport "module" 6)) := by
  refine ⟨?_, ?_, ?_⟩
  · intro source ctx n
    have htype : n.TypeOnly := ⟨rfl, .inl rfl⟩
    have hitem : n ∈ (singleItem n).items := List.mem_cons_self
    obtain ⟨hstatement, hprogram, -⟩ := Program.convert_typeOnly (singleItem n) source {}
    obtain ⟨c, -, hc⟩ := hstatement n htype
    exact ⟨htype, hitem, ⟨c, hc⟩, hprogram ⟨n, hitem, htype⟩⟩
  · intro source ctx
    obtain ⟨node, u, hnode, hu, hmodule⟩ : ∃ node u,
        (Program.convert modifiedNameImport source {}).result = .ok node ∧
        Tree.IsNode u node ∧ Category.moduleParts? u.shape ≠ none :=
      ⟨_, _, rfl, .child .root (.head _), nofun⟩
    obtain ⟨-, -, horigin, hnames, -⟩ := Program.convert_typeOnly modifiedNameImport source {}
    obtain ⟨n, hn, -, htype, -⟩ := horigin node hnode u hu hmodule
    have hsame : (modifiedName "type").SameNames (modifiedName "let") := ⟨rfl, rfl, rfl⟩
    exact ⟨⟨node, u, n, hnode, hu, hmodule, hn, htype⟩, hsame, (hnames _ _ hsame).1⟩
  · have hsame : (modifiedImport "typeof" 6).SameImport (modifiedImport "module" 6) := ⟨rfl, rfl, rfl⟩
    obtain ⟨-, -, -, -, himport⟩ := Program.convert_typeOnly modifiedNameImport
      (.ofString "import typeof a from \"b\";") {}
    exact ⟨hsame, himport _ _ hsame⟩

/-- A name with the modifier `type` is imported as a value. -/
theorem modifiedNameImport_converts :
    (modifiedName "type").IsNode modifiedNameImport ∧
    (modifiedName "type").kind = .importSpecifier ∧ (modifiedName "type").hasToken "type" ∧
    ∃ node,
      (Program.convert modifiedNameImport (.ofString "import \x7btype a\x7d from \"b\";") {}).result =
        .ok node ∧
      (node.children.flatMap Tree.children).map Tree.typeName = ["ImportSpecifier", "Literal"] := by
  have hclause : Cst.IsNode _ modifiedNameImport := .child (.child .root (.head _)) (.tail _ (.head _))
  have hname : (modifiedName "type").IsNode modifiedNameImport :=
    .child (.child hclause (.head _)) (.tail _ (.head _))
  exact ⟨hname, rfl, rfl, _, rfl, rfl⟩

end Estree
