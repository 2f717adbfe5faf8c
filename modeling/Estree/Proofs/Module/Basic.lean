import Estree.Proofs.Cst
import Estree.Proofs.Outcome

/-!
# Names of imports and exports

What the name of something that is imported or exported yields (`Context.Names`), and what a name in
the braces of an import or an export (`Context.Imports`, `Context.Exports`). The lemmas say when the
rules for imports and exports succeed, and with what.
-/

namespace Estree

variable {μ : Type} {ctx : Context μ} {n c clause : Cst} {t : Tree μ} {ts : List (Tree μ)}

/-! ## Names -/

/-- The literal that a string yields. -/
def Context.stringLiteral (ctx : Context μ) (n : Cst) : Tree μ :=
  Convert.literalNode ctx n (.string (Convert.stringValue (ctx.text n).toList)) none

/-- What the name of something that is imported or exported yields. -/
inductive Context.Names (ctx : Context μ) : Cst → Tree μ → Prop
  | identifier {n : Cst} : n.kind.isIdentifier → Names ctx n (ctx.identifier n)
  | string {n : Cst} : n.kind = .string → Names ctx n (ctx.stringLiteral n)
  | keyword {n : Cst} : n.isToken "default" → Names ctx n (ctx.identifier n)

/-- What a name in the braces of an import yields. Without an alias it is bound as it is imported. -/
inductive Context.Imports (ctx : Context μ) (n : Cst) : Tree μ → Prop
  | mk {c : Cst} {imported : Tree μ} :
    n.kind = .importSpecifier → n.field? "name" = some c → ctx.Names c imported →
    Imports ctx n (ctx.node n
      (.importSpecifier imported (((n.field? "alias").map ctx.identifier).getD imported)))

/-- What a name in the braces of an export yields. Without an alias it is exported as it is bound. -/
inductive Context.Exports (ctx : Context μ) (n : Cst) : Tree μ → Prop
  | mk {c : Cst} {name : Tree μ} {outer : Option (Tree μ)} :
    n.kind = .exportSpecifier → n.field? "name" = some c → ctx.Names c name →
    Option.Rel ctx.Names (n.field? "alias") outer →
    Exports ctx n (ctx.node n (.exportSpecifier name (outer.getD name)))

namespace Convert

theorem result_literal_string (hk : n.kind = .string) :
    (literal ctx n).result = .ok t ↔ ctx.stringLiteral n = t := by
  rw [literal, hk]
  exact (Except.ok.injEq ..).to_iff

theorem result_exportName : (exportName ctx n).result = .ok t ↔ ctx.Names n t := by
  constructor
  · intro h
    unfold exportName at h
    split at h
    case isTrue hk =>
      obtain rfl := (result_literal_string hk).1 h
      exact .string hk
    case isFalse =>
      split at h
      case isTrue hname =>
        cases h
        rcases Bool.or_eq_true_iff.1 hname with hk | htoken
        · exact .identifier hk
        · exact .keyword htoken
      case isFalse => cases h
  · rintro (hk | hk | htoken)
    · have hne : n.kind ≠ .string := by
        intro hs
        simp [hs, Kind.isIdentifier] at hk
      rw [exportName, if_neg hne, if_pos (Bool.or_eq_true_iff.2 (.inl hk))]
      rfl
    · rw [exportName, if_pos hk]
      exact (result_literal_string hk).2 rfl
    · have hne : n.kind ≠ .string := by
        intro hs
        simp [Cst.kind, Cst.not_isNamed_of_isToken htoken] at hs
      rw [exportName, if_neg hne, if_pos (Bool.or_eq_true_iff.2 (.inr htoken))]
      rfl

theorem result_moduleSource :
    (moduleSource ctx n).result = .ok t ↔ n.kind = .string ∧ ctx.stringLiteral n = t := by
  rw [moduleSource, Outcome.result_bind_eq_ok]
  constructor
  · rintro ⟨_, hk, h⟩
    have hk := Context.result_expect.1 hk
    exact ⟨hk, (result_literal_string hk).1 h⟩
  · rintro ⟨hk, h⟩
    exact ⟨(), Context.result_expect.2 hk, (result_literal_string hk).2 h⟩

/-- A statement with the modifier fails at it. -/
theorem rejectTypeModifier_of_token? (h : n.token? "type" = some c) :
    rejectTypeModifier ctx n = ctx.unexpected c := by
  rw [rejectTypeModifier, h]
  rfl

theorem result_rejectTypeModifier {u : Unit} :
    (rejectTypeModifier ctx n).result = .ok u ↔ n.token? "type" = none := by
  cases h : n.token? "type" with
  | none => simp [rejectTypeModifier, h, Context.reject]
  | some c => simp [rejectTypeModifier_of_token? h, Context.result_unexpected_ne]

theorem result_importSpecifier : (importSpecifier ctx n).result = .ok t ↔ ctx.Imports n t := by
  simp only [importSpecifier, Outcome.result_bind_eq_ok, Context.result_expect,
    Context.result_field, result_exportName, Outcome.result_pure, Except.ok.injEq]
  constructor
  · rintro ⟨_, hk, c, hc, imported, himported, rfl⟩
    exact .mk hk hc himported
  · rintro ⟨hk, hc, himported⟩
    exact ⟨(), hk, _, hc, _, himported, rfl⟩

theorem result_exportSpecifier : (exportSpecifier ctx n).result = .ok t ↔ ctx.Exports n t := by
  simp only [exportSpecifier, Outcome.result_bind_eq_ok, Context.result_expect,
    Context.result_field, Outcome.result_onSome_eq_ok, result_exportName, Outcome.result_pure,
    Except.ok.injEq]
  constructor
  · rintro ⟨_, hk, c, hc, name, hname, outer, houter, rfl⟩
    exact .mk hk hc hname houter
  · rintro ⟨hk, hc, hname, houter⟩
    exact ⟨(), hk, _, hc, _, hname, _, houter, rfl⟩

end Convert

/-! ## Import statements -/

/-- What one part of an import clause binds. -/
inductive Context.Binds (ctx : Context μ) (n : Cst) : List (Tree μ) → Prop
  | name : n.kind = .identifier →
    Binds ctx n [ctx.node n (.importDefaultSpecifier (ctx.identifier n))]
  | whole {c : Cst} : n.kind = .namespaceImport → n.named.head? = some c →
    Binds ctx n [ctx.node n (.importNamespaceSpecifier (ctx.identifier c))]
  | names {ts : List (Tree μ)} : n.kind = .namedImports → List.Forall₂ ctx.Imports n.named ts →
    Binds ctx n ts

/-- What one part of an import statement binds. The module that it names binds nothing. -/
inductive Context.PartBinds (ctx : Context μ) (n : Cst) : List (Tree μ) → Prop
  | clause {tss : List (List (Tree μ))} : n.kind = .importClause →
    List.Forall₂ ctx.Binds n.named tss → PartBinds ctx n tss.flatten
  | source : n.kind = .string → PartBinds ctx n []

namespace Convert

open Outcome

theorem result_importBinding : (importBinding ctx n).result = .ok ts ↔ ctx.Binds n ts := by
  constructor
  · intro h
    unfold importBinding at h
    split at h
    case h_1 hk =>
      cases h
      exact .name hk
    case h_2 hk =>
      obtain ⟨c, hc, h⟩ := result_bind_eq_ok.1 h
      cases h
      exact .whole hk (Context.result_firstNamed.1 hc)
    case h_3 hk =>
      exact .names hk ((result_mapM_eq_ok.1 h).imp fun _ _ => result_importSpecifier.1)
    case h_4 => cases h
  · rintro (hk | ⟨hk, hc⟩ | ⟨hk, hts⟩) <;> rw [importBinding, hk]
    · rfl
    · exact result_bind_eq_ok.2 ⟨_, Context.result_firstNamed.2 hc, rfl⟩
    · exact result_mapM_eq_ok.2 (hts.imp fun _ _ => result_importSpecifier.2)

theorem result_importPart : (importPart ctx n).result = .ok ts ↔ ctx.PartBinds n ts := by
  constructor
  · intro h
    unfold importPart at h
    split at h
    case h_1 hk =>
      obtain ⟨tss, htss, h⟩ := result_bind_eq_ok.1 h
      cases h
      exact .clause hk ((result_mapM_eq_ok.1 htss).imp fun _ _ => result_importBinding.1)
    case h_2 hk =>
      cases h
      exact .source hk
    case h_3 => cases h
  · rintro (⟨hk, htss⟩ | hk) <;> rw [importPart, hk]
    · have hclause := result_mapM_eq_ok.2 (htss.imp fun _ _ => result_importBinding.2)
      exact result_bind_eq_ok.2 ⟨_, hclause, rfl⟩
    · rfl

/-- An import statement converts exactly if it has no modifier, names its module by a string, and all
of its parts bind something known. -/
theorem result_importDeclaration : (importDeclaration ctx n).result = .ok t ↔
    n.token? "type" = none ∧ ∃ c tss, n.field? "source" = some c ∧ c.kind = .string ∧
      List.Forall₂ ctx.PartBinds n.named tss ∧
      t = ctx.node n (.importDeclaration tss.flatten (ctx.stringLiteral c)) := by
  have hparts (tss : List (List (Tree μ))) : (n.named.mapM (importPart ctx)).result = .ok tss ↔
      List.Forall₂ ctx.PartBinds n.named tss := by
    simp only [result_mapM_eq_ok, result_importPart]
  simp only [importDeclaration, result_bind_eq_ok, result_rejectTypeModifier,
    Context.result_field, result_moduleSource, hparts, result_pure, Except.ok.injEq]
  constructor
  · rintro ⟨_, hmodifier, c, hc, _, ⟨hk, rfl⟩, tss, htss, rfl⟩
    exact ⟨hmodifier, c, tss, hc, hk, htss, rfl⟩
  · rintro ⟨hmodifier, c, tss, hc, hk, htss, rfl⟩
    exact ⟨(), hmodifier, c, hc, _, ⟨hk, rfl⟩, tss, htss, rfl⟩

end Convert

/-! ## Export statements -/

/-- An export statement exports a declaration or an expression. -/
def Cst.ExportsValue (n : Cst) : Prop :=
  (n.field? "declaration").isSome ∨ (n.field? "value").isSome ∨ n.hasToken "="

instance : DecidablePred Cst.ExportsValue := fun _ => inferInstanceAs (Decidable (_ ∨ _ ∨ _))

/-- The braces of an export statement, or what stands in their place. -/
def Cst.exportClause? (n : Cst) : Option Cst :=
  n.named.find? fun c => c.kind == .exportClause || c.kind == .namespaceExport

/-- What the module that an export names yields. -/
def Context.Sources (ctx : Context μ) : Option Cst → Option (Tree μ) → Prop :=
  Option.Rel fun c t => c.kind = .string ∧ ctx.stringLiteral c = t

namespace Convert

open Outcome

theorem result_exportSource {source : Option (Tree μ)} :
    (onSome (moduleSource ctx) (n.field? "source")).result = .ok source ↔
      ctx.Sources (n.field? "source") source := by
  simp only [result_onSome_eq_ok, result_moduleSource, Context.Sources]

/-- An export statement without a declaration or an expression exports names. -/
theorem exportShape_of_not_exportsValue {f : Converter μ} (h : ¬n.ExportsValue) :
    exportShape ctx f n = exportNames ctx n := by
  obtain ⟨hdeclaration, hvalue, heq⟩ := not_or.1 h |>.imp_right not_or.1
  rw [exportShape, Option.not_isSome_iff_eq_none.1 hdeclaration,
    Option.not_isSome_iff_eq_none.1 hvalue]
  exact if_neg heq

theorem result_reject_eq_ok {cs : List Cst} {u : Unit} :
    (ctx.reject cs).result = .ok u ↔ cs = [] := by
  cases cs <;> simp [Context.reject, Context.result_unexpected_ne]

theorem result_exportDeclaration {f : Converter μ} (h : ¬n.ExportsValue) :
    (exportDeclaration ctx f n).result = .ok t ↔
      n.decorators = [] ∧ ∃ s, (exportNames ctx n).result = .ok s ∧ ctx.node n s = t := by
  simp only [exportDeclaration, result_bind_eq_ok, result_reject_eq_ok,
    exportShape_of_not_exportsValue h, result_pure, Except.ok.injEq]
  constructor
  · rintro ⟨_, hdecorators, hs⟩
    exact ⟨hdecorators, hs⟩
  · rintro ⟨hdecorators, hs⟩
    exact ⟨(), hdecorators, hs⟩

section
variable {s : Shape (Tree μ)} (hclause : n.exportClause? = some clause)
include hclause

/-- An export of the names in braces. -/
theorem result_exportNames_braces (hk : clause.kind = .exportClause) :
    (exportNames ctx n).result = .ok s ↔ n.token? "type" = none ∧
      ∃ ts source, List.Forall₂ ctx.Exports clause.named ts ∧
        ctx.Sources (n.field? "source") source ∧ .exportNamedDeclaration none ts source = s := by
  have hnames (ts : List (Tree μ)) : (clause.named.mapM (exportSpecifier ctx)).result = .ok ts ↔
      List.Forall₂ ctx.Exports clause.named ts := by
    simp only [result_mapM_eq_ok, result_exportSpecifier]
  rw [Cst.exportClause?] at hclause
  simp only [exportNames, hclause, hk, if_true, result_bind_eq_ok, result_rejectTypeModifier,
    result_exportSource, hnames, result_pure, Except.ok.injEq]
  constructor
  · rintro ⟨_, hmodifier, source, hsource, ts, hts, rfl⟩
    exact ⟨hmodifier, ts, source, hts, hsource, rfl⟩
  · rintro ⟨hmodifier, ts, source, hts, hsource, rfl⟩
    exact ⟨(), hmodifier, source, hsource, ts, hts, rfl⟩

/-- An export of everything from a module needs the module. -/
theorem result_exportNames_whole (hk : clause.kind = .namespaceExport) :
    (exportNames ctx n).result = .ok s ↔ n.token? "type" = none ∧
      ∃ d c exported, n.field? "source" = some d ∧ d.kind = .string ∧
        clause.named.head? = some c ∧ ctx.Names c exported ∧
        .exportAllDeclaration (ctx.stringLiteral d) (some exported) = s := by
  rw [Cst.exportClause?] at hclause
  have hne : clause.kind ≠ .exportClause := by simp [hk]
  simp only [exportNames, hclause, if_neg hne, result_bind_eq_ok, result_rejectTypeModifier,
    result_exportSource]
  constructor
  · rintro ⟨_, hmodifier, source, hsource, h⟩
    rw [Context.Sources] at hsource
    generalize n.field? "source" = d? at hsource ⊢
    cases hsource with
    | none => cases h
    | @some d _ hd =>
      obtain ⟨hd, rfl⟩ := hd
      obtain ⟨c, hc, h⟩ := result_bind_eq_ok.1 h
      obtain ⟨exported, hexported, h⟩ := result_bind_eq_ok.1 h
      cases h
      exact ⟨hmodifier, d, c, exported, rfl, hd, Context.result_firstNamed.1 hc,
        result_exportName.1 hexported, rfl⟩
  · rintro ⟨hmodifier, d, c, exported, hfield, hd, hc, hexported, rfl⟩
    refine ⟨(), hmodifier, some (ctx.stringLiteral d), ?_, ?_⟩
    · rw [hfield]
      exact .some ⟨hd, rfl⟩
    · exact result_bind_eq_ok.2 ⟨c, Context.result_firstNamed.2 hc,
        result_bind_eq_ok.2 ⟨exported, result_exportName.2 hexported, rfl⟩⟩

/-- Where the name is no named part, the clause is unexpected. -/
theorem exportNames_of_named_eq_nil (hk : clause.kind = .namespaceExport)
    (hmodifier : n.token? "type" = none) (hsource : n.field? "source" = some c)
    (hc : c.kind = .string) (hnamed : clause.named = []) :
    (exportNames ctx n).result = .error (ctx.unsupported clause) := by
  rw [Cst.exportClause?] at hclause
  have hne : clause.kind ≠ .exportClause := by simp [hk]
  have hsource' : (onSome (moduleSource ctx) (n.field? "source")).result =
      .ok (some (ctx.stringLiteral c)) := by
    rw [result_exportSource, hsource]
    exact .some ⟨hc, rfl⟩
  have hmodifier' : (rejectTypeModifier ctx n).result = .ok () :=
    result_rejectTypeModifier.2 hmodifier
  rw [exportNames, result_bind_ok hmodifier', result_bind_ok hsource', hclause]
  simp only [if_neg hne, Context.firstNamed, hnamed]
  exact result_bind_error rfl _

end

end Convert

end Estree
