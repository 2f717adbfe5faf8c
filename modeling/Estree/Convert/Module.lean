import Estree.Convert.Statement

/-!
# Imports and exports

Only imports and exports of values are mapped: one with the modifier `type` on the whole statement
is unexpected. Names of imports and exports are identifiers, strings or the keyword `default`; the
module that a statement names is always a string.
-/

namespace Estree.Convert

variable {μ : Type} (ctx : Context μ) (convert : Converter μ)

/-- The module that a statement names. -/
def moduleSource (n : Cst) : Outcome (Tree μ) := do
  ctx.expect .string n
  literal ctx n

/-- The name of something that is imported or exported. -/
def exportName (n : Cst) : Outcome (Tree μ) :=
  if n.kind = .string then literal ctx n
  else if n.kind.isIdentifier || n.isToken "default" then return ctx.identifier n
  else ctx.unexpected n

/-- Stops at the modifier `type` of a statement. -/
def rejectTypeModifier (n : Cst) : Outcome Unit := ctx.reject (n.token? "type").toList

/-! ## Imports -/

/-- One of the names in the braces of an import. -/
def importSpecifier (n : Cst) : Outcome (Tree μ) := do
  ctx.expect .importSpecifier n
  let imported ← exportName ctx (← ctx.field n "name")
  let localName := ((n.field? "alias").map ctx.identifier).getD imported
  return ctx.node n (.importSpecifier imported localName)

/-- What one part of an import clause binds. -/
def importBinding (n : Cst) : Outcome (List (Tree μ)) :=
  match n.kind with
  | .identifier => return [ctx.node n (.importDefaultSpecifier (ctx.identifier n))]
  | .namespaceImport => do
    return [ctx.node n (.importNamespaceSpecifier (ctx.identifier (← ctx.firstNamed n)))]
  | .namedImports => n.named.mapM (importSpecifier ctx)
  | _ => ctx.unexpected n

/-- What one part of an import statement binds. -/
def importPart (n : Cst) : Outcome (List (Tree μ)) :=
  match n.kind with
  | .importClause => do return (← n.named.mapM (importBinding ctx)).flatten
  | .string => return []
  | _ => ctx.unexpected n

def importDeclaration (n : Cst) : Outcome (Tree μ) := do
  rejectTypeModifier ctx n
  let source ← moduleSource ctx (← ctx.field n "source")
  let specifiers := (← n.named.mapM (importPart ctx)).flatten
  return ctx.node n (.importDeclaration specifiers source)

/-! ## Exports -/

/-- One of the names in the braces of an export. -/
def exportSpecifier (n : Cst) : Outcome (Tree μ) := do
  ctx.expect .exportSpecifier n
  let localName ← exportName ctx (← ctx.field n "name")
  let outer ← Outcome.onSome (exportName ctx) (n.field? "alias")
  return ctx.node n (.exportSpecifier localName (outer.getD localName))

/-- An export of names, possibly from another module. -/
def exportNames (n : Cst) : Outcome (Shape (Tree μ)) := do
  rejectTypeModifier ctx n
  let source ← Outcome.onSome (moduleSource ctx) (n.field? "source")
  let clause? := n.named.find? fun c => c.kind == .exportClause || c.kind == .namespaceExport
  match clause?, source with
  | some clause, source =>
    if clause.kind = .exportClause then
      return .exportNamedDeclaration none (← clause.named.mapM (exportSpecifier ctx)) source
    else match source with
      | some source =>
        let exported ← exportName ctx (← ctx.firstNamed clause)
        return .exportAllDeclaration source (some exported)
      | none => ctx.unexpected n
  | none, some source =>
    if n.hasToken "*" then return .exportAllDeclaration source none else ctx.unexpected n
  | none, none => ctx.unexpected n

/-- What an export statement exports: a declaration, a default value, or names. -/
def exportShape (n : Cst) : Outcome (Shape (Tree μ)) :=
  match n.field? "declaration", n.field? "value" with
  | some declaration, _ => do
    let declaration ← convert .statement declaration
    return if n.hasToken "default" then .exportDefaultDeclaration declaration
      else .exportNamedDeclaration (some declaration) [] none
  | none, some value => do return .exportDefaultDeclaration (← convert .expression value)
  | none, none =>
    if n.hasToken "=" then do
      return .exportDefaultDeclaration (← convert .expression (← ctx.firstNamed n))
    else exportNames ctx n

def exportDeclaration (n : Cst) : Outcome (Tree μ) := do
  ctx.reject n.decorators
  return ctx.node n (← exportShape ctx convert n)

/-- A statement, an import or an export. -/
def moduleItem (n : Cst) : Outcome (Tree μ) :=
  match n.kind with
  | .exportStatement => exportDeclaration ctx convert n
  | .importStatement => importDeclaration ctx n
  | _ => statement ctx convert n

end Estree.Convert
