import Estree.Convert.Literal

/-!
# Patterns

What is declared and what is assigned to take the same shapes but are written differently. A
declared name or pattern (`binding`) is pattern syntax alone. A target of an assignment (`target`)
may also be a member of an object, stand in parentheses or type wrappers, or be an object or array
literal that is read as a pattern.
-/

namespace Estree.Convert

variable {μ : Type} (ctx : Context μ) (convert : Converter μ)

/-! ## Keys and properties -/

/-- The name of a property. -/
def propertyKey (n : Cst) : Outcome (Tree μ) :=
  if n.kind.isIdentifier then return ctx.identifier n
  else match n.kind with
    | .computedPropertyName => do convert .expression (← ctx.firstNamed n)
    | .privatePropertyIdentifier => return ctx.privateIdentifier n
    | .string | .number => literal ctx n
    | _ => ctx.unexpected n

/-- Whether a property name is computed. -/
def isComputed (key : Cst) : Bool := key.kind == .computedPropertyName

/-- A property that is neither a method nor an accessor. -/
def plainProperty (key value : Tree μ) (shorthand computed : Bool) : Shape (Tree μ) :=
  .property key value .init false shorthand computed

/-- A property whose name is its value. -/
def shorthandProperty (n : Cst) : Shape (Tree μ) :=
  plainProperty (ctx.identifier n) (ctx.identifier n) true false

/-- A property with a name and a value of the given role. -/
def pairProperty (role : Role) (n : Cst) : Outcome (Shape (Tree μ)) := do
  let name ← ctx.field n "key"
  let key ← convert .propertyKey name
  let value ← convert role (← ctx.field n "value")
  return plainProperty key value false (isComputed name)

/-- A shorthand property with a default value. -/
def defaultedProperty (role : Role) (n : Cst) : Outcome (Shape (Tree μ)) := do
  let key ← convert role (← ctx.field n "left")
  let right ← convert .expression (← ctx.field n "right")
  return plainProperty key (ctx.node n (.assignmentPattern key right)) true false

/-! ## Parts of patterns in a role -/

/-- The elements of an array or an array pattern, with its holes. -/
def elements (role : Role) (n : Cst) : Outcome (List (Option (Tree μ))) :=
  n.slots.mapM (Outcome.onSome (convert role))

/-- A pattern with a default value. -/
def defaulted (role : Role) (n : Cst) : Outcome (Shape (Tree μ)) := do
  let left ← convert role (← ctx.field n "left")
  let right ← convert .expression (← ctx.field n "right")
  return .assignmentPattern left right

/-- The element that takes what is left over. -/
def rest (role : Role) (n : Cst) : Outcome (Shape (Tree μ)) := do
  return .restElement (← convert role (← ctx.firstNamed n))

/-! ## Declared names and patterns -/

/-- A declared name or pattern. -/
def binding (n : Cst) : Outcome (Tree μ) :=
  if n.kind.isIdentifier then return ctx.identifier n
  else ctx.node n <$> match n.kind with
    | .objectPattern => .objectPattern <$> n.named.mapM (convert .bindingMember)
    | .arrayPattern => .arrayPattern <$> elements convert .binding n
    | .assignmentPattern => defaulted ctx convert .binding n
    | .restPattern => rest ctx convert .binding n
    | _ => ctx.unexpected n

/-- A member of a declared object pattern. -/
def bindingMember (n : Cst) : Outcome (Tree μ) :=
  ctx.node n <$> match n.kind with
    | .pairPattern => pairProperty ctx convert .binding n
    | .shorthandPropertyIdentifierPattern => return shorthandProperty ctx n
    | .objectAssignmentPattern => defaultedProperty ctx convert .binding n
    | .restPattern => rest ctx convert .binding n
    | _ => ctx.unexpected n

/-! ## Targets of assignments -/

/-- A target of an assignment, given how an expression is converted. -/
def target (expression : Cst → Outcome (Tree μ)) (n : Cst) : Outcome (Tree μ) :=
  if n.kind.isIdentifier then return ctx.identifier n
  else if n.kind.isTypeWrapper then do convert .target (← ctx.firstNamed n)
  else match n.kind with
    | .memberExpression | .subscriptExpression => expression n
    | .parenthesizedExpression => do convert .target (← ctx.firstNamed n)
    | .object | .objectPattern =>
      (ctx.node n <| .objectPattern ·) <$> n.named.mapM (convert .targetMember)
    | .array | .arrayPattern => (ctx.node n <| .arrayPattern ·) <$> elements convert .target n
    | .assignmentExpression | .assignmentPattern => ctx.node n <$> defaulted ctx convert .target n
    | .spreadElement | .restPattern => ctx.node n <$> rest ctx convert .target n
    | _ => ctx.unexpected n

/-- A member of an object literal or object pattern that is assigned to. -/
def targetMember (n : Cst) : Outcome (Tree μ) :=
  ctx.node n <$> match n.kind with
    | .pair | .pairPattern => pairProperty ctx convert .target n
    | .shorthandPropertyIdentifier | .shorthandPropertyIdentifierPattern =>
      return shorthandProperty ctx n
    | .objectAssignmentPattern => defaultedProperty ctx convert .target n
    | .spreadElement | .restPattern => rest ctx convert .target n
    | _ => ctx.unexpected n

end Estree.Convert
