/-!
# Kinds of syntax

The kinds of node that a conversion tells apart, with the names that the grammar of the concrete
syntax has for them. Every other name is `Kind.other`.
-/

namespace Estree

/-- What a node of a concrete syntax tree is. -/
inductive Kind where
  | program | hashBangLine | comment
  | expressionStatement | statementBlock | emptyStatement | debuggerStatement | ifStatement
  | elseClause | switchStatement | switchBody | switchCase | switchDefault | forStatement
  | forInStatement | whileStatement | doStatement | tryStatement | catchClause | finallyClause
  | withStatement | breakStatement | continueStatement | returnStatement | throwStatement
  | labeledStatement
  | lexicalDeclaration | variableDeclaration | variableDeclarator | functionDeclaration
  | generatorFunctionDeclaration | classDeclaration
  | importStatement | importClause | namespaceImport | namedImports | importSpecifier
  | exportStatement | exportClause | exportSpecifier | namespaceExport
  | identifier | propertyIdentifier | shorthandPropertyIdentifier
  | shorthandPropertyIdentifierPattern | statementIdentifier | privatePropertyIdentifier
  | thisKeyword | superKeyword | undefinedName
  | number | string | regex | trueLiteral | falseLiteral | nullLiteral | templateString
  | templateSubstitution
  | array | object | pair | spreadElement | methodDefinition | computedPropertyName
  | functionExpression | generatorFunction | arrowFunction | classExpression | assignmentExpression
  | augmentedAssignmentExpression | binaryExpression | unaryExpression | updateExpression
  | sequenceExpression | ternaryExpression | callExpression | newExpression | memberExpression
  | subscriptExpression | parenthesizedExpression | yieldExpression | awaitExpression | arguments
  | optionalChain
  | objectPattern | arrayPattern | pairPattern | restPattern | assignmentPattern
  | objectAssignmentPattern
  | formalParameters | requiredParameter | optionalParameter | classBody | classHeritage
  | extendsClause
  | asExpression | satisfiesExpression | nonNullExpression | typeAssertion | other
  deriving DecidableEq, Repr, Inhabited

namespace Kind

/-- The names of the grammar. Where a kind has several, the first is its own and the others are
those of other versions of the grammar. -/
def names : List (String × Kind) :=
  [("program", .program), ("hash_bang_line", .hashBangLine), ("comment", .comment),
   ("html_comment", .comment), ("expression_statement", .expressionStatement),
   ("statement_block", .statementBlock), ("empty_statement", .emptyStatement),
   ("debugger_statement", .debuggerStatement), ("if_statement", .ifStatement),
   ("else_clause", .elseClause), ("switch_statement", .switchStatement),
   ("switch_body", .switchBody), ("switch_case", .switchCase),
   ("switch_default", .switchDefault), ("for_statement", .forStatement),
   ("for_in_statement", .forInStatement), ("while_statement", .whileStatement),
   ("do_statement", .doStatement), ("try_statement", .tryStatement),
   ("catch_clause", .catchClause), ("finally_clause", .finallyClause),
   ("with_statement", .withStatement), ("break_statement", .breakStatement),
   ("continue_statement", .continueStatement), ("return_statement", .returnStatement),
   ("throw_statement", .throwStatement), ("labeled_statement", .labeledStatement),
   ("lexical_declaration", .lexicalDeclaration), ("variable_declaration", .variableDeclaration),
   ("variable_declarator", .variableDeclarator), ("function_declaration", .functionDeclaration),
   ("generator_function_declaration", .generatorFunctionDeclaration),
   ("class_declaration", .classDeclaration), ("import_statement", .importStatement),
   ("import_clause", .importClause), ("namespace_import", .namespaceImport),
   ("named_imports", .namedImports), ("import_specifier", .importSpecifier),
   ("export_statement", .exportStatement), ("export_clause", .exportClause),
   ("export_specifier", .exportSpecifier), ("namespace_export", .namespaceExport),
   ("identifier", .identifier), ("property_identifier", .propertyIdentifier),
   ("shorthand_property_identifier", .shorthandPropertyIdentifier),
   ("shorthand_property_identifier_pattern", .shorthandPropertyIdentifierPattern),
   ("statement_identifier", .statementIdentifier),
   ("private_property_identifier", .privatePropertyIdentifier), ("this", .thisKeyword),
   ("super", .superKeyword), ("undefined", .undefinedName), ("number", .number),
   ("string", .string), ("regex", .regex), ("true", .trueLiteral), ("false", .falseLiteral),
   ("null", .nullLiteral), ("template_string", .templateString),
   ("template_substitution", .templateSubstitution), ("array", .array), ("object", .object),
   ("pair", .pair), ("spread_element", .spreadElement), ("method_definition", .methodDefinition),
   ("computed_property_name", .computedPropertyName),
   ("function_expression", .functionExpression), ("function", .functionExpression),
   ("generator_function", .generatorFunction), ("arrow_function", .arrowFunction),
   ("class", .classExpression), ("assignment_expression", .assignmentExpression),
   ("augmented_assignment_expression", .augmentedAssignmentExpression),
   ("binary_expression", .binaryExpression), ("unary_expression", .unaryExpression),
   ("update_expression", .updateExpression), ("sequence_expression", .sequenceExpression),
   ("ternary_expression", .ternaryExpression), ("call_expression", .callExpression),
   ("new_expression", .newExpression), ("member_expression", .memberExpression),
   ("subscript_expression", .subscriptExpression),
   ("parenthesized_expression", .parenthesizedExpression),
   ("yield_expression", .yieldExpression), ("await_expression", .awaitExpression),
   ("arguments", .arguments), ("optional_chain", .optionalChain),
   ("object_pattern", .objectPattern), ("array_pattern", .arrayPattern),
   ("pair_pattern", .pairPattern), ("rest_pattern", .restPattern),
   ("assignment_pattern", .assignmentPattern),
   ("object_assignment_pattern", .objectAssignmentPattern),
   ("formal_parameters", .formalParameters), ("required_parameter", .requiredParameter),
   ("optional_parameter", .optionalParameter), ("class_body", .classBody),
   ("class_heritage", .classHeritage), ("extends_clause", .extendsClause),
   ("as_expression", .asExpression), ("satisfies_expression", .satisfiesExpression),
   ("non_null_expression", .nonNullExpression), ("type_assertion", .typeAssertion)]

/-- The kind that a name stands for. -/
def ofName (name : String) : Kind := (names.lookup name).getD .other

/-- Changes `snake_case` to `PascalCase`. -/
def pascalCase (name : String) : String :=
  String.join ((name.splitOn "_").map String.capitalize)

/-- How a kind is called in a report. -/
def label (k : Kind) : String :=
  match names.find? (·.2 == k) with
  | some (name, _) => pascalCase name
  | none => "Other"

/-- Whether a node of this kind is a plain name. -/
def isIdentifier : Kind → Bool
  | identifier | propertyIdentifier | shorthandPropertyIdentifier
  | shorthandPropertyIdentifierPattern | statementIdentifier | undefinedName => true
  | _ => false

/-- Whether a node of this kind wraps an expression only to attach a type to it. -/
def isTypeWrapper : Kind → Bool
  | asExpression | satisfiesExpression | nonNullExpression | typeAssertion => true
  | _ => false

end Kind

end Estree
