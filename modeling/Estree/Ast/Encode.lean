import Estree.Ast.Node
import Estree.Json.Difference

/-!
# Nodes as JSON

A node is an object of its type, its fields, its location and its range, in that order. What is
absent is `null`, so that every node of a type has the same keys.
-/

namespace Estree

def Position.toJson (p : Position) : Json :=
  .object [("line", .nat p.line), ("column", .nat p.column)]

def Location.toJson (l : Location) : Json :=
  .object [("source", .string l.source), ("start", l.start.toJson), ("end", l.stop.toJson)]

def Span.toJson (s : Span) : Json := .array [.nat s.start, .nat s.stop]

namespace Node

/-- A node as JSON, given a way to write the values of literals and the children as JSON. -/
def encode (literal : LiteralValue → Json) (s : Shape Json) (label : Label) : Json :=
  .object <| ("type", .string s.typeName) ::
    s.fields.map (fun (name, x) => (name, x.toJson literal))
      ++ [("loc", label.loc.toJson), ("range", label.range.toJson)]

/-- A node as the JSON that other programs read. -/
def toJson (n : Node) : Json := n.fold (encode LiteralValue.toJson)

/-- A node as JSON that keeps the values of literals without loss. -/
def toExactJson (n : Node) : Json := n.fold (encode LiteralValue.toExactJson)

/-- Whether two nodes agree in everything, positions included. Numbers are compared as doubles, and
regular expressions by whether they compile, pattern and flags. -/
def same (a b : Node) : Bool := a.toExactJson.same b.toExactJson

/-- Whether two nodes agree as JSON apart from positions. -/
def structureEq (a b : Node) : Bool := a.toJson.sorted.structureEq b.toJson.sorted

end Node

end Estree
