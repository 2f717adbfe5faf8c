import Estree.Ast.Tree
import Estree.Text.Source

/-!
# Nodes of an ESTree

A node is a syntax tree that is labelled with its place in the text: the file, the lines and columns
where it starts and ends, and the offsets in UTF-16 units.
-/

namespace Estree

/-- Where a node stands: the file, and the positions of its start and end. -/
structure Location where
  source : String
  start : Position
  stop : Position
  deriving DecidableEq, Repr, Inhabited

/-- A pair of offsets in UTF-16 units. -/
structure Span where
  start : Nat
  stop : Nat
  deriving DecidableEq, Repr, Inhabited

/-- The place of a node in the text. -/
structure Label where
  loc : Location
  range : Span
  deriving DecidableEq, Repr, Inhabited

/-- The place between two byte offsets of a text. -/
def Label.ofBytes (source : Source) (file : String) (start stop : Nat) : Label where
  loc := ⟨file, source.position start, source.position stop⟩
  range := ⟨source.units start, source.units stop⟩

/-- A node of an ESTree. -/
abbrev Node := Tree Label

end Estree
