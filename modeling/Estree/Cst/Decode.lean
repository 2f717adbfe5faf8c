import Estree.Cst.Preorder
import Estree.Json.Basic

/-!
# Trees as JSON

A tree is written as an array of its nodes in preorder. A node is an array of the count of its
children, its label, its flags, its start, its end and its field, which may be `null`. The flags are
letters: `n` named, `x` extra, `e` error, `m` missing.
-/

namespace Estree.Cst

/-- A byte offset or a count. -/
def natOfJson? : Json → Option Nat
  | .number (.integer n) => n.toNat?
  | _ => none

/-- The field of a node, if it has one. -/
def fieldOfJson? : Json → Option (Option String)
  | .null => some none
  | .string field => some (some field)
  | _ => none

/-- A node with the count of its children. -/
def entryOfJson? : Json → Option (Nat × Head)
  | .array [count, .string label, .string flags, start, stop, field] => do
    let has (letter : Char) : Bool := flags.toList.contains letter
    return (← natOfJson? count,
      { label, isNamed := has 'n', isExtra := has 'x', isError := has 'e', isMissing := has 'm'
        start := ← natOfJson? start, stop := ← natOfJson? stop, field := ← fieldOfJson? field })
  | _ => none

/-- The tree that a JSON value writes. -/
def ofJson? : Json → Option Cst
  | .array entries => do ofPreorder? (← entries.mapM entryOfJson?)
  | _ => none

end Estree.Cst
