import Estree.Proofs.Cst

/-!
# Operands of comma expressions

`Convert.flatten` converts the operands of a comma expression on its way through the comma expressions
inside of it. This comes to the same as converting the list of all operands (`Convert.flatten_eq`).
-/

namespace Estree.Convert

variable {μ : Type} {f : Converter μ}

mutual

/-- The operands are converted in order, and put behind those that are done. -/
theorem flatten_eq (done : Array (Tree μ)) (n : Cst) :
    flatten f done n = (done ++ ·.toArray) <$> n.operands.mapM (f .expression) := by
  cases n with
  | node head cs =>
    rw [flatten, Cst.operands]
    exact flattenAll_eq done cs

theorem flattenAll_eq (done : Array (Tree μ)) (cs : List Cst) :
    flattenAll f done cs = (done ++ ·.toArray) <$> (Cst.operandsOf cs).mapM (f .expression) := by
  cases cs with
  | nil => simp [flattenAll, Cst.operandsOf]
  | cons c cs =>
    have hrest (done : Array (Tree μ)) := flattenAll_eq done cs
    rw [flattenAll, Cst.operandsOf]
    split
    case isTrue => exact hrest done
    case isFalse =>
      split
      -- A comma expression directly inside gives way to its own operands.
      case isTrue => simp [flatten_eq done c, hrest]
      case isFalse => simp [hrest]

end

/-- A comma expression is converted from its operands. -/
theorem sequence_eq (n : Cst) :
    sequence f n = .sequenceExpression <$> n.operands.mapM (f .expression) := by
  rw [sequence, flatten_eq]
  simp

end Estree.Convert
