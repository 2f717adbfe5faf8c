import Estree.Cst.Basic

/-!
# Trees as lists

A tree is written as the list of its nodes, each before its subtrees and with the count of its
children. `Cst.ofPreorder?` reads such a list, and `Cst.ofPreorder?_preorder` says that it reads
back what `Cst.preorder` writes.
-/

namespace Estree.Cst

mutual

/-- The nodes of a tree in preorder, each with the count of its children. -/
def preorder : Cst → List (Nat × Head)
  | node h cs => (cs.length, h) :: preorders cs

/-- The nodes of several trees in preorder. -/
def preorders : List Cst → List (Nat × Head)
  | [] => []
  | c :: cs => c.preorder ++ preorders cs

end

theorem preorder_eq (n : Cst) : n.preorder = (n.children.length, n.head) :: preorders n.children := by
  obtain ⟨head, cs⟩ := n
  rfl

theorem preorders_append (cs ds : List Cst) :
    preorders (cs ++ ds) = preorders cs ++ preorders ds := by
  induction cs with
  | nil => rfl
  | cons c cs ih => rw [List.cons_append, preorders, preorders, ih, List.append_assoc]

/-- Puts a node on top of the trees that follow it. -/
def adopt (entry : Nat × Head) (trees : List Cst) : Option (List Cst) :=
  if entry.1 ≤ trees.length then
    some (node entry.2 (trees.take entry.1) :: trees.drop entry.1)
  else none

/-- The tree that a list of nodes in preorder writes. -/
def ofPreorder? (entries : List (Nat × Head)) : Option Cst :=
  match entries.foldrM adopt [] with
  | some [tree] => some tree
  | _ => none

mutual

private theorem foldrM_preorder (c : Cst) (trees : List Cst) :
    c.preorder.foldrM adopt trees = some (c :: trees) := by
  match c with
  | node h cs =>
    simp [preorder, List.foldrM_cons, foldrM_preorders cs trees, adopt]

private theorem foldrM_preorders (cs : List Cst) (trees : List Cst) :
    (preorders cs).foldrM adopt trees = some (cs ++ trees) := by
  match cs with
  | [] => simp [preorders]
  | c :: cs =>
    simp [preorders, List.foldrM_append, foldrM_preorders cs trees,
      foldrM_preorder c (cs ++ trees)]

end

theorem ofPreorder?_preorder (c : Cst) : ofPreorder? c.preorder = some c := by
  simp [ofPreorder?, foldrM_preorder]

end Estree.Cst
