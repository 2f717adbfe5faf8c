import Estree.Cst.Preorder

/-!
# Damage in a tree

A cursor stands at a node of a tree and can go to its first child, to its next sibling and to the node
above it. `Cst.diagnostics` counts the error and missing nodes of a tree with it: the cursor goes
through the nodes in preorder, but not into a node without damage.
-/

namespace Estree.Cst

mutual

/-- Whether a node or one below it is damaged. -/
def hasDamage : Cst → Bool
  | node h cs => h.isError || h.isMissing || anyDamage cs

/-- Whether one of several trees has damage. -/
def anyDamage : List Cst → Bool
  | [] => false
  | c :: cs => c.hasDamage || anyDamage cs

end

/-- A place in a tree: a node, and the nodes above it from the lowest one to the root, each with those
of its children that follow on the way down. -/
structure Cursor where
  node : Cst
  above : List (Cst × List Cst) := []
  deriving Repr, Inhabited

namespace Cursor

variable {c d : Cursor}

/-- The place of the root. -/
def root (n : Cst) : Cursor := { node := n }

def firstChild? (c : Cursor) : Option Cursor :=
  match c.node.children with
  | [] => none
  | child :: siblings => some ⟨child, (c.node, siblings) :: c.above⟩

def nextSibling? (c : Cursor) : Option Cursor :=
  match c.above with
  | (parent, sibling :: siblings) :: above => some ⟨sibling, (parent, siblings) :: above⟩
  | _ => none

def parent? (c : Cursor) : Option Cursor :=
  match c.above with
  | (parent, _) :: above => some ⟨parent, above⟩
  | [] => none

theorem above_parent? (h : c.parent? = some d) : c.above.length = d.above.length + 1 := by
  obtain ⟨node, _ | ⟨⟨parent, siblings⟩, above⟩⟩ := c
  · cases h
  · cases h
    rfl

/-- The next sibling of the node, or of the lowest node above it that has one. -/
def leave? (c : Cursor) : Option Cursor :=
  match c.nextSibling? with
  | some sibling => some sibling
  | none =>
    match _h : c.parent? with
    | some parent => parent.leave?
    | none => none
termination_by c.above.length
decreasing_by
  rw [above_parent? _h]
  exact Nat.lt_succ_self _

/-- The next place to go to. A node without damage is not gone into. -/
def advance? (c : Cursor) : Option Cursor :=
  if c.node.hasDamage then c.firstChild?.or c.leave? else c.leave?

/-! ## What lies ahead -/

/-- The trees that follow the node in those above it. -/
def behind (c : Cursor) : List Cst := c.above.flatMap (·.2)

/-- The trees that are not gone through yet: that of the node, and those that follow. -/
def ahead (c : Cursor) : List Cst := c.node :: c.behind

/-- The children of the node that will be gone through. -/
def entered (c : Cursor) : List Cst := if c.node.hasDamage then c.node.children else []

theorem ahead_firstChild? (h : c.firstChild? = some d) : d.ahead = c.node.children ++ c.behind := by
  obtain ⟨⟨head, _ | ⟨child, siblings⟩⟩, above⟩ := c
  · cases h
  · cases h
    rfl

theorem children_of_firstChild?_eq_none (h : c.firstChild? = none) : c.node.children = [] := by
  obtain ⟨⟨head, _ | ⟨child, siblings⟩⟩, above⟩ := c
  · rfl
  · cases h

theorem ahead_nextSibling? (h : c.nextSibling? = some d) : d.ahead = c.behind := by
  obtain ⟨node, _ | ⟨⟨parent, _ | ⟨sibling, siblings⟩⟩, above⟩⟩ := c
  · cases h
  · cases h
  · cases h
    rfl

/-- A last sibling is followed by what its parent is followed by. -/
theorem behind_parent? (hlast : c.nextSibling? = none) (h : c.parent? = some d) :
    d.behind = c.behind := by
  obtain ⟨node, _ | ⟨⟨parent, _ | ⟨sibling, siblings⟩⟩, above⟩⟩ := c
  · cases h
  · cases h
    rfl
  · cases hlast

theorem behind_of_parent?_eq_none (h : c.parent? = none) : c.behind = [] := by
  obtain ⟨node, _ | ⟨⟨parent, siblings⟩, above⟩⟩ := c
  · rfl
  · cases h

theorem ahead_leave? (h : c.leave? = some d) : d.ahead = c.behind := by
  fun_induction leave? c with
  | case1 c sibling hnext =>
    cases h
    exact ahead_nextSibling? hnext
  | case2 c hlast parent hparent ih => exact (ih h).trans (behind_parent? hlast hparent)
  | case3 => cases h

theorem behind_of_leave?_eq_none (h : c.leave? = none) : c.behind = [] := by
  fun_induction leave? c with
  | case1 => cases h
  | case2 c hlast parent hparent ih => exact (behind_parent? hlast hparent).symm.trans (ih h)
  | case3 c hlast hparent => exact behind_of_parent?_eq_none hparent

/-- A step leaves the node behind, with its children if they are not entered. -/
theorem ahead_advance? (h : c.advance? = some d) : d.ahead = c.entered ++ c.behind := by
  rw [advance?] at h
  rw [entered]
  split at h
  case isTrue hdamage =>
    rw [if_pos hdamage]
    rcases Option.or_eq_some_iff.1 h with h | ⟨hchild, h⟩
    · exact ahead_firstChild? h
    · rw [children_of_firstChild?_eq_none hchild]
      exact ahead_leave? h
  case isFalse hdamage =>
    rw [if_neg hdamage]
    exact ahead_leave? h

/-- Where no step is possible everything is gone through. -/
theorem entered_of_advance?_eq_none (h : c.advance? = none) : c.entered ++ c.behind = [] := by
  rw [advance?] at h
  rw [entered]
  split at h
  case isTrue hdamage =>
    obtain ⟨hchild, hleave⟩ := Option.or_eq_none_iff.1 h
    rw [if_pos hdamage, children_of_firstChild?_eq_none hchild, behind_of_leave?_eq_none hleave]
    rfl
  case isFalse hdamage =>
    rw [if_neg hdamage, behind_of_leave?_eq_none h]
    rfl

theorem length_entered_le : (preorders c.entered).length ≤ (preorders c.node.children).length := by
  rw [entered]
  split
  · exact Nat.le_refl _
  · exact Nat.zero_le _

/-- After every step there are fewer nodes ahead. -/
theorem length_ahead_lt (h : c.advance? = some d) :
    (preorders d.ahead).length < (preorders c.ahead).length := by
  have hentered := length_entered_le (c := c)
  rw [ahead_advance? h, preorders_append, List.length_append, ahead, preorders, List.length_append,
    preorder_eq, List.length_cons]
  omega

/-! ## Counting -/

/-- The number of damaged nodes from a place on, on top of those that are counted already. -/
def count (c : Cursor) (counted : Nat) : Nat :=
  match _h : c.advance? with
  | some d => d.count (counted + c.node.isDamaged.toNat)
  | none => counted + c.node.isDamaged.toNat
termination_by (preorders c.ahead).length
decreasing_by exact length_ahead_lt _h

end Cursor

/-- The number of damaged nodes of a tree. -/
def diagnostics (n : Cst) : Nat := if n.hasDamage then (Cursor.root n).count 0 else 0

end Estree.Cst
