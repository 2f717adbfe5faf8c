import Estree.Cst.Diagnostics
import Estree.Proofs.Cst
import Mathlib.Data.List.Basic
import Mathlib.Logic.Function.Iterate

/-!
# Counting damaged nodes

The walk that counts the damaged nodes of a tree leaves out what is below a node without damage. It
misses nothing: what is counted together with the damaged nodes in the trees ahead stays the same at
every step (`Cst.Cursor.count_eq`). After every step fewer nodes are ahead, so the walk comes to an end
(`Cst.Cursor.iterate_advance?`).
-/

namespace Estree.Cst

variable {n : Cst} {cs : List Cst} {entry : Nat × Head}

/-! ## Damage -/

theorem anyDamage_eq (cs : List Cst) : anyDamage cs = cs.any hasDamage := by
  induction cs with
  | nil => rfl
  | cons c cs ih => rw [anyDamage, ih, List.any_cons]

theorem hasDamage_eq (n : Cst) : n.hasDamage = (n.isDamaged || n.children.any hasDamage) := by
  obtain ⟨head, cs⟩ := n
  rw [hasDamage, anyDamage_eq]
  rfl

/-- A node has damage if it or a node below it is damaged. -/
theorem hasDamage_iff : n.hasDamage ↔ ∃ d : Cst, d.IsNode n ∧ d.isDamaged := by
  constructor
  · intro h
    induction hk : n.height using Nat.strongRecOn generalizing n with
    | ind k ih =>
      rw [hasDamage_eq, Bool.or_eq_true_iff] at h
      rcases h with hself | hbelow
      · exact ⟨n, .root, hself⟩
      · obtain ⟨c, hc, hdamage⟩ := List.any_eq_true.1 hbelow
        obtain ⟨d, hd, hdamaged⟩ := ih c.height (hk ▸ height_lt_of_mem_children hc) hdamage rfl
        exact ⟨d, hd.of_child hc, hdamaged⟩
  · rintro ⟨d, hd, hdamaged⟩
    have hdamage : d.hasDamage := by rw [hasDamage_eq, hdamaged, Bool.true_or]
    clear hdamaged
    induction hd with
    | root => exact hdamage
    | @child c d n _ hd ih =>
      apply ih
      rw [hasDamage_eq, Bool.or_eq_true_iff]
      exact .inr (List.any_eq_true.2 ⟨d, hd, hdamage⟩)

/-! ## Damaged nodes in a preorder -/

/-- Whether an entry of a preorder is that of a damaged node. -/
def isDamagedEntry (entry : Nat × Head) : Bool := entry.2.isError || entry.2.isMissing

theorem mem_preorders : entry ∈ preorders cs ↔ ∃ c ∈ cs, entry ∈ c.preorder := by
  induction cs with
  | nil => exact iff_of_false List.not_mem_nil nofun
  | cons c cs ih => rw [preorders, List.mem_append, ih, List.exists_mem_cons_iff]

/-- The entries of a preorder are those of the nodes of the tree. -/
theorem exists_isNode_of_mem_preorder (h : entry ∈ n.preorder) :
    ∃ d : Cst, d.IsNode n ∧ entry = (d.children.length, d.head) := by
  induction hk : n.height using Nat.strongRecOn generalizing n with
  | ind k ih =>
    rw [preorder_eq] at h
    rcases List.mem_cons.1 h with hself | hbelow
    · exact ⟨n, .root, hself⟩
    · obtain ⟨c, hc, hentry⟩ := mem_preorders.1 hbelow
      obtain ⟨d, hd, hentry⟩ := ih c.height (hk ▸ height_lt_of_mem_children hc) hentry rfl
      exact ⟨d, hd.of_child hc, hentry⟩

theorem countP_preorder (n : Cst) : n.preorder.countP isDamagedEntry
    = (preorders n.children).countP isDamagedEntry + n.isDamaged.toNat := by
  rw [preorder_eq, List.countP_cons, isDamaged, isDamagedEntry]
  cases n.head.isError || n.head.isMissing <;> rfl

/-- In a tree without damage there is nothing to count. -/
theorem countP_preorder_of_not_hasDamage (h : ¬n.hasDamage) :
    n.preorder.countP isDamagedEntry = 0 := by
  rw [List.countP_eq_zero]
  intro entry hentry hdamaged
  obtain ⟨d, hd, rfl⟩ := exists_isNode_of_mem_preorder hentry
  exact h (hasDamage_iff.2 ⟨d, hd, hdamaged⟩)

/-! ## The walk -/

namespace Cursor

variable {c d : Cursor}

/-- Leaving out the children of a node without damage leaves out no damaged node. -/
theorem countP_entered (c : Cursor) : (preorders c.entered).countP isDamagedEntry
    = (preorders c.node.children).countP isDamagedEntry := by
  rw [entered]
  split
  case isTrue => rfl
  case isFalse h =>
    have hnode := countP_preorder_of_not_hasDamage h
    rw [countP_preorder] at hnode
    exact (Nat.eq_zero_of_add_eq_zero_right hnode).symm

/-- The damaged nodes ahead are the node, if it is damaged, and those ahead after the step. -/
theorem countP_ahead (c : Cursor) : (preorders c.ahead).countP isDamagedEntry
    = (preorders (c.entered ++ c.behind)).countP isDamagedEntry + c.node.isDamaged.toNat := by
  rw [ahead, preorders, preorders_append, List.countP_append, List.countP_append, countP_preorder,
    countP_entered]
  exact Nat.add_right_comm ..

/-- The walk counts the damaged nodes in the trees ahead. -/
theorem count_eq (c : Cursor) (counted : Nat) :
    c.count counted = counted + (preorders c.ahead).countP isDamagedEntry := by
  fun_induction count c counted with
  | case1 c counted d hstep ih =>
    rw [ih, ahead_advance? hstep, countP_ahead, Nat.add_assoc, Nat.add_comm c.node.isDamaged.toNat]
  | case2 c counted hstep =>
    rw [countP_ahead, entered_of_advance?_eq_none hstep, preorders, List.countP_nil, Nat.zero_add]

/-- The walk takes no more steps than there are nodes ahead. -/
theorem iterate_advance? {k : Nat} (h : (preorders c.ahead).length ≤ k) :
    (·.bind advance?)^[k] (some c) = none := by
  have hnone (k : Nat) : (·.bind advance?)^[k] none = none := Function.iterate_fixed rfl k
  induction k generalizing c with
  | zero =>
    rw [ahead, preorders, preorder_eq] at h
    cases h
  | succ k ih =>
    rw [Function.iterate_succ_apply, Option.bind_some]
    cases hstep : c.advance? with
    | none => exact hnone k
    | some d =>
      have hlt := length_ahead_lt hstep
      exact ih (by omega)

end Cursor

/-- **Damaged nodes are counted exactly.** The walk through a tree comes to its end after no more steps
than there are nodes, and the count is that of the error and missing nodes of the whole tree. So
nothing is lost by not going into a node without damage, which is one that is neither damaged nor above
a damaged node. -/
theorem diagnostics_eq_countP (n : Cst) :
    (∀ c : Cst, c.hasDamage ↔ ∃ d : Cst, d.IsNode c ∧ d.isDamaged) ∧
      (·.bind Cursor.advance?)^[n.preorder.length] (some (.root n)) = none ∧
      n.diagnostics = n.preorder.countP fun entry => entry.2.isError || entry.2.isMissing := by
  have hahead : preorders (Cursor.root n).ahead = n.preorder := List.append_nil _
  refine ⟨fun c => hasDamage_iff, ?_, ?_⟩
  · exact Cursor.iterate_advance? (hahead ▸ Nat.le_refl _)
  · rw [diagnostics]
    split
    case isTrue =>
      rw [Cursor.count_eq, hahead, Nat.zero_add]
      rfl
    case isFalse h => exact (countP_preorder_of_not_hasDamage h).symm

end Estree.Cst
