import Estree.Ast.Tree
import Mathlib.Data.List.Basic

/-!
# Nodes of a syntax tree

Induction over the children of a tree (`Tree.induction`), the nodes of a tree (`Tree.IsNode`), what
holds at every node (`Tree.Everywhere`), and the laws of a change of marks.
-/

namespace Estree

namespace Shape

variable {α β γ : Type}

private theorem optionMap_eq_iff {f g : α → β} {o : Option α} :
    o.map f = o.map g ↔ ∀ a, o = some a → f a = g a := by
  cases o <;> simp

/-- A map of the children only depends on what it does with the children. -/
theorem map_congr {f g : α → β} {s : Shape α} (h : ∀ a ∈ s.children, f a = g a) :
    s.map f = s.map g := by
  cases s <;>
    simp_all [Shape.map, FunctionShape.map, ClassShape.map, children, fields,
      FunctionShape.fields, ClassShape.fields, Field.children, optionMap_eq_iff]
  all_goals
    rintro o ho a rfl
    exact h a ho

theorem map_id (s : Shape α) : s.map id = s := by
  cases s <;> simp [Shape.map, FunctionShape.map, ClassShape.map]

/-! ## Children -/

section

variable {a body : α} {as params : List α} {init test update : Option α}

@[simp] theorem children_literal {value : LiteralValue} {raw : String}
    {regex : Option RegexLiteral} : (literal value raw regex : Shape α).children = [] := by
  cases regex <;> rfl

@[simp] theorem children_classBody : (classBody as).children = as := by
  simp [children, fields, Field.children]

@[simp] theorem children_program {type : SourceType} : (program as type).children = as := by
  simp [children, fields, Field.children]

@[simp] theorem children_variableDeclaration {kind : VariableKind} :
    (variableDeclaration as kind).children = as := by
  simp [children, fields, Field.children]

@[simp] theorem children_variableDeclarator :
    (variableDeclarator a init).children = a :: init.toList := by
  simp [children, fields, Field.children]

@[simp] theorem children_functionExpression {generator isAsync expression : Bool} :
    (functionExpression ⟨none, params, body, generator, isAsync, expression⟩).children =
      params ++ [body] := by
  simp [children, fields, FunctionShape.fields, Field.children]

@[simp] theorem children_forStatement : (forStatement init test update body).children =
    init.toList ++ test.toList ++ update.toList ++ [body] := by
  simp [children, fields, Field.children]

end

end Shape

namespace Tree

variable {μ ν : Type}

/-- How many levels a tree has. -/
def height (t : Tree μ) : Nat := t.fold fun s _ => s.children.foldr max 0 + 1

private theorem le_foldr_max {a : Nat} {as : List Nat} (h : a ∈ as) : a ≤ as.foldr max 0 := by
  induction as with
  | nil => cases h
  | cons b as ih =>
    rw [List.foldr_cons]
    cases h with
    | head => exact Nat.le_max_left ..
    | tail _ h => exact Nat.le_trans (ih h) (Nat.le_max_right ..)

theorem height_mk (s : Shape (Tree μ)) (m : μ) :
    (mk s m).height = (s.map height).children.foldr max 0 + 1 := fold_mk ..

theorem height_lt_of_mem_children {c : Tree μ} {s : Shape (Tree μ)} {m : μ}
    (h : c ∈ s.children) : c.height < (mk s m).height := by
  have hc : c.height ∈ (s.map height).children := by
    rw [Shape.children_map]
    exact List.mem_map_of_mem h
  rw [height_mk]
  exact Nat.lt_succ_of_le (le_foldr_max hc)

/-- What holds of a tree if it holds of its children holds of every tree. -/
theorem induction {P : Tree μ → Prop} (h : ∀ s m, (∀ c ∈ s.children, P c) → P (mk s m))
    (t : Tree μ) : P t := by
  induction hk : t.height using Nat.strongRecOn generalizing t with
  | ind k ih =>
    obtain ⟨s, m⟩ := t
    exact h s m fun c hc => ih c.height (hk ▸ height_lt_of_mem_children hc) c rfl

/-! ## Nodes -/

/-- The nodes of a tree: the tree itself and what is below. -/
inductive IsNode : Tree μ → Tree μ → Prop
  | root {t : Tree μ} : IsNode t t
  | child {s t c : Tree μ} : IsNode s t → c ∈ s.children → IsNode c t

theorem IsNode.eq_or_below {s t : Tree μ} (h : IsNode s t) :
    s = t ∨ ∃ c ∈ t.children, IsNode s c := by
  induction h with
  | root => exact .inl rfl
  | child _ hc ih =>
    rcases ih with rfl | ⟨d, hd, hs⟩
    · exact .inr ⟨_, hc, .root⟩
    · exact .inr ⟨d, hd, .child hs hc⟩

/-- Every node of a tree has a property. -/
inductive Everywhere (P : Tree μ → Prop) : Tree μ → Prop
  | mk {t : Tree μ} : P t → (∀ c ∈ t.children, Everywhere P c) → Everywhere P t

theorem Everywhere.root {P : Tree μ → Prop} {t : Tree μ} : Everywhere P t → P t
  | mk h _ => h

theorem Everywhere.child {P : Tree μ → Prop} {t c : Tree μ} :
    Everywhere P t → c ∈ t.children → Everywhere P c
  | mk _ h, hc => h c hc

theorem Everywhere.mono {P Q : Tree μ → Prop} {t : Tree μ} (h : Everywhere P t)
    (hPQ : ∀ u, P u → Q u) : Everywhere Q t := by
  induction h with
  | mk h _ ih => exact .mk (hPQ _ h) ih

theorem Everywhere.node {P : Tree μ → Prop} {s t : Tree μ} (h : Everywhere P t)
    (hs : IsNode s t) : Everywhere P s := by
  induction hs with
  | root => exact h
  | child _ hc ih => exact (ih h).child hc

theorem Everywhere.of_isNode {P : Tree μ → Prop} {s t : Tree μ} (h : Everywhere P t)
    (hs : IsNode s t) : P s := (h.node hs).root

/-! ## Marks -/

theorem map_mk (g : μ → ν) (s : Shape (Tree μ)) (m : μ) :
    (mk s m).map g = mk (s.map (Tree.map g)) (g m) := fold_mk ..

@[simp] theorem shape_map (g : μ → ν) (t : Tree μ) : (t.map g).shape = t.shape.map (Tree.map g) := by
  obtain ⟨s, m⟩ := t
  rw [map_mk]
  rfl

@[simp] theorem mark_map (g : μ → ν) (t : Tree μ) : (t.map g).mark = g t.mark := by
  obtain ⟨s, m⟩ := t
  rw [map_mk]
  rfl

theorem children_map (g : μ → ν) (t : Tree μ) : (t.map g).children = t.children.map (Tree.map g) := by
  rw [children, shape_map, Shape.children_map]
  rfl

theorem map_id (t : Tree μ) : t.map id = t := by
  induction t using Tree.induction with
  | h s m ih =>
    have hs : s.map (Tree.map id) = s.map id := Shape.map_congr ih
    rw [map_mk, hs, Shape.map_id]
    rfl

/-- The nodes of a tree with changed marks are its nodes with changed marks. -/
theorem IsNode.of_map {g : μ → ν} {s : Tree ν} {t : Tree μ} (h : IsNode s (t.map g)) :
    ∃ r : Tree μ, IsNode r t ∧ r.map g = s := by
  generalize ht : t.map g = u at h
  induction h with
  | root => exact ⟨t, .root, ht⟩
  | child _ hc ih =>
    obtain ⟨r, hr, rfl⟩ := ih ht
    rw [children_map] at hc
    obtain ⟨d, hd, rfl⟩ := List.mem_map.1 hc
    exact ⟨d, .child hr hd, rfl⟩

theorem IsNode.map (g : μ → ν) {s t : Tree μ} (h : IsNode s t) : IsNode (s.map g) (t.map g) := by
  induction h with
  | root => exact .root
  | child _ hc ih => exact .child ih (children_map g _ ▸ List.mem_map_of_mem hc)

end Tree

end Estree
