import Estree.Ast.Tree
import Estree.Proofs.Spans
import Mathlib.Data.List.Forall2

/-!
# Rows

The members of a list stand in a row if each comes after the one before (`Row`). Syntax does so where
the spans of a tree are in order (`Cst.Arranged`): the parts of a node and the operands of a comma
expression are rows inside the node. What is made of a row of syntax is a row, and rows of rows are
rows.
-/

namespace Estree

/-! ## Rows between two offsets -/

/-- The members of a list stand one after the other between two offsets, where `R` tells between which
offsets a member stands. -/
inductive Row {α : Type} (R : Nat → Nat → α → Prop) : Nat → Nat → List α → Prop
  | nil {a b : Nat} : a ≤ b → Row R a b []
  | cons {a x y b : Nat} {t : α} {ts : List α} :
    a ≤ x → x ≤ y → R x y t → Row R y b ts → Row R a b (t :: ts)

namespace Row

variable {α β : Type} {R : Nat → Nat → α → Prop} {S : Nat → Nat → β → Prop} {a b x y : Nat}
  {t : α} {ts us : List α}

theorem le (h : Row R a b ts) : a ≤ b := by
  induction h with
  | nil h => exact h
  | cons hx hxy _ _ ih => exact Nat.le_trans hx (Nat.le_trans hxy ih)

theorem mono {a' b' : Nat} (h : Row R a b ts) (ha : a' ≤ a) (hb : b ≤ b') : Row R a' b' ts := by
  induction h generalizing a' with
  | nil h => exact .nil (Nat.le_trans ha (Nat.le_trans h hb))
  | cons hx hxy ht _ ih => exact .cons (Nat.le_trans ha hx) hxy ht (ih (Nat.le_refl _) hb)

theorem singleton (hxy : x ≤ y) (ht : R x y t) : Row R x y [t] :=
  .cons (Nat.le_refl x) hxy ht (.nil (Nat.le_refl y))

theorem append {c : Nat} (hts : Row R a b ts) (hus : Row R b c us) : Row R a c (ts ++ us) := by
  induction hts with
  | nil h => exact hus.mono h (Nat.le_refl _)
  | cons hx hxy ht _ ih => exact .cons hx hxy ht (ih hus)

theorem flatten {tss : List (List α)} (h : Row (Row R) a b tss) : Row R a b tss.flatten := by
  induction h with
  | nil h => exact .nil h
  | cons hx _ hts _ ih => exact (hts.mono hx (Nat.le_refl _)).append ih

theorem sublist (h : Row R a b ts) (hus : us.Sublist ts) : Row R a b us := by
  induction h generalizing us with
  | nil h =>
    rw [List.sublist_nil.1 hus]
    exact .nil h
  | cons hx hxy ht _ ih =>
    cases hus with
    | cons _ hus => exact (ih hus).mono (Nat.le_trans hx hxy) (Nat.le_refl _)
    | cons_cons _ hus => exact .cons hx hxy ht (ih hus)

/-- What is made of a row, member by member, is a row. -/
theorem forall₂ {us : List β} (h : Row R a b ts)
    (hus : List.Forall₂ (fun t u => ∀ x y, x ≤ y → R x y t → S x y u) ts us) : Row S a b us := by
  induction h generalizing us with
  | nil h =>
    cases hus
    exact .nil h
  | cons hx hxy ht _ ih =>
    cases hus with
    | cons hu hus => exact .cons hx hxy (hu _ _ hxy ht) (ih hus)

/-- A member stands where its row does. -/
theorem exists_of_mem (h : Row R a b ts) (ht : t ∈ ts) : ∃ x y, a ≤ x ∧ y ≤ b ∧ R x y t := by
  induction h with
  | nil => cases ht
  | @cons a x y b u us hx hxy hu hus ih =>
    cases ht with
    | head => exact ⟨x, y, hx, hus.le, hu⟩
    | tail _ ht =>
      obtain ⟨x', y', hx', hy', ht⟩ := ih ht
      exact ⟨x', y', Nat.le_trans (Nat.le_trans hx hxy) hx', hy', ht⟩

/-- Of two members of a row the first ends before the second begins. -/
theorem pairwise {P : α → α → Prop} (h : Row R a b ts)
    (hP : ∀ {t u x y x' y'}, R x y t → R x' y' u → y ≤ x' → P t u) : ts.Pairwise P := by
  induction h with
  | nil => exact .nil
  | cons _ _ ht hts ih =>
    refine .cons (fun u hu => ?_) ih
    obtain ⟨x', y', hx', -, hu⟩ := hts.exists_of_mem hu
    exact hP ht hu hx'

end Row

/-! ## Lists of children -/

/-- The members of two lists in turn, the first list first. -/
def weave {α : Type} : List α → List α → List α
  | t :: ts, u :: us => t :: u :: weave ts us
  | ts, [] => ts
  | [], us => us

theorem sublist_weave_left {α : Type} (ts us : List α) : ts.Sublist (weave ts us) := by
  fun_induction weave ts us with
  | case1 t ts u us ih => exact (ih.cons u).cons_cons t
  | case2 ts => exact .refl ts
  | case3 => exact List.nil_sublist _

theorem sublist_weave_right {α : Type} (ts us : List α) : us.Sublist (weave ts us) := by
  fun_induction weave ts us with
  | case1 t ts u us ih => exact (ih.cons_cons u).cons t
  | case2 ts => exact List.nil_sublist ts
  | case3 us => exact .refl us

/-- The lists in a field, without holes. -/
def Field.lists {α : Type} : Field α → List (List α)
  | list as => [as]
  | slots as => [as.filterMap id]
  | _ => []

namespace Shape

variable {α : Type}

/-- The lists of children of a node, without holes. -/
def lists (s : Shape α) : List (List α) := s.fields.flatMap (·.2.lists)

/-- The children of a node that stand in a row each: its lists, but the two of a template in turn. -/
def rows : Shape α → List (List α)
  | templateLiteral quasis expressions => [weave quasis expressions]
  | s => s.lists

/-- A template has one part of text more than it has expressions. -/
def Alternates : Shape α → Prop
  | templateLiteral quasis expressions => quasis.length = expressions.length + 1
  | _ => True

/-- Every list of a node is part of a row. -/
theorem exists_row {s : Shape α} {ts : List α} (h : ts ∈ s.lists) :
    ∃ us ∈ s.rows, ts.Sublist us := by
  cases s with
  | templateLiteral quasis expressions =>
    have h : ts = quasis ∨ ts = expressions := by simpa [lists, fields, Field.lists] using h
    rcases h with rfl | rfl
    · exact ⟨_, List.mem_singleton_self _, sublist_weave_left _ _⟩
    · exact ⟨_, List.mem_singleton_self _, sublist_weave_right _ _⟩
  | _ => exact ⟨ts, h, .refl ts⟩

end Shape

/-! ## Syntax in a row -/

namespace Cst

/-- The spans of the children of a node are in order, and a template stands between backticks. -/
structure Arranged (n : Cst) : Prop extends Nests n where
  template : n.kind = .templateString → n.Quoted

instance : DecidablePred Arranged := fun n =>
  decidable_of_iff (n.Nests ∧ (n.kind = .templateString → n.Quoted))
    ⟨fun ⟨nests, template⟩ => { nests with template }, fun h => ⟨h.toNests, h.template⟩⟩

theorem Everywhere.nested {n : Cst} (h : n.Everywhere Arranged) : n.Everywhere Nests :=
  h.mono fun _ => Arranged.toNests

/-- A piece of syntax whose spans are in order stands between two offsets. -/
structure LiesIn (a b : Nat) (n : Cst) : Prop where
  arranged : n.Everywhere Arranged
  start : a ≤ n.head.start
  stop : n.head.stop ≤ b

/-- The members of a list stand in a row inside the span of a node, if the spans in it are in order. -/
def Rows {α : Type} (n : Cst) (R : Nat → Nat → α → Prop) (ts : List α) : Prop :=
  n.Everywhere Arranged → Row R n.head.start n.head.stop ts

variable {α : Type} {R : Nat → Nat → α → Prop} {n c : Cst} {ts us : List α}

theorem row_of_follow {a b : Nat} {cs : List Cst} (hab : a ≤ b)
    (hcs : ∀ c ∈ cs, c.LiesIn a b) (hfollow : cs.Pairwise fun c d => c.head.stop ≤ d.head.start) :
    Row LiesIn a b cs := by
  induction cs generalizing a with
  | nil => exact .nil hab
  | cons c cs ih =>
    obtain ⟨hc, hcs⟩ := List.forall_mem_cons.1 hcs
    obtain ⟨hfirst, hfollow⟩ := List.pairwise_cons.1 hfollow
    have hself : c.LiesIn c.head.start c.head.stop := ⟨hc.arranged, Nat.le_refl _, Nat.le_refl _⟩
    refine .cons hc.start hc.arranged.root.forward hself (ih hc.stop ?_ hfollow)
    exact fun d hd => ⟨(hcs d hd).arranged, hfirst d hd, (hcs d hd).stop⟩

namespace Rows

theorem child (h : c.Rows R ts) (hc : c ∈ n.children) : n.Rows R ts := fun hn =>
  have ⟨hstart, hstop⟩ := hn.root.inside c hc
  (h (hn.child hc)).mono hstart hstop

theorem sublist (h : n.Rows R ts) (hus : us.Sublist ts) : n.Rows R us := fun hn =>
  (h hn).sublist hus

theorem nil : n.Rows R [] := fun hn => .nil hn.root.forward

theorem singleton {t : α} (h : n.Everywhere Arranged → R n.head.start n.head.stop t) :
    n.Rows R [t] := fun hn => .singleton hn.root.forward (h hn)

theorem parts : n.Rows LiesIn n.parts := by
  intro hn
  refine row_of_follow hn.root.forward (fun c hc => ?_) hn.root.parts
  have ⟨hstart, hstop⟩ := hn.root.inside c (mem_children_of_mem_parts hc)
  exact ⟨hn.part hc, hstart, hstop⟩

theorem named : n.Rows LiesIn n.named := parts.sublist List.filter_sublist

/-- Lists that stand in a row each, one for every member of a row, form a row. -/
theorem flatten {cs : List Cst} {tss : List (List α)} (hcs : n.Rows LiesIn cs)
    (htss : List.Forall₂ (fun c ts => c.Rows R ts) cs tss) : n.Rows R tss.flatten := fun hn =>
  .flatten ((hcs hn).forall₂ (htss.imp fun _ _ hts _ _ _ hc =>
    (hts hc.arranged).mono hc.start hc.stop))

/-- What is made of each member of a row, inside its span, is a row. -/
theorem forall₂ {cs : List Cst} (hcs : n.Rows LiesIn cs)
    (hts : List.Forall₂ (fun c t => ∀ a b, c.LiesIn a b → R a b t) cs ts) : n.Rows R ts := fun hn =>
  (hcs hn).forall₂ (hts.imp fun _ _ ht a b _ hc => ht a b hc)

/-- The operands of a comma expression stand in a row inside it. -/
theorem operands : n.Rows LiesIn n.operands := by
  induction hk : n.height using Nat.strongRecOn generalizing n with
  | ind k ih =>
    rw [operands_eq, List.flatMap_def]
    refine named.flatten (List.forall₂_map_right_iff.2 (List.forall₂_same.2 fun c hc => ?_))
    split
    · exact ih c.height (hk ▸ height_lt_of_mem_named hc) rfl
    · exact .singleton fun hn => ⟨hn, Nat.le_refl _, Nat.le_refl _⟩

end Rows

/-- The slots of an array hold the named children. -/
theorem filterMap_slotsOf (empty : Bool) (cs : List Cst) :
    (slotsOf empty cs).filterMap id = cs.filter (·.head.isNamed) := by
  induction cs generalizing empty with
  | nil => rfl
  | cons c cs ih =>
    rw [slotsOf, List.filter_cons]
    cases c.head.isNamed with
    | true => exact congrArg (c :: ·) (ih false)
    | false =>
      cases c.isToken "," with
      | true => cases empty <;> exact ih true
      | false => exact ih empty

/-! ## Templates -/

theorem length_gapsFrom (start stop : Nat) (cs : List Cst) :
    (gapsFrom start stop cs).length = cs.length + 1 := by
  induction cs generalizing start with
  | nil => rfl
  | cons c cs ih => exact congrArg (· + 1) (ih c.head.stop)

/-- What is made of the substitutions of a template and of the gaps around them, in turn, is a row. -/
theorem row_weave {a b start stop : Nat} {cs : List Cst} {qs es : List α} (hcs : Row LiesIn a b cs)
    (hfirst : a ≤ start) (hstart : start ≤ b) (hstop : stop ≤ b)
    (hqs : List.Forall₂ (fun gap q => ∀ x y, x ≤ gap.1 → gap.2 ≤ y → R x y q)
      (gapsFrom start stop cs) qs)
    (hes : List.Forall₂ (fun c e => ∀ x y, c.LiesIn x y → R x y e) cs es) :
    Row R a b (weave qs es) := by
  induction cs generalizing a start qs es with
  | nil =>
    obtain _ | ⟨hq, _ | _⟩ := hqs
    cases hes
    exact .singleton (Nat.le_trans hfirst hstart) (hq a b hfirst (Nat.max_le.2 ⟨hstop, hstart⟩))
  | cons c cs ih =>
    obtain _ | ⟨hq, hqs⟩ := hqs
    obtain _ | ⟨he, hes⟩ := hes
    obtain _ | ⟨hx, hxy, hc, hcs⟩ := hcs
    have hrest := ih (hcs.mono hc.stop (Nat.le_refl b)) (Nat.le_refl _)
      (Nat.le_trans hc.stop hcs.le) hqs hes
    have hself : c.LiesIn c.head.start c.head.stop := ⟨hc.arranged, Nat.le_refl _, Nat.le_refl _⟩
    exact .cons (Nat.le_refl a) (Nat.le_trans hx hc.start) (hq _ _ hfirst (Nat.le_refl _))
      (.cons (Nat.le_refl _) hc.arranged.root.forward (he _ _ hself) hrest)

end Cst

end Estree
