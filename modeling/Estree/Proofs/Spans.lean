import Estree.Proofs.Cst
import Mathlib.Data.List.Basic
import Mathlib.Data.List.Pairwise

/-!
# Spans of syntax

Where the spans of the children lie inside that of their parent and follow each other (`Cst.Nests`),
at every node of a tree, so do the extents without extra nodes at their ends: they run forward inside
the spans (`Cst.Everywhere.extent`), and those of the parts lie inside that of the whole
(`Cst.Everywhere.firstByte_le`, `Cst.Everywhere.le_lastByte`). The gaps of a template between
backticks lie inside it as well (`Cst.Quoted.gaps_within`).
-/

namespace Estree.Cst

/-- The span of a node runs forward, and those of its children lie inside and follow each other. -/
structure Nests (n : Cst) : Prop where
  forward : n.head.start ≤ n.head.stop
  inside : ∀ c ∈ n.children, n.head.start ≤ c.head.start ∧ c.head.stop ≤ n.head.stop
  follow : n.children.Pairwise fun c d => c.head.stop ≤ d.head.start

instance : DecidablePred Nests := fun n =>
  decidable_of_iff (_ ∧ (∀ c ∈ n.children, _ ∧ _) ∧ n.children.Pairwise _)
    ⟨fun ⟨forward, inside, follow⟩ => ⟨forward, inside, follow⟩,
      fun ⟨forward, inside, follow⟩ => ⟨forward, inside, follow⟩⟩

variable {n c d : Cst}

theorem Nests.parts (h : n.Nests) : n.parts.Pairwise fun c d => c.head.stop ≤ d.head.start :=
  h.follow.sublist List.filter_sublist

/-- The first of several parts stops before the last one starts. -/
theorem Nests.stop_le_start (h : n.Nests) (htwo : 1 < n.parts.length) (hc : c ∈ n.parts.head?)
    (hd : d ∈ n.parts.getLast?) : c.head.stop ≤ d.head.start := by
  obtain ⟨rest, hparts⟩ := List.head?_eq_some_iff.1 hc
  have hpairwise := h.parts
  rw [hparts] at hpairwise hd htwo
  cases rest with
  | nil => exact absurd htwo (Nat.lt_irrefl _)
  | cons e rest =>
    rw [List.getLast?_cons_cons] at hd
    exact (List.pairwise_cons.1 hpairwise).1 d (List.mem_of_getLast? hd)

/-- Of two children one stops before the other starts. -/
theorem Nests.apart (h : n.Nests) (hc : c ∈ n.children) (hd : d ∈ n.children) (hne : c ≠ d) :
    c.head.stop ≤ d.head.start ∨ d.head.stop ≤ c.head.start := by
  let apart (c d : Cst) : Prop := c.head.stop ≤ d.head.start ∨ d.head.stop ≤ c.head.start
  have : Std.Symm apart := ⟨fun _ _ => Or.symm⟩
  have hapart : n.children.Pairwise apart := h.follow.imp Or.inl
  exact hapart.forall hc hd hne

/-! ## Extents without extra ends -/

theorem firstByteOf_eq (default : Nat) (cs : List Cst) :
    firstByteOf default cs =
      ((cs.filter (!·.head.isExtra)).head?.map firstByte).getD default := by
  induction cs with
  | nil => rfl
  | cons c cs ih => cases hx : c.head.isExtra <;> simp [firstByteOf, hx, ih]

theorem lastByteOf_eq (default : Nat) (cs : List Cst) :
    lastByteOf default cs =
      ((cs.filter (!·.head.isExtra)).getLast?.map lastByte).getD default := by
  induction cs generalizing default with
  | nil => rfl
  | cons c cs ih => cases hx : c.head.isExtra <;> simp [lastByteOf, hx, ih, List.getLast?_cons]

theorem firstByte_eq (n : Cst) : n.firstByte = (n.parts.head?.map firstByte).getD n.head.start := by
  obtain ⟨head, cs⟩ := n
  exact firstByteOf_eq head.start cs

theorem lastByte_eq (n : Cst) : n.lastByte = (n.parts.getLast?.map lastByte).getD n.head.stop := by
  obtain ⟨head, cs⟩ := n
  exact lastByteOf_eq head.stop cs

theorem firstByte_of_children (h : n.children = []) : n.firstByte = n.head.start := by
  rw [firstByte_eq, parts, h]
  rfl

/-- The extent of a node runs forward inside its span. -/
structure Extent (n : Cst) : Prop where
  start_le : n.head.start ≤ n.firstByte
  forward : n.firstByte ≤ n.lastByte
  le_stop : n.lastByte ≤ n.head.stop

/-- One extent begins and ends no later than another. -/
structure Leads (c d : Cst) : Prop where
  first : c.firstByte ≤ d.firstByte
  last : c.lastByte ≤ d.lastByte

instance : Std.Refl Leads := ⟨fun _ => ⟨Nat.le_refl _, Nat.le_refl _⟩⟩

theorem Extent.leads (hc : c.Extent) (hd : d.Extent) (h : c.head.stop ≤ d.head.start) :
    c.Leads d := by
  have hbetween : c.lastByte ≤ d.firstByte := calc
    c.lastByte ≤ c.head.stop := hc.le_stop
    _ ≤ d.head.start := h
    _ ≤ d.firstByte := hd.start_le
  exact ⟨Nat.le_trans hc.forward hbetween, Nat.le_trans hbetween hd.forward⟩

/-- The extents of the parts of a node follow each other. -/
theorem Nests.leads (h : n.Nests) (hparts : ∀ c ∈ n.parts, c.Extent) :
    n.parts.Pairwise Leads :=
  h.parts.imp_of_mem fun hc hd hcd => (hparts _ hc).leads (hparts _ hd) hcd

theorem Nests.firstByte_le (h : n.Nests) (hparts : ∀ c ∈ n.parts, c.Extent) (hc : c ∈ n.parts) :
    n.firstByte ≤ c.firstByte := by
  have hne := List.ne_nil_of_mem hc
  rw [firstByte_eq, List.head?_eq_some_head hne]
  exact ((h.leads hparts).rel_head hc).first

theorem Nests.le_lastByte (h : n.Nests) (hparts : ∀ c ∈ n.parts, c.Extent) (hc : c ∈ n.parts) :
    c.lastByte ≤ n.lastByte := by
  have hne := List.ne_nil_of_mem hc
  rw [lastByte_eq n, List.getLast?_eq_some_getLast hne]
  exact ((h.leads hparts).rel_getLast hc).last

namespace Everywhere

theorem extent (h : n.Everywhere Nests) : n.Extent := by
  induction h with
  | @mk n h _ ih =>
    have hparts : ∀ c ∈ n.parts, c.Extent := fun c hc => ih c (mem_children_of_mem_parts hc)
    by_cases hn : n.parts = []
    · have hfirst : n.firstByte = n.head.start := by rw [firstByte_eq, hn]; rfl
      have hlast : n.lastByte = n.head.stop := by rw [lastByte_eq, hn]; rfl
      have := h.forward
      exact ⟨by omega, by omega, by omega⟩
    · have hfirst : n.firstByte = (n.parts.head hn).firstByte := by
        rw [firstByte_eq, List.head?_eq_some_head hn]; rfl
      have hlast : n.lastByte = (n.parts.getLast hn).lastByte := by
        rw [lastByte_eq, List.getLast?_eq_some_getLast hn]; rfl
      have hhead := List.head_mem hn
      have hback := List.getLast_mem hn
      refine ⟨?_, ?_, ?_⟩
      · have := (h.inside _ (mem_children_of_mem_parts hhead)).1
        have := (hparts _ hhead).start_le
        omega
      · have := (hparts _ hhead).forward
        have := h.le_lastByte hparts hhead
        omega
      · have := (h.inside _ (mem_children_of_mem_parts hback)).2
        have := (hparts _ hback).le_stop
        omega

/-- The extents of the children of a node lie inside its span. -/
theorem child_within (h : n.Everywhere Nests) (hc : c ∈ n.children) :
    n.head.start ≤ c.firstByte ∧ c.lastByte ≤ n.head.stop := by
  have ⟨hstart, hstop⟩ := h.root.inside c hc
  have hextent := (h.child hc).extent
  exact ⟨Nat.le_trans hstart hextent.start_le, Nat.le_trans hextent.le_stop hstop⟩

theorem firstByte_le (h : n.Everywhere Nests) (hc : c ∈ n.parts) : n.firstByte ≤ c.firstByte :=
  h.root.firstByte_le (fun _ hd => (h.part hd).extent) hc

theorem le_lastByte (h : n.Everywhere Nests) (hc : c ∈ n.parts) : c.lastByte ≤ n.lastByte :=
  h.root.le_lastByte (fun _ hd => (h.part hd).extent) hc

theorem firstByte_le_stop (h : n.Everywhere Nests) (hc : c ∈ n.parts) :
    n.firstByte ≤ c.head.stop := calc
  n.firstByte ≤ c.firstByte := h.firstByte_le hc
  _ ≤ c.lastByte := (h.part hc).extent.forward
  _ ≤ c.head.stop := (h.part hc).extent.le_stop

theorem start_le_lastByte (h : n.Everywhere Nests) (hc : c ∈ n.parts) :
    c.head.start ≤ n.lastByte := calc
  c.head.start ≤ c.firstByte := (h.part hc).extent.start_le
  _ ≤ c.lastByte := (h.part hc).extent.forward
  _ ≤ n.lastByte := h.le_lastByte hc

/-- No named child ends after the last one. -/
theorem le_lastNamed (h : n.Everywhere Nests) (hc : c ∈ n.named) :
    c.lastByte ≤ (n.named.getLast?.map lastByte).getD n.lastByte := by
  have hleads := (h.root.leads fun _ hd => (h.part hd).extent).sublist
    (show n.named.Sublist n.parts from List.filter_sublist)
  rw [List.getLast?_eq_some_getLast (List.ne_nil_of_mem hc)]
  exact (hleads.rel_getLast hc).last

theorem lastNamed_le (h : n.Everywhere Nests) :
    n.firstByte ≤ (n.named.getLast?.map lastByte).getD n.lastByte ∧
      (n.named.getLast?.map lastByte).getD n.lastByte ≤ n.lastByte := by
  cases hlast : n.named.getLast? with
  | none => exact ⟨h.extent.forward, Nat.le_refl _⟩
  | some c =>
    have hc := mem_parts_of_mem_named (List.mem_of_getLast? hlast)
    exact ⟨Nat.le_trans (h.firstByte_le hc) (h.part hc).extent.forward, h.le_lastByte hc⟩

end Everywhere

/-! ## Gaps of a template -/

/-- A node begins and ends with a backtick of one byte. -/
structure Quoted (n : Cst) : Prop where
  opening : ∃ c ∈ n.parts.head?, c.isToken "`" ∧ c.head.start = n.head.start ∧
    c.head.stop = n.head.start + 1
  closing : ∃ c ∈ n.parts.getLast?, c.isToken "`" ∧ c.head.stop = n.head.stop ∧
    c.head.start + 1 = n.head.stop

instance : DecidablePred Quoted := fun n =>
  decidable_of_iff ((∃ c ∈ n.parts.head?, _ ∧ _) ∧ ∃ c ∈ n.parts.getLast?, _ ∧ _)
    ⟨fun ⟨opening, closing⟩ => ⟨opening, closing⟩, fun ⟨opening, closing⟩ => ⟨opening, closing⟩⟩

/-- The ends of the gaps are those of the pieces, but for the first and the last. -/
theorem forall_mem_gapsFrom {P : Nat → Prop} {start stop : Nat} {cs : List Cst} (hstart : P start)
    (hstop : ∀ x, P x → P (max stop x)) (hcs : ∀ c ∈ cs, P c.head.start ∧ P c.head.stop) :
    ∀ gap ∈ gapsFrom start stop cs, P gap.1 ∧ P gap.2 := by
  induction cs generalizing start with
  | nil => exact List.forall_mem_singleton.2 ⟨hstart, hstop start hstart⟩
  | cons c cs ih =>
    obtain ⟨hc, hcs⟩ := List.forall_mem_cons.1 hcs
    exact List.forall_mem_cons.2 ⟨⟨hstart, hc.1⟩, ih hc.2 hcs⟩

theorem le_of_mem_gapsFrom {start stop : Nat} {cs : List Cst}
    (hstart : ∀ c ∈ cs, start ≤ c.head.start)
    (hcs : cs.Pairwise fun c d => c.head.stop ≤ d.head.start) :
    ∀ gap ∈ gapsFrom start stop cs, gap.1 ≤ gap.2 := by
  induction cs generalizing start with
  | nil => exact List.forall_mem_singleton.2 (Nat.le_max_right ..)
  | cons c cs ih =>
    obtain ⟨hc, hcs⟩ := List.pairwise_cons.1 hcs
    exact List.forall_mem_cons.2 ⟨hstart c List.mem_cons_self, ih hc hcs⟩

theorem mem_parts_of_mem_substitutions (h : c ∈ n.substitutions) : c ∈ n.parts :=
  mem_parts_of_mem_named (List.mem_of_mem_filter h)

theorem ne_of_mem_substitutions {text : String} (hc : c ∈ n.substitutions) (hd : d.isToken text) :
    c ≠ d := by
  rintro rfl
  exact not_isNamed_of_isToken hd (List.mem_filter.1 (List.mem_of_mem_filter hc)).2

/-- A substitution lies between the backticks. -/
theorem Quoted.le_start (hq : n.Quoted) (hn : n.Nests) (hc : c ∈ n.substitutions) :
    n.head.start + 1 ≤ c.head.start := by
  obtain ⟨tick, htick, htoken, -, hstop⟩ := hq.opening
  obtain ⟨rest, hparts⟩ := List.head?_eq_some_iff.1 htick
  have hmem := mem_parts_of_mem_substitutions hc
  have hpairwise := hn.parts
  rw [hparts] at hmem hpairwise
  have hrest := (List.mem_cons.1 hmem).resolve_left (ne_of_mem_substitutions hc htoken)
  exact hstop ▸ (List.pairwise_cons.1 hpairwise).1 c hrest

theorem Quoted.stop_le (hq : n.Quoted) (hn : n.Nests) (hc : c ∈ n.substitutions) :
    c.head.stop ≤ n.head.stop - 1 := by
  obtain ⟨tick, htick, htoken, -, hstart⟩ := hq.closing
  obtain ⟨init, hparts⟩ := List.getLast?_eq_some_iff.1 htick
  have hmem := mem_parts_of_mem_substitutions hc
  have hpairwise := hn.parts
  rw [hparts] at hmem hpairwise
  have hinit := (List.mem_append.1 hmem).resolve_right fun h =>
    ne_of_mem_substitutions hc htoken (List.mem_singleton.1 h)
  have := (List.pairwise_append.1 hpairwise).2.2 c hinit tick (List.mem_singleton_self _)
  omega

theorem Quoted.le_of_mem_gaps (hq : n.Quoted) (hn : n.Nests) :
    ∀ gap ∈ n.gaps, gap.1 ≤ gap.2 :=
  le_of_mem_gapsFrom (fun _ => hq.le_start hn)
    (hn.parts.sublist (List.filter_sublist.trans List.filter_sublist))

theorem Quoted.start_lt (hq : n.Quoted) (hn : n.Nests) : n.head.start < n.head.stop := by
  obtain ⟨opening, hopening, -, -, hopen⟩ := hq.opening
  have := (hn.inside _ (mem_children_of_mem_parts (List.mem_of_head? hopening))).2
  omega

/-- The gaps of a template lie inside its span. -/
theorem Quoted.gaps_inside (hq : n.Quoted) (hn : n.Everywhere Nests) :
    ∀ gap ∈ n.gaps, n.head.start ≤ gap.1 ∧ gap.2 ≤ n.head.stop := by
  intro gap hgap
  have hlt := hq.start_lt hn.root
  have hends := forall_mem_gapsFrom (P := fun x => n.head.start ≤ x ∧ x ≤ n.head.stop)
    (by omega) (by omega) (fun c hc => ?_) gap hgap
  · exact ⟨hends.1.1, hends.2.2⟩
  · have hmem := mem_parts_of_mem_substitutions hc
    have := hn.root.inside c (mem_children_of_mem_parts hmem)
    have := (hn.part hmem).root.forward
    omega

/-- The extent of a node reaches to the inner end of either backtick. -/
theorem Quoted.le_lastByte (hq : n.Quoted) (hn : n.Everywhere Nests)
    (hlone : n.parts.length = 1 → n.lastByte = n.head.stop) :
    n.head.start + 1 ≤ n.lastByte ∧ n.head.stop - 1 ≤ n.lastByte := by
  obtain ⟨opening, hopening, -, -, hopen⟩ := hq.opening
  obtain ⟨closing, hclosing, -, -, hclose⟩ := hq.closing
  have hle := hn.start_le_lastByte (List.mem_of_getLast? hclosing)
  by_cases hone : n.parts.length = 1
  · have hlast := hlone hone
    have := (hn.root.inside _ (mem_children_of_mem_parts (List.mem_of_head? hopening))).2
    omega
  · have hpos := List.length_pos_of_mem (List.mem_of_head? hopening)
    have := hn.root.stop_le_start (by omega) hopening hclosing
    omega

theorem Quoted.firstByte_le (hq : n.Quoted) (hn : n.Everywhere Nests) :
    n.firstByte ≤ n.head.start + 1 := by
  obtain ⟨opening, hopening, -, -, hopen⟩ := hq.opening
  exact hopen ▸ hn.firstByte_le_stop (List.mem_of_head? hopening)

/-- The gaps of a template lie inside its extent. -/
theorem Quoted.gaps_within (hq : n.Quoted) (hn : n.Everywhere Nests)
    (hlone : n.parts.length = 1 → n.lastByte = n.head.stop) :
    ∀ gap ∈ n.gaps, n.firstByte ≤ gap.1 ∧ gap.1 ≤ gap.2 ∧ gap.2 ≤ n.lastByte := by
  intro gap hgap
  have hopen := hq.firstByte_le hn
  have hlast := hq.le_lastByte hn hlone
  have hends := forall_mem_gapsFrom (P := fun x => n.firstByte ≤ x ∧ x ≤ n.lastByte)
    (by omega) (by omega) (fun c hc => ?_) gap hgap
  · exact ⟨hends.1.1, hq.le_of_mem_gaps hn.root gap hgap, hends.2.2⟩
  · have hstart := hq.le_start hn.root hc
    have hstop := hq.stop_le hn.root hc
    have hforward := (hn.part (mem_parts_of_mem_substitutions hc)).root.forward
    omega

end Estree.Cst
