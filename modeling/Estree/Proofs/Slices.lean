import Estree.Proofs.Built.Statement
import Estree.Proofs.Source
import Estree.Proofs.Spans
import Estree.Proofs.Trace

/-!
# Ranges are those of the texts

The range of a name, of a literal or of a part of a template covers the text that the node has for its
own (`Program.convert_slices`). A text is taken from the span of a piece of syntax and the range from
its extent without extra ends, so the two must be the same for the pieces whose text is read
(`Program.read`). The key of a constructor that is written as a string is the one name that the text
does not have.
-/

namespace Estree

/-! ## Texts of nodes -/

namespace Shape

variable {α β : Type}

/-- The UTF-16 units in the range of a node write its name or its raw text. -/
def Spells (s : Shape α) (units : List Nat) : Prop :=
  match s with
  | .identifier name => units = utf16 name.toList
  | .privateIdentifier name => units.head? = some '#'.toNat → units = utf16 ('#' :: name.toList)
  | .literal _ raw _ => units = utf16 raw.toList
  | .templateElement value _ => units = utf16 value.raw.toList
  | _ => True

/-- Whether the text of the syntax of a node becomes its name or its raw text. -/
def takes (s : Shape α) (text : String) : Bool :=
  match s with
  | .identifier name => name == text
  | .privateIdentifier name => name == text || "#" ++ name == text
  | .literal _ raw _ => raw == text
  | _ => false

theorem spells_map {f : α → β} {s : Shape α} {units : List Nat} :
    (s.map f).Spells units ↔ s.Spells units := by
  cases s <;> exact Iff.rfl

theorem takes_map (f : α → β) (s : Shape α) (text : String) : (s.map f).takes text = s.takes text := by
  cases s <;> rfl

theorem spells_of_text? {s : Shape α} (h : s.text? = none) (units : List Nat) : s.Spells units := by
  cases s <;> trivial

end Shape

variable {μ : Type}

/-- `c` is the key of `p`, a constructor whose name is written as a string. -/
structure Context.StringKey (ctx : Context μ) (tree : Cst) (p c : Tree μ) : Prop where
  key : ∃ value isStatic, p.shape = .methodDefinition c value .constructor false isStatic
  name : ∃ name : Cst, name.IsNode tree ∧ name.kind = .string ∧
    ctx.text name ∈ ["'constructor'", "\"constructor\""] ∧
    c = ctx.node name (.identifier "constructor")

/-- How a node comes by its text, if it has one: it is that of a piece of syntax in a tree. -/
inductive Told (ctx : Context μ) (tree : Cst) : Tree μ → Prop
  | none {s : Shape (Tree μ)} {m : μ} : s.text? = none → Told ctx tree (.mk s m)
  | identifier {n : Cst} : n.IsNode tree → Told ctx tree (ctx.identifier n)
  | privateIdentifier {n : Cst} : n.IsNode tree → Told ctx tree (ctx.privateIdentifier n)
  | literal {n : Cst} {value : LiteralValue} {regex : Option RegexLiteral} : n.IsNode tree →
    Told ctx tree (Convert.literalNode ctx n value regex)
  | templateElement {n : Cst} {extent : Nat × Nat} {tail : Bool} : n.IsNode tree →
    n.kind = .templateString → extent ∈ n.gaps →
    Told ctx tree (Convert.templateElement ctx n tail extent)

/-- Every node of a result comes by its text from a tree, or is the key of a constructor. -/
structure Accounted (ctx : Context μ) (tree : Cst) (t : Tree μ) : Prop where
  root : Told ctx tree t
  below : t.Everywhere fun p => ∀ c ∈ p.children, Told ctx tree c ∨ ctx.StringKey tree p c

namespace Accounted

variable {ctx : Context μ} {tree : Cst} {s : Shape (Tree μ)} {m : μ} {t u : Tree μ}

theorem leaf (h : Told ctx tree t) (ht : t.children = []) : Accounted ctx tree t :=
  ⟨h, .mk (ht ▸ nofun) (ht ▸ nofun)⟩

theorem node (hs : s.text? = none) (hc : ∀ c ∈ s.children, Accounted ctx tree c) :
    Accounted ctx tree (.mk s m) :=
  ⟨.none hs, .mk (fun c h => .inl (hc c h).root) fun c h => (hc c h).below⟩

theorem of_isNode (h : Accounted ctx tree t) (hu : Tree.IsNode u t) :
    Told ctx tree u ∨ ∃ p, Tree.IsNode p t ∧ ctx.StringKey tree p u := by
  cases hu with
  | root => exact .inl h.root
  | child hp hu => exact (h.below.of_isNode hp u hu).imp_right fun hkey => ⟨_, hp, hkey⟩

end Accounted

/-- What is built from a tree comes by its texts from the tree. -/
theorem Built.accounted {ctx : Context μ} {cat : Category} {n tree : Cst} {t : Tree μ}
    (h : Built ctx cat n t) (hn : n.Everywhere (·.IsNode tree)) : Accounted ctx tree t := by
  induction h with
  | node htext _ hparts _ ih =>
    refine .node htext fun c hc => ?_
    rw [← Category.parts?_children hparts] at hc
    obtain ⟨p, hp, rfl⟩ := List.mem_map.1 hc
    exact ih p hp hn
  | within hc _ ih => exact ih (hn.sees hc)
  | widen _ _ ih => exact ih hn
  | identifier => exact .leaf (.identifier hn.root) rfl
  | trusted hc => exact .leaf (.identifier (hn.sees hc.sees).root) rfl
  | privateIdentifier => exact .leaf (.privateIdentifier hn.root) rfl
  | literal => exact .leaf (.literal hn.root) Shape.children_literal
  | templateElement hk hgap => exact .leaf (.templateElement hn.root hk hgap) rfl
  | defaultParameter _ hpattern hvalue _ _ ihleft ihright =>
    have hleft := ihleft (hn.field? hpattern)
    have hright := ihright (hn.field? hvalue)
    exact .node rfl (List.forall_mem_cons.2 ⟨hleft, List.forall_mem_singleton.2 hright⟩)
  | @methodFunction n list body params block _ _ _ hlist hbody _ _ _ ihparams ihblock =>
    refine .node rfl fun c hc => ?_
    have hc : c ∈ params ∨ c = block := by simpa using hc
    rcases hc with hc | rfl
    · exact ihparams c hc (hn.field? hlist)
    · exact ihblock (hn.field? hbody)
  | constructor hname hk htext _ ih =>
    have hkey := (hn.field? hname).root
    have hvalue := ih hn
    refine ⟨.none rfl, .mk ?_ ?_⟩
    · refine List.forall_mem_cons.2 ⟨.inr ⟨⟨_, _, rfl⟩, _, hkey, hk, htext, rfl⟩, ?_⟩
      exact List.forall_mem_singleton.2 (.inl hvalue.root)
    · exact List.forall_mem_cons.2 ⟨.mk nofun nofun, List.forall_mem_singleton.2 hvalue.below⟩
  | @classBody n origin members _ _ horigin _ ih =>
    refine .node rfl fun c hc => ?_
    have hc : c ∈ members := by simpa using hc
    exact ih c hc (hn.named (horigin c hc))
  | @variableList n origin declarations _ _ horigin _ ih =>
    refine .node rfl fun c hc => ?_
    have hc : c ∈ declarations := by simpa using hc
    exact ih c hc (hn.named (horigin c hc))
  | @loopVariable n keyword name value id init _ _ _ hname hvalue _ hsome _ ihid ihinit =>
    refine .node rfl (List.forall_mem_singleton.2 (.node rfl fun c hc => ?_))
    have hc : c = id ∨ init = some c := by simpa using hc
    rcases hc with rfl | hc
    · exact ihid (hn.field? hname)
    · obtain ⟨d, rfl⟩ := hsome c hc
      exact ihinit c hc (hn.field? hvalue)
  | @forLoop n init test update body condition _ _ hcondition _ _ _ ihinit ihtest ihupdate ihbody =>
    refine .node rfl fun c hc => ?_
    have hc : init = some c ∨ test = some c ∨ update = some c ∨ c = body := by
      simpa [or_assoc] using hc
    rcases hc with hc | hc | hc | rfl
    · exact ihinit c hc hn
    · exact ihtest c hc (hn.field? (hcondition c hc))
    · exact ihupdate c hc hn
    · exact ihbody hn

theorem Convert.program_accounted {ctx : Context μ} {tree : Cst} {t : Tree μ}
    (h : (program ctx tree).result = .ok t) : Accounted ctx tree t := by
  obtain ⟨body, rfl, hbody⟩ := program_built h
  refine .node rfl fun u hu => ?_
  have hu : u ∈ body := by simpa using hu
  exact (hbody u hu).accounted Cst.IsNode.root.everywhere

theorem Context.StringKey.map {ctx : Context μ} {tree : Cst} {p c : Tree Origin}
    (h : ctx.traced.StringKey tree p c) :
    ctx.StringKey tree (p.map ctx.markOf) (c.map ctx.markOf) := by
  obtain ⟨⟨value, isStatic, hshape⟩, name, hname, hk, htext, rfl⟩ := h
  refine ⟨⟨value.map ctx.markOf, isStatic, ?_⟩, name, hname, hk, htext, Tree.map_mk ..⟩
  rw [Tree.shape_map, hshape]
  rfl

/-! ## Syntax over a text -/

namespace Cst

/-- The span of a node lies on character boundaries of a text, the spans of its children are in order,
and a template stands between backticks. -/
structure OnText (source : Source) (n : Cst) : Prop extends Nests n where
  start : source.isBoundary n.head.start
  stop : source.isBoundary n.head.stop
  template : n.kind = .templateString → n.Quoted

instance (source : Source) : DecidablePred (OnText source) := fun n =>
  decidable_of_iff (n.Nests ∧ source.isBoundary n.head.start ∧ source.isBoundary n.head.stop ∧
      (_ → n.Quoted))
    ⟨fun ⟨nests, start, stop, template⟩ => { nests with start, stop, template },
      fun h => ⟨h.toNests, h.start, h.stop, h.template⟩⟩

/-- A node begins and ends with tokens that are not extra. -/
structure Flush (n : Cst) : Prop where
  first : n.firstByte = n.head.start
  last : n.lastByte = n.head.stop

instance : DecidablePred Flush := fun n =>
  decidable_of_iff (n.firstByte = n.head.start ∧ n.lastByte = n.head.stop)
    ⟨fun ⟨first, last⟩ => ⟨first, last⟩, fun ⟨first, last⟩ => ⟨first, last⟩⟩

variable {source : Source} {n : Cst}

/-- The range of a node that begins and ends with tokens is that of its text. -/
theorem OnText.slice_eq (h : n.OnText source) (hn : n.Flush) :
    source.utf16Slice (source.units n.firstByte) (source.units n.lastByte) =
      utf16 (source.slice n.head.start n.head.stop) := by
  rw [hn.first, hn.last]
  exact source.utf16Slice_eq h.start h.stop h.forward

/-- The gaps of a template lie on character boundaries. -/
theorem isBoundary_gaps (h : n.Everywhere (OnText source)) (hq : n.Quoted) :
    ∀ gap ∈ n.gaps, source.isBoundary gap.1 ∧ source.isBoundary gap.2 := by
  obtain ⟨opening, hopening, -, -, hopen⟩ := hq.opening
  obtain ⟨closing, hclosing, -, -, hclose⟩ := hq.closing
  have hafter := (h.part (List.mem_of_head? hopening)).root.stop
  have hbefore := (h.part (List.mem_of_getLast? hclosing)).root.start
  have hstop : n.head.stop - 1 = closing.head.start := by omega
  refine forall_mem_gapsFrom (P := fun x => source.isBoundary x) (hopen ▸ hafter) (fun x hx => ?_)
    fun c hc => ?_
  · rcases Nat.le_total (n.head.stop - 1) x with hle | hle
    · rwa [Nat.max_eq_right hle]
    · rwa [Nat.max_eq_left hle, hstop]
  · have hmem := h.part (mem_parts_of_mem_substitutions hc)
    exact ⟨hmem.root.start, hmem.root.stop⟩

end Cst

/-! ## Ranges -/

/-- A text that begins with a number sign in UTF-16 begins with one. -/
theorem exists_of_head?_utf16 {cs : List Char} (h : (utf16 cs).head? = some '#'.toNat) :
    ∃ rest, cs = '#' :: rest := by
  cases cs with
  | nil => cases h
  | cons c rest =>
    have hc : c.toNat = '#'.toNat := by
      rw [utf16, List.flatMap_cons, utf16Encode] at h
      split at h
      · exact Option.some.inj h
      · have h := Option.some.inj h
        have : '#'.toNat = 35 := rfl
        omega
    exact ⟨rest, by rw [Char.toNat_inj.1 hc]⟩

/-- The UTF-16 units between the ends of a node. -/
def Origin.units (source : Source) (o : Origin) : List Nat :=
  source.utf16Slice (source.units o.start) (source.units o.stop)

/-- What comes by its text from a tree over a text has it in its range, if the text is that of a piece
that begins and ends with tokens. -/
theorem Told.spells {ctx : Context μ} {tree : Cst} {u : Tree Origin}
    (h : Told ctx.traced tree u) (htree : tree.Everywhere (Cst.OnText ctx.source))
    (hflush : u.shape.takes (ctx.text u.mark.piece) → u.mark.piece.Flush) :
    u.shape.Spells (u.mark.units ctx.source) := by
  cases h with
  | none hs => exact Shape.spells_of_text? hs _
  | @identifier n hn =>
    have hslice := (htree.of_isNode hn).root.slice_eq (hflush (beq_self_eq_true _))
    exact hslice.trans (congrArg utf16 String.toList_ofList.symm)
  | @literal n value regex hn =>
    have hslice := (htree.of_isNode hn).root.slice_eq (hflush (beq_self_eq_true _))
    exact hslice.trans (congrArg utf16 String.toList_ofList.symm)
  | @privateIdentifier n hn =>
    have hnode := (htree.of_isNode hn).root
    have hchars : ctx.source.slice n.head.start n.head.stop = (ctx.traced.text n).toList :=
      String.toList_ofList.symm
    rcases ctx.traced.privateIdentifier_cases n with ⟨rest, htext, heq⟩ | ⟨htext, heq⟩
    · rw [heq] at hflush ⊢
      have htakes : "#" ++ String.ofList rest = ctx.traced.text n :=
        String.toList_inj.1 (by simp [htext])
      have hslice := hnode.slice_eq (hflush (Bool.or_eq_true_iff.2 (.inr (beq_iff_eq.2 htakes))))
      rw [hchars, htext] at hslice
      exact fun _ => hslice.trans (by rw [String.toList_ofList])
    · rw [heq] at hflush ⊢
      have hslice := hnode.slice_eq (hflush (Bool.or_eq_true_iff.2 (.inl (beq_self_eq_true _))))
      rw [hchars] at hslice
      intro hhead
      have hhead : (utf16 (ctx.traced.text n).toList).head? = some '#'.toNat := hslice ▸ hhead
      obtain ⟨rest, hrest⟩ := exists_of_head?_utf16 hhead
      exact absurd hrest (htext rest)
  | @templateElement n extent tail hn hk hgap =>
    have hnode := htree.of_isNode hn
    have hq := hnode.root.template hk
    obtain ⟨hstart, hstop⟩ := Cst.isBoundary_gaps hnode hq _ hgap
    have hslice := ctx.source.utf16Slice_eq hstart hstop (hq.le_of_mem_gaps hnode.root.toNests _ hgap)
    exact hslice.trans (congrArg utf16 String.toList_ofList.symm)

/-! ## Conversions -/

/-- The syntax whose text the nodes of a traced result have as a name or a raw text. -/
def Context.read (ctx : Context μ) : Tree Origin → List Cst :=
  Tree.fold fun s o =>
    (if s.takes (ctx.text o.piece) then [o.piece] else []) ++ s.children.flatten

theorem Context.read_mk (ctx : Context μ) (s : Shape (Tree Origin)) (o : Origin) :
    ctx.read (.mk s o) = (if s.takes (ctx.text o.piece) then [o.piece] else []) ++
      s.children.flatMap ctx.read := by
  rw [read, Tree.fold_mk, Shape.takes_map, Shape.children_map]
  rfl

theorem Context.read_subset {ctx : Context μ} {t u : Tree Origin} (h : Tree.IsNode u t) :
    ctx.read u ⊆ ctx.read t := by
  induction h with
  | root => exact List.Subset.refl _
  | @child s t c _ hc ih =>
    obtain ⟨shape, o⟩ := s
    refine fun d hd => ih ?_
    rw [read_mk]
    exact List.mem_append_right _ (List.mem_flatMap.2 ⟨c, hc, hd⟩)

theorem Context.mem_read {ctx : Context μ} {t u : Tree Origin} (h : Tree.IsNode u t)
    (hu : u.shape.takes (ctx.text u.mark.piece)) : u.mark.piece ∈ ctx.read t := by
  refine read_subset h ?_
  obtain ⟨s, o⟩ := u
  rw [read_mk]
  have hu : s.takes (ctx.text o.piece) := hu
  rw [if_pos hu]
  exact List.mem_cons_self

namespace Program

/-- The syntax whose text becomes a name or a raw text in the conversion of a tree. -/
def read (tree : Cst) (source : Source) (options : Options) : List Cst :=
  let ctx := context source options
  match (Convert.program ctx.traced tree).result with
  | .ok t => ctx.read t
  | .error _ => []

/-- Every name, literal and part of a template has the range of its text, but for the keys of
constructors that are written as strings. -/
theorem convert_slices {tree : Cst} {source : Source} {options : Options} {node : Node}
    (htree : tree.Everywhere (Cst.OnText source)) (hread : ∀ c ∈ read tree source options, c.Flush)
    (h : (convert tree source options).result = .ok node) :
    ∀ c, Tree.IsNode c node →
      c.shape.Spells (source.utf16Slice c.mark.range.start c.mark.range.stop) ∨
        ∃ p, Tree.IsNode p node ∧ (context source options).StringKey tree p c := by
  intro c hc
  obtain ⟨t, ht, rfl⟩ := Convert.exists_traced h
  obtain ⟨u, hu, rfl⟩ := hc.of_map
  have hflush : u.shape.takes ((context source options).text u.mark.piece) → u.mark.piece.Flush :=
    fun htakes => hread _ (by simpa only [read, ht] using Context.mem_read hu htakes)
  rcases (Convert.program_accounted ht).of_isNode hu with htold | ⟨p, hp, hkey⟩
  · rw [Tree.shape_map, Tree.mark_map]
    exact .inl (Shape.spells_map.2 (htold.spells htree hflush))
  · exact .inr ⟨_, hp.map _, hkey.map⟩

end Program

/-- The tree of an assignment of a template to a name beyond the basic plane. -/
def astralAssignment : Cst :=
  .node { label := "program", isNamed := true, start := 0, stop := 10 } [
    .node { label := "expression_statement", isNamed := true, start := 0, stop := 10 } [
      .node { label := "assignment_expression", isNamed := true, start := 0, stop := 9 } [
        .node { label := "identifier", isNamed := true, start := 0, stop := 4,
                field := some "left" } [],
        .node { label := "=", start := 4, stop := 5 } [],
        .node { label := "template_string", isNamed := true, start := 5, stop := 9,
                field := some "right" } [
          .node { label := "`", start := 5, stop := 6 } [],
          .node { label := "string_fragment", isNamed := true, start := 6, stop := 8 } [],
          .node { label := "`", start := 8, stop := 9 } []]],
      .node { label := ";", start := 9, stop := 10 } []]]

theorem astralAssignment_slices :
    astralAssignment.Everywhere (Cst.OnText (.ofString "𝒳=`é`;")) ∧
      (∀ c ∈ Program.read astralAssignment (.ofString "𝒳=`é`;") {}, c.Flush) ∧
      ∃ node, (Program.convert astralAssignment (.ofString "𝒳=`é`;") {}).result = .ok node ∧
        ∀ c, Tree.IsNode c node →
          c.shape.Spells ((Source.ofString "𝒳=`é`;").utf16Slice c.mark.range.start c.mark.range.stop) ∨
            ∃ p, Tree.IsNode p node ∧
              (Program.context (.ofString "𝒳=`é`;") {}).StringKey astralAssignment p c := by
  have onText : astralAssignment.Everywhere (Cst.OnText (.ofString "𝒳=`é`;")) := by
    decide +kernel
  have flush : ∀ c ∈ Program.read astralAssignment (.ofString "𝒳=`é`;") {}, c.Flush := by
    decide +kernel
  obtain ⟨node, h⟩ := Report.exists_node
    (Program.convert astralAssignment (.ofString "𝒳=`é`;") {}) (by decide +kernel)
  exact ⟨onText, flush, node, h, Program.convert_slices onText flush h⟩

end Estree
