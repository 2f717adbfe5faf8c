import Estree.Proofs.Built.Statement
import Estree.Proofs.Source
import Estree.Proofs.Spans

/-!
# Nodes lie inside their parents

In the result of a conversion every node lies inside its parent, by range as well as by line and
column (`Program.convert_contained`). This needs a concrete tree whose spans are in order, and whose
rules keep the order of the grammar where an extent runs from one child to another
(`Cst.WellOrdered`). The text may be any: a place past its end counts as the end.
-/

namespace Estree

namespace Cst

/-- The spans of the children of a node are in order, no extra child is in a field, and the children
follow each other as in the grammar. -/
structure WellOrdered (n : Cst) : Prop extends Nests n where
  extras : ∀ c ∈ n.extras, ∀ name ∈ fieldNames, c.head.field ≠ some name
  /-- The members of a class stand between its braces. -/
  classBody : n.kind = .classBody → ∃ opening ∈ n.token? "\x7b", ∃ closing ∈ n.token? "\x7d",
    opening.head.stop ≤ closing.head.start ∧
      ∀ c ∈ n.named, opening.head.stop ≤ c.head.start ∧ c.head.stop ≤ closing.head.start
  /-- A template stands between backticks. If one backtick is its only part, the last token in this
  ends where the template does, as it does if the backtick is a leaf. -/
  template : n.kind = .templateString →
    n.Quoted ∧ (n.parts.length = 1 → n.lastByte = n.head.stop)
  parameter : n.isParameter → ∀ pattern ∈ n.field? "pattern", ∀ value ∈ n.field? "value",
    pattern.head.stop ≤ value.head.start
  method : n.kind = .methodDefinition → ∀ list ∈ n.field? "parameters", ∀ body ∈ n.field? "body",
    list.head.stop ≤ body.head.start
  /-- In the head of a loop the keyword stands before the variable, and this before its value. -/
  loop : n.kind = .forInStatement →
    (∀ keyword ∈ n.field? "kind", keyword.children = [] ∧
      ∀ name ∈ n.field? "left", keyword.head.stop ≤ name.head.start) ∧
    ∀ name ∈ n.field? "left", ∀ value ∈ n.field? "value", name.head.stop ≤ value.head.start

instance : DecidablePred WellOrdered := fun n =>
  decidable_of_iff (n.Nests ∧ (∀ c ∈ n.extras, ∀ name ∈ fieldNames, _) ∧
    (_ → ∃ opening ∈ n.token? "\x7b", ∃ closing ∈ n.token? "\x7d", _ ∧ ∀ c ∈ n.named, _) ∧
    (_ → n.Quoted ∧ (_ → _)) ∧
    (_ → ∀ pattern ∈ n.field? "pattern", ∀ value ∈ n.field? "value", _) ∧
    (_ → ∀ list ∈ n.field? "parameters", ∀ body ∈ n.field? "body", _) ∧
    (_ → (∀ keyword ∈ n.field? "kind", _ ∧ ∀ name ∈ n.field? "left", _) ∧
      ∀ name ∈ n.field? "left", ∀ value ∈ n.field? "value", _))
    ⟨fun ⟨nests, extras, classBody, template, parameter, method, loop⟩ =>
        { nests with extras, classBody, template, parameter, method, loop },
      fun h => ⟨h.toNests, h.extras, h.classBody, h.template, h.parameter, h.method, h.loop⟩⟩

variable {n c d : Cst} {name : String}

theorem WellOrdered.mem_parts (h : n.WellOrdered) (hc : n.Sees c) : c ∈ n.parts :=
  hc.mem_parts h.extras

theorem WellOrdered.field_mem (h : n.WellOrdered) (hc : n.field? name = some c)
    (hname : fieldNames.contains name) : c ∈ n.parts := h.mem_parts (.of_field? hc hname)

namespace Everywhere

theorem nests (h : n.Everywhere WellOrdered) : n.Everywhere Nests := h.mono fun _ h => h.toNests

theorem leads (h : n.Everywhere WellOrdered) (hc : c ∈ n.parts) (hd : d ∈ n.parts)
    (hcd : c.head.stop ≤ d.head.start) : c.Leads d :=
  (h.nests.part hc).extent.leads (h.nests.part hd).extent hcd

/-- In the head of a loop the keyword, the variable and its value, if it has one, follow each
other. -/
theorem loop_leads (h : n.Everywhere WellOrdered) (hk : n.kind = .forInStatement)
    {keyword name : Cst} {value : Option Cst} (hkeyword : n.field? "kind" = some keyword)
    (hname : n.field? "left" = some name) (hvalue : n.field? "value" = value) :
    n.firstByte ≤ keyword.head.start ∧ keyword.head.start ≤ name.firstByte ∧
      value.getD name ∈ n.parts ∧ name.Leads (value.getD name) := by
  obtain ⟨hleaf, hbefore⟩ := (h.root.loop hk).1 keyword hkeyword
  have hkm := h.root.field_mem hkeyword rfl
  have hnm := h.root.field_mem hname rfl
  rw [← firstByte_of_children hleaf]
  refine ⟨h.nests.firstByte_le hkm, (h.leads hkm hnm (hbefore name hname)).first, ?_⟩
  cases value with
  | none => exact ⟨hnm, refl_of Leads name⟩
  | some c =>
    have hcm := h.root.field_mem hvalue rfl
    exact ⟨hcm, h.leads hnm hcm ((h.root.loop hk).2 name hname c hvalue)⟩

end Everywhere

end Cst

/-! ## Labels -/

namespace Label

/-- The start of a label is not after its end. -/
structure Forward (l : Label) : Prop where
  range : l.range.start ≤ l.range.stop
  loc : l.loc.start ≤ l.loc.stop

/-- One label lies inside another. -/
structure Within (l m : Label) : Prop where
  rangeStart : m.range.start ≤ l.range.start
  rangeStop : l.range.stop ≤ m.range.stop
  locStart : m.loc.start ≤ l.loc.start
  locStop : l.loc.stop ≤ m.loc.stop

theorem Within.trans {k l m : Label} (hkl : k.Within l) (hlm : l.Within m) : k.Within m :=
  ⟨Nat.le_trans hlm.rangeStart hkl.rangeStart, Nat.le_trans hkl.rangeStop hlm.rangeStop,
    Position.le_trans hlm.locStart hkl.locStart, Position.le_trans hkl.locStop hlm.locStop⟩

variable (source : Source) (file : String) {a b c d : Nat}

theorem forward_ofBytes (h : a ≤ b) : (ofBytes source file a b).Forward :=
  ⟨source.units_mono h, source.position_mono h⟩

theorem within_ofBytes (ha : c ≤ a) (hb : b ≤ d) :
    (ofBytes source file a b).Within (ofBytes source file c d) :=
  ⟨source.units_mono ha, source.units_mono hb, source.position_mono ha, source.position_mono hb⟩

/-- Every label lies inside that of the whole text, also if its bytes lie beyond. -/
theorem within_whole : (ofBytes source file a b).Within (ofBytes source file 0 source.size) := by
  have hend := source.place_le_end b
  exact ⟨source.units_mono (Nat.zero_le a), hend.units, source.position_mono (Nat.zero_le a),
    hend.position⟩

end Label

/-! ## Trees -/

/-- A node runs forward, and its children lie inside. -/
structure Node.Encloses (p : Node) : Prop where
  forward : p.mark.Forward
  children : ∀ c ∈ p.children, c.mark.Within p.mark

variable {source : Source} {file : String}

/-- A tree lies between two byte offsets, and in it every node lies inside its parent. -/
structure Node.Between (source : Source) (file : String) (a b : Nat) (t : Node) : Prop where
  within : t.mark.Within (.ofBytes source file a b)
  encloses : t.Everywhere Node.Encloses

namespace Node.Between

variable {a b c d : Nat} {s : Shape Node} {t : Node}

theorem mono (h : Between source file a b t) (ha : c ≤ a) (hb : b ≤ d) :
    Between source file c d t :=
  ⟨h.within.trans (Label.within_ofBytes source file ha hb), h.encloses⟩

/-- A node lies between two offsets that its children lie between. -/
theorem node (hab : a ≤ b) (hs : ∀ c ∈ s.children, Between source file a b c) :
    Between source file a b (.mk s (.ofBytes source file a b)) := by
  refine ⟨Label.within_ofBytes source file (Nat.le_refl a) (Nat.le_refl b), .mk ⟨?_, ?_⟩ ?_⟩
  · exact Label.forward_ofBytes source file hab
  · exact fun c hc => (hs c hc).within
  · exact fun c hc => (hs c hc).encloses

theorem leaf (hab : a ≤ b) (hs : s.children = []) :
    Between source file a b (.mk s (.ofBytes source file a b)) :=
  node hab (hs ▸ nofun)

end Node.Between

/-! ## Conversions -/

open Node (Between)

variable {options : Options} {cat : Category} {n : Cst} {t : Node}

/-- What is built from a node lies inside its extent. -/
theorem Built.between (h : Built (Program.context source options) cat n t)
    (hn : n.Everywhere Cst.WellOrdered) :
    Between source options.fileName n.firstByte n.lastByte t := by
  induction h with
  | node _ _ hparts _ ih =>
    refine .node hn.nests.extent.forward fun c hc => ?_
    rw [← Category.parts?_children hparts] at hc
    obtain ⟨p, hp, rfl⟩ := List.mem_map.1 hc
    exact ih p hp hn
  | within hc _ ih =>
    have hmem := hn.root.mem_parts hc
    exact (ih (hn.part hmem)).mono (hn.nests.firstByte_le hmem) (hn.nests.le_lastByte hmem)
  | widen _ _ ih => exact ih hn
  | identifier | privateIdentifier => exact .leaf hn.nests.extent.forward rfl
  | trusted hc =>
    have hmem := hn.root.mem_parts hc.sees
    exact (Between.leaf (hn.part hmem).nests.extent.forward rfl).mono
      (hn.nests.firstByte_le hmem) (hn.nests.le_lastByte hmem)
  | @literal n value regex =>
    exact .leaf hn.nests.extent.forward Shape.children_literal
  | templateElement hk hgap =>
    obtain ⟨hquoted, hlone⟩ := hn.root.template hk
    obtain ⟨hfirst, hforward, hlast⟩ := hquoted.gaps_within hn.nests hlone _ hgap
    exact (Between.leaf hforward rfl).mono hfirst hlast
  | @defaultParameter n pattern value left right hk hpattern hvalue _ _ ihleft ihright =>
    have hp := hn.root.field_mem hpattern rfl
    have hv := hn.root.field_mem hvalue rfl
    have hleads := hn.leads hp hv (hn.root.parameter hk pattern hpattern value hvalue)
    have hleft := (ihleft (hn.part hp)).mono (Nat.le_refl _) hleads.last
    have hright := (ihright (hn.part hv)).mono hleads.first (Nat.le_refl _)
    have hforward := Nat.le_trans (hn.nests.part hp).extent.forward hleads.last
    have hnode := Between.node (s := .assignmentPattern left right) hforward
      (List.forall_mem_cons.2 ⟨hleft, List.forall_mem_singleton.2 hright⟩)
    exact hnode.mono (hn.nests.firstByte_le hp) (hn.nests.le_lastByte hv)
  | @methodFunction n list body params block _ _ hk hlist hbody _ _ _ ihparams ihblock =>
    have hl := hn.root.field_mem hlist rfl
    have hb := hn.root.field_mem hbody rfl
    have hleads := hn.leads hl hb (hn.root.method hk list hlist body hbody)
    have hlast := hn.nests.le_lastByte hl
    have hparams := fun t ht => (ihparams t ht (hn.part hl)).mono (Nat.le_refl _) hlast
    have hblock := (ihblock (hn.part hb)).mono hleads.first (hn.nests.le_lastByte hb)
    have hforward := Nat.le_trans (hn.nests.part hl).extent.forward hlast
    refine (Between.node hforward fun c hc => ?_).mono (hn.nests.firstByte_le hl) (Nat.le_refl _)
    have hc : c ∈ params ∨ c = block := by simpa using hc
    rcases hc with hc | rfl
    · exact hparams c hc
    · exact hblock
  | @constructor n name value isStatic hname _ _ _ ih =>
    have hm := hn.root.field_mem hname rfl
    have hkey : Between source options.fileName n.firstByte n.lastByte
        ((Program.context source options).node name (.identifier "constructor")) :=
      (Between.leaf (hn.nests.part hm).extent.forward rfl).mono
        (hn.nests.firstByte_le hm) (hn.nests.le_lastByte hm)
    exact .node hn.nests.extent.forward
      (List.forall_mem_cons.2 ⟨hkey, List.forall_mem_singleton.2 (ih hn)⟩)
  | @classBody n origin members hk _ horigin _ ih =>
    -- The braces are parts of the body, so their inner ends lie inside its extent.
    obtain ⟨opening, hopening, closing, hclosing, hforward, hinside⟩ := hn.root.classBody hk
    have ho := hn.nests.firstByte_le_stop (Cst.mem_parts_of_token? hopening)
    have hc := hn.nests.start_le_lastByte (Cst.mem_parts_of_token? hclosing)
    rw [Option.mem_def.1 hopening, Option.mem_def.1 hclosing]
    refine (Between.node hforward fun u hu => ?_).mono ho hc
    have hu : u ∈ members := by simpa using hu
    have hmember := hn.named (horigin u hu)
    obtain ⟨hafter, hbefore⟩ := hinside _ (horigin u hu)
    exact (ih u hu hmember).mono (Nat.le_trans hafter hmember.nests.extent.start_le)
      (Nat.le_trans hmember.nests.extent.le_stop hbefore)
  | @variableList n origin declarations kind _ horigin _ ih =>
    obtain ⟨hforward, hlast⟩ := hn.nests.lastNamed_le
    refine (Between.node hforward fun u hu => ?_).mono (Nat.le_refl _) hlast
    have hu : u ∈ declarations := by simpa using hu
    have hmem := horigin u hu
    exact (ih u hu (hn.named hmem)).mono
      (hn.nests.firstByte_le (Cst.mem_parts_of_mem_named hmem)) (hn.nests.le_lastNamed hmem)
  | @loopVariable n keyword name value id init kind hk hkeyword hname hvalue _ hsome _ ihid ihinit =>
    obtain ⟨hkeyword, hstart, hlm, hleads⟩ := hn.loop_leads hk hkeyword hname hvalue
    have hnm := hn.root.field_mem hname rfl
    have hforward := Nat.le_trans (hn.nests.part hnm).extent.forward hleads.last
    have hid := (ihid (hn.part hnm)).mono (Nat.le_refl _) hleads.last
    have hinit : ∀ u, init = some u →
        Between source options.fileName name.firstByte (value.getD name).lastByte u :=
      fun u hu => (ihinit u hu (hn.part hlm)).mono hleads.first (Nat.le_refl _)
    -- The declarator begins with the variable, and the declaration around it with the keyword.
    have hdeclarator := Between.node (s := .variableDeclarator id init) hforward fun u hu => by
      have hu : u = id ∨ init = some u := by simpa using hu
      rcases hu with rfl | hu
      · exact hid
      · exact hinit u hu
    have hnode := Between.node (s := .variableDeclaration [_] kind)
      (Nat.le_trans hstart hforward)
      (List.forall_mem_singleton.2 (hdeclarator.mono hstart (Nat.le_refl _)))
    exact hnode.mono hkeyword (hn.nests.le_lastByte hlm)
  | @forLoop n init test update body condition hk _ hcondition _ _ _ ihinit ihtest ihupdate ihbody =>
    refine .node hn.nests.extent.forward fun c hc => ?_
    have hc : init = some c ∨ test = some c ∨ update = some c ∨ c = body := by
      simpa [or_assoc] using hc
    rcases hc with hc | hc | hc | rfl
    · exact ihinit c hc hn
    · have hm := hn.root.field_mem (hcondition c hc) rfl
      exact (ihtest c hc (hn.part hm)).mono (hn.nests.firstByte_le hm) (hn.nests.le_lastByte hm)
    · exact ihupdate c hc hn
    · exact ihbody hn

/-- In the result of a conversion every node runs forward and lies inside its parent. -/
theorem Program.convert_contained {tree : Cst} {source : Source} {options : Options} {node : Node}
    (htree : tree.Everywhere Cst.WellOrdered)
    (h : (Program.convert tree source options).result = .ok node) :
    ∀ p, Tree.IsNode p node → p.mark.Forward ∧ ∀ c ∈ p.children, c.mark.Within p.mark := by
  obtain ⟨body, rfl, hbody⟩ := Convert.program_built h
  have hnode : Between source options.fileName 0 source.size
      (.mk (.program body options.sourceType) (.ofBytes source options.fileName 0 source.size)) := by
    refine .node (Nat.zero_le source.size) fun u hu => ?_
    have hu : u ∈ body := by simpa using hu
    have hbetween := (hbody u hu).between htree
    exact ⟨hbetween.within.trans (Label.within_whole source _), hbetween.encloses⟩
  intro p hp
  have hp := hnode.encloses.of_isNode hp
  exact ⟨hp.forward, hp.children⟩

/-- The tree of a loop over a template, with a comment before its body. -/
def templateLoop : Cst :=
  .node { label := "program", isNamed := true, start := 0, stop := 21 } [
    .node { label := "for_in_statement", isNamed := true, start := 0, stop := 21 } [
      .node { label := "for", start := 0, stop := 3 } [],
      .node { label := "(", start := 3, stop := 4 } [],
      .node { label := "let", start := 4, stop := 7, field := some "kind" } [],
      .node { label := "identifier", isNamed := true, start := 8, stop := 9,
              field := some "left" } [],
      .node { label := "in", start := 10, stop := 12, field := some "operator" } [],
      .node { label := "template_string", isNamed := true, start := 12, stop := 15,
              field := some "right" } [
        .node { label := "`", start := 12, stop := 13 } [],
        .node { label := "string_fragment", isNamed := true, start := 13, stop := 14 } [],
        .node { label := "`", start := 14, stop := 15 } []],
      .node { label := ")", start := 15, stop := 16 } [],
      .node { label := "comment", isNamed := true, isExtra := true, start := 16, stop := 20 } [],
      .node { label := "empty_statement", isNamed := true, start := 20, stop := 21,
              field := some "body" } [
        .node { label := ";", start := 20, stop := 21 } []]]]

theorem templateLoop_contained : templateLoop.Everywhere Cst.WellOrdered ∧
    ∃ node, (Program.convert templateLoop (.ofString "for(let a in`b`)/**/;") {}).result = .ok node ∧
      ∀ p, Tree.IsNode p node → p.mark.Forward ∧ ∀ c ∈ p.children, c.mark.Within p.mark := by
  have ordered : templateLoop.Everywhere Cst.WellOrdered := by decide +kernel
  obtain ⟨node, h⟩ := Report.exists_node
    (Program.convert templateLoop (.ofString "for(let a in`b`)/**/;") {})
    (by decide +kernel)
  exact ⟨ordered, node, h, Program.convert_contained ordered h⟩

end Estree
