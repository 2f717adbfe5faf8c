import Estree.Proofs.Simulation.Descent

/-!
# Comments are invisible

`Cst.bare` deletes every extra node below a node: comments, and text that the parser skipped over.
Where no extra node stands in a field (`Cst.PlainExtras`), a tree and its bare tree are seen alike by
every rule, and they are converted to the same report. The one field that an extra node may stand
in is `body` in a case of a switch, because the statements of a case are found among its parts.
-/

namespace Estree

namespace Cst

/-! ## Deleting extra nodes -/

mutual

/-- A node without the extra nodes below it. -/
def bare : Cst → Cst
  | node head cs => node head (bareOf cs)

/-- Those of several nodes that are not extra, without the extra nodes below them. -/
def bareOf : List Cst → List Cst
  | [] => []
  | c :: cs => if c.head.isExtra then bareOf cs else c.bare :: bareOf cs

end

@[simp] theorem head_bare (n : Cst) : n.bare.head = n.head := by
  obtain ⟨head, cs⟩ := n
  rfl

theorem bareOf_eq (cs : List Cst) : bareOf cs = (cs.filter (!·.head.isExtra)).map bare := by
  induction cs with
  | nil => rfl
  | cons c cs ih =>
    rw [bareOf, ih]
    cases hx : c.head.isExtra <;> simp [hx]

theorem children_bare (n : Cst) : n.bare.children = n.parts.map bare := by
  obtain ⟨head, cs⟩ := n
  exact bareOf_eq cs

theorem parts_bare (n : Cst) : n.bare.parts = n.parts.map bare := by
  rw [parts, children_bare, parts, List.filter_map, List.filter_filter]
  simp

theorem named_bare (n : Cst) : n.bare.named = n.named.map bare := by
  rw [named, parts_bare, named, List.filter_map]
  simp [Function.comp_def]

theorem extras_bare (n : Cst) : n.bare.extras = [] := by
  rw [extras, children_bare, parts, List.filter_map, List.filter_filter]
  simp

theorem kind_bare (n : Cst) : n.bare.kind = n.kind := by
  simp [kind, isDamaged]

/-- A look-up that finds no extra child finds the same in the bare node. -/
theorem field?_bare {n : Cst} {name : String}
    (h : ∀ c ∈ n.extras, c.head.field ≠ some name) :
    n.bare.field? name = (n.field? name).map bare := by
  rw [field?_eq_find?_parts h, field?_eq_find?_parts (by simp [extras_bare]), parts_bare,
    List.find?_map]
  simp only [Function.comp_def, head_bare]

theorem gaps_bare (n : Cst) : n.bare.gaps = n.gaps := by
  have hsubs : n.bare.substitutions = n.substitutions.map bare := by
    rw [substitutions, named_bare, substitutions, List.filter_map]
    simp [Function.comp_def, kind_bare]
  have hgaps (start stop : Nat) (cs : List Cst) :
      gapsFrom start stop (cs.map bare) = gapsFrom start stop cs := by
    induction cs generalizing start with
    | nil => rfl
    | cons c cs ih => rw [List.map_cons, gapsFrom, gapsFrom, head_bare, ih]
  rw [gaps, gaps, hsubs, hgaps, head_bare]

mutual

theorem firstByte_bare (n : Cst) : n.bare.firstByte = n.firstByte := by
  match n with
  | node head cs => rw [bare, firstByte, firstByte, firstByteOf_bareOf]

theorem firstByteOf_bareOf (default : Nat) (cs : List Cst) :
    firstByteOf default (bareOf cs) = firstByteOf default cs := by
  match cs with
  | [] => rfl
  | c :: cs =>
    rw [bareOf, firstByteOf]
    split
    · exact firstByteOf_bareOf default cs
    · next hx => rw [firstByteOf, head_bare, if_neg hx, firstByte_bare]

end

mutual

theorem lastByte_bare (n : Cst) : n.bare.lastByte = n.lastByte := by
  match n with
  | node head cs => rw [bare, lastByte, lastByte, lastByteOf_bareOf]

theorem lastByteOf_bareOf (default : Nat) (cs : List Cst) :
    lastByteOf default (bareOf cs) = lastByteOf default cs := by
  match cs with
  | [] => rfl
  | c :: cs =>
    rw [bareOf, lastByteOf]
    split
    · exact lastByteOf_bareOf default cs
    · next hx => rw [lastByteOf, head_bare, if_neg hx, lastByte_bare, lastByteOf_bareOf]

end

/-! ## Extra nodes without fields -/

/-- No extra child of a child of `p` is in a field, but for `body` in a case that stands in the body
of a switch. -/
def PlainBelow (p : Cst) : Prop :=
  ∀ n ∈ p.children, ∀ c ∈ n.extras, c.head.field = none ∨
    c.head.field = some "body" ∧ n.isCase ∧ p.head.label = "switch_body"

instance : DecidablePred PlainBelow := fun p =>
  inferInstanceAs (Decidable (∀ n ∈ p.children, ∀ c ∈ n.extras, _ ∨ _))

/-- No extra node below a root is in a field, but for `body` in a case that stands in the body of a
switch. -/
structure PlainExtras (root : Cst) : Prop where
  top : ∀ c ∈ root.extras, c.head.field = none
  below : root.Everywhere PlainBelow

/-- No extra child of a node is in a field, but for `body` in a case. -/
def HasPlainExtras (n : Cst) : Prop :=
  ∀ c ∈ n.extras, c.head.field = none ∨ c.head.field = some "body" ∧ n.isCase

theorem HasPlainExtras.field_ne {n : Cst} {name : String} (h : n.HasPlainExtras)
    (hname : n.mayLookUp name) : ∀ c ∈ n.extras, c.head.field ≠ some name := by
  rintro c hc hfield
  rcases h c hc with hnone | ⟨hbody, hcase⟩
  · simp [hfield] at hnone
  · obtain rfl := Option.some.inj (hfield.symm.trans hbody)
    simp [mayLookUp, hcase] at hname

end Cst

/-! ## The simulation -/

/-- A node is seen beside its bare node if its extra children have no fields but those that they may
have, and the same holds below it. -/
structure Bared (n m : Cst) : Prop where
  eq : m = n.bare
  plain : n.HasPlainExtras
  below : n.Everywhere Cst.PlainBelow

namespace Bared

variable {μ : Type} {n m c d : Cst}

theorem child (h : Bared n m) (hc : c ∈ n.children) : Bared c c.bare := by
  refine ⟨rfl, fun x hx => ?_, h.below.child hc⟩
  exact (h.below.root c hc x hx).imp_right fun hbody => ⟨hbody.1, hbody.2.1⟩

theorem parts (h : Bared n m) :
    List.Forall₂ (fun c d => Bared c d ∧ c.head.field = d.head.field) n.parts m.parts := by
  rw [h.eq, Cst.parts_bare]
  exact forall₂_map fun c hc =>
    ⟨h.child (Cst.mem_children_of_mem_parts hc), by rw [Cst.head_bare]⟩

theorem field?_eq (h : Bared n m) {name : String} (hname : n.mayLookUp name) :
    m.field? name = (n.field? name).map Cst.bare := by
  rw [h.eq, Cst.field?_bare (h.plain.field_ne hname)]

theorem field (h : Bared n m) {name : String} (hname : n.mayLookUp name) :
    Option.Rel Bared (n.field? name) (m.field? name) := by
  rw [h.field?_eq hname]
  exact optionRel_map fun c hc => h.child (Cst.mem_children_of_field? hc)

/-- A node found in both trees is the same but for extra nodes. -/
theorem eq_of_field? (h : Bared n m) {name : String} (hname : n.mayLookUp name)
    (hc : n.field? name = some c) (hd : m.field? name = some d) : d = c.bare := by
  rw [h.field?_eq hname, hc] at hd
  exact (Option.some.inj hd).symm

theorem eq_of_token? (h : Bared n m) {text : String} (hc : n.token? text = some c)
    (hd : m.token? text = some d) : d = c.bare := by
  have htoken : m.token? text = (n.token? text).map Cst.bare := by
    rw [Cst.token?, Cst.token?, h.eq, Cst.parts_bare, List.find?_map]
    simp only [Function.comp_def, Cst.isToken, Cst.head_bare]
  rw [htoken, hc] at hd
  exact (Option.some.inj hd).symm

/-- A clause of a `try` does not stand in the body of a switch, so no extra node in it has a
field, also if the clause is a case. -/
theorem clauseBody (h : Bared n m) (hk : n.kind = .tryStatement) {name : String}
    (hname : Cst.fieldNames.contains name) (hc : n.field? name = some c)
    (hd : m.field? name = some d) :
    Option.Rel Bared (c.field? "body") (d.field? "body") := by
  have hlabel : n.head.label ≠ "switch_body" := by
    intro hlabel
    unfold Cst.kind at hk
    rw [hlabel] at hk
    split at hk <;> cases hk
  have hmem := Cst.mem_children_of_field? hc
  have hextras : ∀ x ∈ c.extras, x.head.field ≠ some "body" := by
    rintro x hx hbody
    rcases h.below.root c hmem x hx with hnone | ⟨_, _, hswitch⟩
    · simp [hbody] at hnone
    · exact hlabel hswitch
  rw [h.eq_of_field? (Cst.mayLookUp_of_kind hk hname rfl) hc hd, Cst.field?_bare hextras]
  exact optionRel_map fun b hb => (h.child hmem).child (Cst.mem_children_of_field? hb)

theorem text_eq (ctx : Context μ) (n : Cst) : ctx.text n.bare = ctx.text n := by
  simp only [Context.text, Cst.head_bare]

theorem modifierTokens (n : Cst) (name : Cst) :
    n.bare.modifierTokens (some name.bare) = n.modifierTokens (some name) := by
  simp only [Cst.modifierTokens, Cst.parts_bare, Option.all_some, Cst.head_bare,
    List.takeWhile_map, List.filter_map, List.map_map, Function.comp_def, Cst.kind_bare]

end Bared

/-- A conversion compared with that of the bare tree, in a context whose marks do not show the
syntax. -/
def Simulation.bared {μ : Type} (ctx : Context μ)
    (hmark : ∀ n m a b, ctx.mark n a b = ctx.mark m a b) : Simulation μ ctx ctx :=
  Likeness.toSimulation {
    Rel := Bared
    Fail := Eq
    left := id
    right := id
    placed := True
    compiles := .refl ctx
    head := by rintro n _ ⟨rfl, _, _⟩; rw [Cst.head_bare]; exact .refl _
    parts := fun h => h.parts
    field := fun h => h.field
    clauseBody := fun h hk => h.clauseBody hk
    fail := by
      rintro n _ ⟨rfl, _, _⟩
      simp only [Context.unsupported, Cst.kindName, Cst.head_bare]
    text := by rintro n _ ⟨rfl, _, _⟩ _; exact (Bared.text_eq ctx n).symm
    readText := by
      rintro n m c d name h hread hc hd
      rw [h.eq_of_field? (Cst.mayLookUp_of_readFields hread) hc hd, Bared.text_eq]
    firstText := by
      rintro n _ c d ⟨rfl, _, _⟩ _ hc hd
      rw [Cst.named_bare, List.head?_map, hc] at hd
      cases hd
      exact (Bared.text_eq ctx c).symm
    assignText := by
      rintro n m c d h _ _ hc hd
      rw [h.eq_of_token? hc hd, Bared.text_eq]
    defaultText := by
      rintro n m c d name h _ hname hc hd _
      have hlook : n.mayLookUp name := by
        rcases List.mem_pair.1 (List.contains_iff_mem.1 hname) with rfl | rfl <;> rfl
      rw [h.eq_of_field? hlook hc hd, Bared.text_eq]
    operatorFirst := by
      rintro n m a b c d h _ ha hb hc hd _
      rw [h.eq_of_field? rfl ha hc, h.eq_of_field? rfl hb hd, Cst.head_bare, Cst.head_bare]
    methodTokens := by
      rintro n m c d h hc hd
      rw [h.eq_of_field? rfl hc hd, h.eq, Bared.modifierTokens]
    gaps := by
      rintro n _ ⟨rfl, _, _⟩ _
      rw [Cst.gaps_bare]
      exact List.forall₂_same.2 fun _ _ => ⟨fun _ => rfl, rfl⟩
    start := by rintro n _ ⟨rfl, _, _⟩ _; rw [Cst.head_bare]
    stop := by rintro n _ ⟨rfl, _, _⟩ _; rw [Cst.head_bare]
    firstByte := by rintro n _ ⟨rfl, _, _⟩ _; rw [Cst.firstByte_bare]
    lastByte := by rintro n _ ⟨rfl, _, _⟩ _; rw [Cst.lastByte_bare]
    mark := by rintro n m a b c d _ hac hbd; rw [hac trivial, hbd trivial, hmark n m] }

/-! ## The conversion of the bare tree -/

/-- Extra nodes leave no trace in the result of a conversion, in its failure or in its log. -/
theorem Program.convert_bare (tree : Cst) (source : Source) (options : Options)
    (h : tree.PlainExtras) :
    Program.convert tree.bare source options = Program.convert tree source options := by
  let S := Simulation.bared (Program.context source options) fun _ _ _ _ => rfl
  have hroot : S.Rel tree tree.bare := ⟨rfl, fun c hc => .inl (h.top c hc), h.below⟩
  have same := S.program hroot (fun _ => rfl) rfl
  have heq := (same.mono fun t u htu => by rwa [← Tree.map_id t, ← Tree.map_id u]).eq
  simp only [Program.convert, heq]

/-- The tree of `switch(0){default:/**/;}`, where the comment stands in the field `body`. -/
def commentedSwitch : Cst :=
  .node { label := "program", isNamed := true, start := 0, stop := 24 } [
    .node { label := "switch_statement", isNamed := true, start := 0, stop := 24 } [
      .node { label := "switch", start := 0, stop := 6 } [],
      .node { label := "parenthesized_expression", isNamed := true, start := 6, stop := 9,
              field := some "value" } [
        .node { label := "(", start := 6, stop := 7 } [],
        .node { label := "number", isNamed := true, start := 7, stop := 8 } [],
        .node { label := ")", start := 8, stop := 9 } []],
      .node { label := "switch_body", isNamed := true, start := 9, stop := 24,
              field := some "body" } [
        .node { label := "\x7b", start := 9, stop := 10 } [],
        .node { label := "switch_default", isNamed := true, start := 10, stop := 23 } [
          .node { label := "default", start := 10, stop := 17 } [],
          .node { label := ":", start := 17, stop := 18 } [],
          .node { label := "comment", isNamed := true, isExtra := true, start := 18, stop := 22,
                  field := some "body" } [],
          .node { label := "empty_statement", isNamed := true, start := 22, stop := 23,
                  field := some "body" } [
            .node { label := ";", start := 22, stop := 23 } []]],
        .node { label := "\x7d", start := 23, stop := 24 } []]]]

theorem commentedSwitch_convert_bare :
    commentedSwitch.PlainExtras ∧ (¬ commentedSwitch.Everywhere fun n => n.extras.isEmpty) ∧
      Program.convert commentedSwitch.bare (.ofString "switch(0)\x7bdefault:/**/;\x7d") {} =
        Program.convert commentedSwitch (.ofString "switch(0)\x7bdefault:/**/;\x7d") {} :=
  have plain : commentedSwitch.PlainExtras := ⟨by decide, by decide⟩
  ⟨plain, by decide, Program.convert_bare _ _ _ plain⟩

end Estree
