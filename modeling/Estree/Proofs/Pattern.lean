import Estree.Proofs.Simulation.Descent

/-!
# Declared patterns are targets

Declared patterns and targets of assignments are gone through by rules of their own, of which those
for targets take more kinds of syntax. Where a declared pattern has a conversion, the same syntax as a
target is converted step by step in the same way (`Outcome.ExtendsTo`), so it yields the same node
(`Program.target_of_binding`).
-/

namespace Estree

/-- Where the first conversion succeeds, the second records the same events and has the same value. -/
def Outcome.ExtendsTo {α : Type} (x y : Outcome α) : Prop := Outcome.Alike (fun _ => True) Eq Eq x y

namespace Outcome.ExtendsTo

variable {α β γ : Type} {x y : Outcome α}

theorem refl (x : Outcome α) : ExtendsTo x x := Alike.refl (fun _ => rfl) x

/-- A conversion that stops extends to any other. -/
theorem of_error {u : Unsupported} (h : x.result = .error u) : ExtendsTo x y :=
  .stops ⟨u, h, trivial⟩

theorem result_eq_ok (h : ExtendsTo x y) {a : α} (ha : x.result = .ok a) : y.result = .ok a := by
  cases h with
  | stops h => exact absurd ha h.result_ne
  | same _ result =>
    rw [ha] at result
    generalize y.result = r at result
    cases result with
    | ok h => rw [h]

theorem bind {k l : α → Outcome β} (h : ExtendsTo x y) (hk : ∀ a, ExtendsTo (k a) (l a)) :
    ExtendsTo (x >>= k) (y >>= l) :=
  Alike.bind h fun a _ _ _ hab => hab ▸ hk a

theorem map (f : α → β) (h : ExtendsTo x y) : ExtendsTo (f <$> x) (f <$> y) :=
  Alike.map h fun _ _ => congrArg f

theorem mapM {f g : γ → Outcome α} {cs : List γ} (h : ∀ c ∈ cs, ExtendsTo (f c) (g c)) :
    ExtendsTo (cs.mapM f) (cs.mapM g) := by
  have hsame : List.Forall₂ Eq cs cs := List.forall₂_same.2 fun _ _ => rfl
  have hmapM : Alike (fun _ => True) Eq (List.Forall₂ Eq) (cs.mapM f) (cs.mapM g) := by
    refine Alike.mapM hsame fun c hc d _ hcd => ?_
    subst hcd
    exact h c hc
  rwa [List.forall₂_eq_eq_eq] at hmapM

theorem onSome {f g : γ → Outcome α} {o : Option γ} (h : ∀ c, o = some c → ExtendsTo (f c) (g c)) :
    ExtendsTo (Outcome.onSome f o) (Outcome.onSome g o) := by
  cases o with
  | none => exact refl _
  | some c => exact (h c rfl).bind fun _ => refl _

end Outcome.ExtendsTo

namespace Convert

open Outcome (ExtendsTo)

variable {μ : Type} {ctx : Context μ} {f : Converter μ} {n : Cst}

/-! ## Parts of patterns -/

section

variable {r q : Role}

theorem field_extendsTo {α : Type} {name : String} {k l : Cst → Outcome α}
    (h : ∀ c, c.height < n.height → ExtendsTo (k c) (l c)) :
    ExtendsTo (ctx.field n name >>= k) (ctx.field n name >>= l) := by
  unfold Context.field
  cases hc : n.field? name with
  | none => exact .of_error rfl
  | some c => exact h c (Cst.height_lt_of_mem_children (Cst.mem_children_of_field? hc))

variable (h : ∀ c, c.height < n.height → ExtendsTo (f r c) (f q c))
include h

theorem named_extendsTo : ExtendsTo (n.named.mapM (f r)) (n.named.mapM (f q)) :=
  .mapM fun _ hc => h _ (Cst.height_lt_of_mem_children (Cst.mem_children_of_mem_named hc))

theorem elements_extendsTo : ExtendsTo (elements f r n) (elements f q n) := by
  refine .mapM fun o ho => .onSome ?_
  rintro c rfl
  have hc := Cst.mem_children_of_mem_parts (Cst.mem_parts_of_mem_slots ho)
  exact h c (Cst.height_lt_of_mem_children hc)

theorem rest_extendsTo : ExtendsTo (rest ctx f r n) (rest ctx f q n) := by
  unfold rest Context.firstNamed
  cases hc : n.named.head? with
  | none => exact .of_error rfl
  | some c =>
    have hmem := Cst.mem_children_of_mem_named (List.mem_of_head? hc)
    exact (h c (Cst.height_lt_of_mem_children hmem)).bind fun _ => .refl _

theorem defaulted_extendsTo : ExtendsTo (defaulted ctx f r n) (defaulted ctx f q n) :=
  field_extendsTo fun c hc => (h c hc).bind fun _ => .refl _

theorem defaultedProperty_extendsTo :
    ExtendsTo (defaultedProperty ctx f r n) (defaultedProperty ctx f q n) :=
  field_extendsTo fun c hc => (h c hc).bind fun _ => .refl _

theorem pairProperty_extendsTo : ExtendsTo (pairProperty ctx f r n) (pairProperty ctx f q n) := by
  refine field_extendsTo fun name _ => ?_
  refine (ExtendsTo.refl (f .propertyKey name)).bind fun key => ?_
  exact field_extendsTo fun c hc => (h c hc).bind fun _ => .refl _

end

/-! ## Patterns -/

/-- What is declared below a node is converted alike as a target. -/
structure Agrees (f : Converter μ) (n : Cst) : Prop where
  pattern : ∀ c, c.height < n.height → ExtendsTo (f .binding c) (f .target c)
  member : ∀ c, c.height < n.height → ExtendsTo (f .bindingMember c) (f .targetMember c)

theorem binding_extendsTo (h : Agrees f n) {e : Cst → Outcome (Tree μ)} :
    ExtendsTo (binding ctx f n) (target ctx f e n) := by
  unfold binding target
  by_cases hname : n.kind.isIdentifier
  · rw [if_pos hname, if_pos hname]
    exact .refl _
  rw [if_neg hname, if_neg hname]
  split
  case h_1 hk =>
    simp only [hk, Kind.isTypeWrapper, Bool.false_eq_true, if_false, Functor.map_map]
    exact (named_extendsTo h.member).map _
  case h_2 hk =>
    simp only [hk, Kind.isTypeWrapper, Bool.false_eq_true, if_false, Functor.map_map]
    exact (elements_extendsTo h.pattern).map _
  case h_3 hk =>
    simp only [hk, Kind.isTypeWrapper, Bool.false_eq_true, if_false]
    exact (defaulted_extendsTo h.pattern).map _
  case h_4 hk =>
    simp only [hk, Kind.isTypeWrapper, Bool.false_eq_true, if_false]
    exact (rest_extendsTo h.pattern).map _
  case h_5 => exact .of_error rfl

theorem bindingMember_extendsTo (h : Agrees f n) :
    ExtendsTo (bindingMember ctx f n) (targetMember ctx f n) := by
  unfold bindingMember targetMember
  refine ExtendsTo.map _ ?_
  split
  case h_1 hk =>
    rw [hk]
    exact pairProperty_extendsTo h.pattern
  case h_2 hk =>
    rw [hk]
    exact .refl _
  case h_3 hk =>
    rw [hk]
    exact defaultedProperty_extendsTo h.pattern
  case h_4 hk =>
    rw [hk]
    exact rest_extendsTo h.pattern
  case h_5 => exact .of_error rfl

/-- What is declared is converted alike as a target, at any depth. -/
theorem agrees_convert (ctx : Context μ) (n : Cst) : Agrees (convert ctx) n := by
  induction hk : n.height using Nat.strongRecOn generalizing n with
  | ind k ih =>
    have below (c : Cst) (hc : c.height < n.height) : Agrees (convert ctx) c := ih _ (hk ▸ hc) c rfl
    constructor
    case pattern =>
      intro c hc
      rw [convert_eq, convert_eq]
      exact binding_extendsTo (below c hc)
    case member =>
      intro c hc
      rw [convert_eq, convert_eq]
      exact bindingMember_extendsTo (below c hc)

theorem convert_binding_extendsTo (ctx : Context μ) (n : Cst) :
    ExtendsTo (convert ctx .binding n) (convert ctx .target n) := by
  rw [convert_eq, convert_eq]
  exact binding_extendsTo (agrees_convert ctx n)

end Convert

/-- **What may be declared may be assigned to**: syntax that has a conversion as a declared name or
pattern has the same as a target of an assignment, labels included. -/
theorem Program.target_of_binding {source : Source} {options : Options} {n : Cst} {node : Node}
    (h : (Convert.convert (context source options) .binding n).result = .ok node) :
    (Convert.convert (context source options) .target n).result = .ok node :=
  (Convert.convert_binding_extendsTo _ n).result_eq_ok h

/-- The tree of `{a=1,b:[,...c]}` where it is declared. -/
def nestedPattern : Cst :=
  .node { label := "object_pattern", isNamed := true, start := 0, stop := 15 } [
    .node { label := "\x7b", start := 0, stop := 1 } [],
    .node { label := "object_assignment_pattern", isNamed := true, start := 1, stop := 4 } [
      .node { label := "shorthand_property_identifier_pattern", isNamed := true, start := 1,
              stop := 2, field := some "left" } [],
      .node { label := "=", start := 2, stop := 3 } [],
      .node { label := "number", isNamed := true, start := 3, stop := 4,
              field := some "right" } []],
    .node { label := ",", start := 4, stop := 5 } [],
    .node { label := "pair_pattern", isNamed := true, start := 5, stop := 14 } [
      .node { label := "property_identifier", isNamed := true, start := 5, stop := 6,
              field := some "key" } [],
      .node { label := ":", start := 6, stop := 7 } [],
      .node { label := "array_pattern", isNamed := true, start := 7, stop := 14,
              field := some "value" } [
        .node { label := "[", start := 7, stop := 8 } [],
        .node { label := ",", start := 8, stop := 9 } [],
        .node { label := "rest_pattern", isNamed := true, start := 9, stop := 13 } [
          .node { label := "...", start := 9, stop := 12 } [],
          .node { label := "identifier", isNamed := true, start := 12, stop := 13 } []],
        .node { label := "]", start := 13, stop := 14 } []]],
    .node { label := "\x7d", start := 14, stop := 15 } []]

theorem nestedPattern_target_of_binding :
    ∃ node : Node,
      (Convert.convert (Program.context (.ofString "\x7ba=1,b:[,...c]\x7d") {}) .binding
        nestedPattern).result = .ok node ∧
      (Convert.convert (Program.context (.ofString "\x7ba=1,b:[,...c]\x7d") {}) .target
        nestedPattern).result = .ok node := by
  obtain ⟨node, h⟩ : ∃ node : Node,
      (Convert.convert (Program.context (.ofString "\x7ba=1,b:[,...c]\x7d") {}) .binding
        nestedPattern).result = .ok node := ⟨_, rfl⟩
  exact ⟨node, h, Program.target_of_binding h⟩

end Estree
