import Estree.Ast.Node
import Estree.Proofs.Outcome
import Estree.Proofs.Tree
import Mathlib.Data.List.Perm.Subperm

/-!
# What a conversion records

A conversion records the regular expressions that it finds unusable, and last the failure if it
stops. The regular expressions are those of the literals without a value in the result
(`Tree.unusable`): each of them is recorded, and none more often than it stands there (`Covers`). It
may be recorded once for two literals, where the rules put one part of the result in two places.

`Outcome.Logs` says this of a conversion, and of a second one that judges regular expressions in
another way (`Context.judging`) that it ends alike: whether an expression compiles decides about a
value, and never about success.
-/

namespace Estree

variable {μ α β : Type}

/-! ## Unusable regular expressions -/

/-- The pattern and the flags of a regular expression literal. -/
def Context.regexOf (ctx : Context μ) (n pattern : Cst) : RegexLiteral :=
  ⟨ctx.text pattern, ((n.field? "flags").map ctx.text).getD ""⟩

/-- The event that a regular expression does not compile. -/
def RegexLiteral.event (r : RegexLiteral) : Event := .unusableRegex r.pattern r.flags

/-- The regular expression that a literal has in place of a value. -/
def Shape.unusable? : Shape α → Option RegexLiteral
  | .literal value _ regex =>
    match value.toJson with
    | .null => regex
    | _ => none
  | _ => none

theorem Shape.unusable?_map (f : α → β) (s : Shape α) : (s.map f).unusable? = s.unusable? := by
  cases s <;> rfl

namespace Tree

/-- The regular expressions that the literals of a tree have in place of values. -/
def unusable (t : Tree μ) : List RegexLiteral :=
  t.fold fun s _ => s.unusable?.toList ++ s.children.flatten

theorem unusable_mk (s : Shape (Tree μ)) (m : μ) :
    (mk s m).unusable = s.unusable?.toList ++ s.children.flatMap unusable := by
  have hmk : (mk s m).unusable
      = (s.map unusable).unusable?.toList ++ (s.map unusable).children.flatten := fold_mk ..
  rw [hmk, Shape.unusable?_map, Shape.children_map, List.flatMap_def]

theorem unusable_subset {u t : Tree μ} (h : IsNode u t) : u.unusable ⊆ t.unusable := by
  induction h with
  | root => exact List.Subset.refl _
  | @child s t c _ hc ih =>
    obtain ⟨shape, m⟩ := s
    intro r hr
    apply ih
    rw [unusable_mk]
    exact List.mem_append_right _ (List.mem_flatMap.2 ⟨c, hc, hr⟩)

theorem mem_unusable {u t : Tree μ} {r : RegexLiteral} (h : IsNode u t)
    (hr : u.shape.unusable? = some r) : r ∈ t.unusable := by
  apply unusable_subset h
  obtain ⟨s, m⟩ := u
  rw [unusable_mk]
  exact List.mem_append_left _ (Option.mem_toList.2 hr)

end Tree

/-- Recorded expressions are what some trees have: each of them, and none too often. -/
structure Covers (rs : List RegexLiteral) (ts : List (Tree μ)) : Prop where
  subperm : rs.Subperm (ts.flatMap Tree.unusable)
  subset : ts.flatMap Tree.unusable ⊆ rs

namespace Covers

variable {rs qs : List RegexLiteral} {t : Tree μ} {ts us : List (Tree μ)} {s : Shape (Tree μ)}

theorem nil : Covers [] ([] : List (Tree μ)) := ⟨List.nil_subperm, List.Subset.refl _⟩

theorem append (h : Covers rs ts) (h' : Covers qs us) : Covers (rs ++ qs) (ts ++ us) := by
  constructor
  · rw [List.flatMap_append]
    exact h.subperm.append h'.subperm
  · rw [List.flatMap_append]
    exact List.append_subset.2 ⟨List.subset_append_of_subset_left _ h.subset,
      List.subset_append_of_subset_right _ h'.subset⟩

theorem perm (h : Covers rs ts) (hp : ts.Perm us) : Covers rs us := by
  have hflat := hp.flatMap_right Tree.unusable
  exact ⟨h.subperm.trans hflat.subperm, fun r hr => h.subset (hflat.mem_iff.2 hr)⟩

/-- A part of a result may stand in a second place. -/
theorem again (h : Covers rs (t :: ts)) : Covers rs (t :: t :: ts) := by
  constructor
  · rw [List.flatMap_cons]
    exact h.subperm.trans (List.sublist_append_right _ _).subperm
  · rw [List.flatMap_cons]
    exact List.append_subset.2 ⟨fun r hr => h.subset (List.mem_append_left _ hr), h.subset⟩

theorem congr (h : Covers rs ts) (heq : ts.flatMap Tree.unusable = us.flatMap Tree.unusable) :
    Covers rs us := ⟨heq ▸ h.subperm, heq ▸ h.subset⟩

/-- A node that is no literal has what its children have. -/
theorem node {m : μ} (hs : s.unusable? = none) (h : Covers rs s.children) :
    Covers rs [Tree.mk s m] := by
  apply h.congr
  rw [List.flatMap_singleton, Tree.unusable_mk, hs, Option.toList_none, List.nil_append]

theorem leaf {m : μ} (hs : s.children = []) (hr : s.unusable?.toList = rs) :
    Covers rs [Tree.mk s m] := by
  have hflat : [Tree.mk s m].flatMap Tree.unusable = rs := by
    rw [List.flatMap_singleton, Tree.unusable_mk, hs, List.flatMap_nil, List.append_nil, hr]
  constructor
  · rw [hflat]
  · rw [hflat]
    exact List.Subset.refl _

/-- Nothing is recorded after the last part. -/
theorem done (h : Covers rs ts) : Covers (rs ++ []) ts := by rwa [List.append_nil]

/-- The last of several fields is followed by nothing. -/
theorem last (h : Covers rs ts) : Covers rs (ts ++ []) := by rwa [List.append_nil]

end Covers

/-- Recorded expressions are what a shape has below, and it is no literal. -/
structure CoversShape (rs : List RegexLiteral) (s : Shape (Tree μ)) : Prop where
  plain : s.unusable? = none
  children : Covers rs s.children

/-! ## Conversions that judge differently -/

/-- The context with another judgement of which regular expressions compile. -/
def Context.judging (ctx : Context μ) (compiles : String → String → Bool) : Context μ :=
  { ctx with compiles }

theorem Context.text_judging {ctx : Context μ} {compiles : String → String → Bool} {n : Cst} :
    (ctx.judging compiles).text n = ctx.text n := rfl

/-- A conversion records regular expressions, which `R` relates to its value, and then the failure if
it stops; a second one ends alike. -/
inductive Outcome.Logs (R : List RegexLiteral → α → Prop) (x y : Outcome α) : Prop
  | ok (rs : List RegexLiteral) {a b : α} : x.events = rs.map RegexLiteral.event →
    x.result = .ok a → y.result = .ok b → R rs a → Logs R x y
  | error (rs : List RegexLiteral) {u : Unsupported} :
    x.events = rs.map RegexLiteral.event ++ [.unsupported u] →
    x.result = .error u → y.result = .error u → Logs R x y

/-- A conversion records nothing but its failure. -/
abbrev Outcome.Quiet (x : Outcome α) : Prop := Logs (fun rs _ => rs = []) x x

namespace Outcome.Logs

variable {R : List RegexLiteral → α → Prop} {W : List RegexLiteral → β → Prop} {x y : Outcome α}
  {k l : α → Outcome β}

theorem pure {a b : α} (h : R [] a) : Logs R (Pure.pure a) (Pure.pure b) := .ok [] rfl rfl rfl h

theorem fail {u : Unsupported} : Logs R (Outcome.fail u) (Outcome.fail u) := .error [] rfl rfl rfl

theorem mono {S : List RegexLiteral → α → Prop} (h : Logs R x y) (hRS : ∀ rs a, R rs a → S rs a) :
    Logs S x y := by
  cases h with
  | ok rs events hx hy h => exact .ok rs events hx hy (hRS _ _ h)
  | error rs events hx hy => exact .error rs events hx hy

theorem error_iff (h : Logs R x y) {u : Unsupported} :
    x.result = .error u ↔ y.result = .error u := by
  cases h with
  | ok rs _ hx hy => simp [hx, hy]
  | error rs _ hx hy => rw [hx, hy]

/-- What follows is recorded after what came before. -/
theorem bind (h : Logs R x y)
    (hk : ∀ rs a b, x.result = .ok a → y.result = .ok b → R rs a →
      Logs (fun qs => W (rs ++ qs)) (k a) (l b)) :
    Logs W (x >>= k) (y >>= l) := by
  cases h with
  | @ok rs a b events hx hy h =>
    have hevents : (x >>= k).events = rs.map RegexLiteral.event ++ (k a).events := by
      simp only [Bind.bind, Outcome.bind, hx, events]
    cases hk rs a b hx hy h with
    | ok qs events' hk hl h' =>
      refine .ok (rs ++ qs) ?_ ((result_bind_ok hx k).trans hk) ((result_bind_ok hy l).trans hl) h'
      rw [hevents, events', List.map_append]
    | error qs events' hk hl =>
      refine .error (rs ++ qs) ?_ ((result_bind_ok hx k).trans hk) ((result_bind_ok hy l).trans hl)
      rw [hevents, events', List.map_append, List.append_assoc]
  | error rs events hx hy =>
    refine .error rs ?_ (result_bind_error hx k) (result_bind_error hy l)
    simp only [Bind.bind, Outcome.bind, hx, events]

theorem seq (h : Logs R x y) (hk : ∀ rs a b, R rs a → Logs (fun qs => W (rs ++ qs)) (k a) (l b)) :
    Logs W (x >>= k) (y >>= l) :=
  h.bind fun rs a b _ _ => hk rs a b

/-- A first part that records nothing and does not depend on how expressions are judged. -/
theorem step (h : x.Quiet) (hk : ∀ a, x.result = .ok a → Logs W (k a) (l a)) :
    Logs W (x >>= k) (x >>= l) := by
  refine h.bind fun rs a b ha hb hrs => ?_
  obtain rfl : a = b := Except.ok.inj (ha.symm.trans hb)
  subst hrs
  exact hk a ha

theorem map {f g : α → β} (h : Logs R x y) (hf : ∀ rs a, R rs a → W rs (f a)) :
    Logs W (f <$> x) (g <$> y) := by
  rw [← bind_pure_comp, ← bind_pure_comp]
  refine h.seq fun rs a b hr => .pure ?_
  rw [List.append_nil]
  exact hf rs a hr

section
variable {γ : Type}

theorem mapM_of {w : β → List (Tree μ)} {f g : γ → Outcome β} {cs : List γ}
    (h : ∀ c ∈ cs, Logs (fun rs b => Covers rs (w b)) (f c) (g c)) :
    Logs (fun rs bs => Covers rs (bs.flatMap w)) (cs.mapM f) (cs.mapM g) := by
  induction cs with
  | nil => exact .pure .nil
  | cons c cs ih =>
    rw [List.mapM_cons, List.mapM_cons]
    refine (h c List.mem_cons_self).seq fun rs b _ hb => ?_
    refine (ih fun c hc => h c (.tail _ hc)).seq fun qs bs _ hbs => .pure ?_
    exact hb.append hbs.done

variable {f g : γ → Outcome (Tree μ)}

theorem mapM {cs : List γ} (h : ∀ c ∈ cs, Logs (Covers · [·]) (f c) (g c)) :
    Logs Covers (cs.mapM f) (cs.mapM g) :=
  (mapM_of h).mono fun rs ts hts => by rwa [List.flatMap_singleton'] at hts

theorem onSome {o : Option γ} (h : ∀ c, o = some c → Logs (Covers · [·]) (f c) (g c)) :
    Logs (fun rs o => Covers rs o.toList) (Outcome.onSome f o) (Outcome.onSome g o) := by
  cases o with
  | none => exact .pure .nil
  | some c => exact (h c rfl).seq fun rs t _ ht => .pure ht.done

end

end Outcome.Logs

theorem CoversShape.node {ctx : Context μ} {n : Cst} {rs : List RegexLiteral} {s : Shape (Tree μ)}
    (h : CoversShape rs s) : Covers rs [ctx.node n s] := .node h.plain h.children

/-- A node is made of a shape without recording anything. -/
theorem Outcome.Logs.node {ctx : Context μ} {compiles : String → String → Bool} {n : Cst}
    {x y : Outcome (Shape (Tree μ))} (h : x.Logs CoversShape y) :
    Logs (Covers · [·]) (ctx.node n <$> x) ((ctx.judging compiles).node n <$> y) :=
  h.map fun _ _ hs => hs.node

namespace Outcome.Quiet

variable {x : Outcome α}

theorem bind {k : α → Outcome β} (h : x.Quiet) (hk : ∀ a, x.result = .ok a → (k a).Quiet) :
    (x >>= k).Quiet := Logs.step h hk

theorem pure {a : α} : Quiet (Pure.pure a) := Logs.pure rfl

theorem fail {u : Unsupported} : Quiet (Outcome.fail u : Outcome α) := Logs.fail

end Outcome.Quiet

/-- A conversion records nothing but its failure, and there is nothing to record in its value. -/
def Outcome.Plain (w : α → List (Tree μ)) (x : Outcome α) : Prop :=
  Logs (fun rs a => rs = [] ∧ Covers [] (w a)) x x

namespace Outcome.Plain

variable {w : α → List (Tree μ)} {x : Outcome α} {a : α}

theorem pure (h : Covers [] (w a)) : Plain w (Pure.pure a) := Logs.pure ⟨rfl, h⟩

theorem fail {u : Unsupported} : Plain w (Outcome.fail u) := Logs.fail

theorem quiet (h : x.Plain w) : x.Quiet := h.mono fun _ _ => And.left

theorem covers (h : x.Plain w) (ha : x.result = .ok a) : Covers [] (w a) := by
  cases h with
  | ok rs _ hx _ h =>
    cases hx.symm.trans ha
    exact h.2
  | error rs _ hx => cases hx.symm.trans ha

theorem step {W : List RegexLiteral → β → Prop} {k l : α → Outcome β} (h : x.Plain w)
    (hk : ∀ a, Covers [] (w a) → Logs W (k a) (l a)) : Logs W (x >>= k) (x >>= l) :=
  Logs.step h.quiet fun a ha => hk a (h.covers ha)

theorem onSome {γ : Type} {f : γ → Outcome (Tree μ)} {o : Option γ} (h : ∀ c, (f c).Plain ([·])) :
    (Outcome.onSome f o).Plain Option.toList := by
  cases o with
  | none => exact pure .nil
  | some c => exact (h c).step fun t ht => pure ht

end Outcome.Plain

namespace Context

variable {ctx : Context μ} {n : Cst}

theorem field_quiet {name : String} : (ctx.field n name).Quiet := by
  unfold field
  split
  · exact .pure
  · exact .fail

theorem firstNamed_quiet : (ctx.firstNamed n).Quiet := by
  unfold firstNamed
  split
  · exact .pure
  · exact .fail

theorem expect_quiet {kind : Kind} : (ctx.expect kind n).Quiet := by
  unfold expect
  split
  · exact .pure
  · exact .fail

theorem reject_quiet {ns : List Cst} : (ctx.reject ns).Quiet := by
  cases ns with
  | nil => exact .pure
  | cons => exact .fail

end Context

/-- Two converters, of which the first records what it finds unusable and the second ends alike. A
plain name, or one that is written as a string, has nothing to record. -/
structure Converter.Logs (f g : Converter μ) : Prop where
  role : ∀ role c, Outcome.Logs (Covers · [·]) (f role c) (g role c)
  name : ∀ c, Outcome.Logs
    (fun rs t => Covers rs [t] ∧ (c.kind.isIdentifier ∨ c.kind = .string → rs = []))
    (f .propertyKey c) (g .propertyKey c)

end Estree
