import Estree.Convert.Context
import Mathlib.Data.List.Forall2

/-!
# Laws of outcomes

When the parts of a conversion succeed (`Outcome.result_bind_eq_ok` and its companions for maps,
lists and optional parts), and when two conversions run alike (`Outcome.Alike`): they record alike
events and then both succeed with related values or both stop with related failures. A first
conversion that stops with a failure that is excused runs alike with any second one. Running alike is
closed under the operations that rules are built from.
-/

namespace Estree

/-! ## Success -/

namespace Outcome

variable {α β : Type}

theorem result_map (x : Outcome α) (f : α → β) : (f <$> x).result = x.result.map f := by
  rw [← bind_pure_comp]
  rcases h : x.result with u | a
  · exact result_bind_error h _
  · exact result_bind_ok h _

theorem result_map_eq_ok {x : Outcome α} {f : α → β} {b : β} :
    (f <$> x).result = .ok b ↔ ∃ a, x.result = .ok a ∧ f a = b := by
  rw [← bind_pure_comp, result_bind_eq_ok]
  simp

theorem result_map_eq_error {x : Outcome α} {f : α → β} {u : Unsupported} :
    (f <$> x).result = .error u ↔ x.result = .error u := by
  rw [result_map]
  cases x.result <;> simp [Except.map]

theorem result_mapM_eq_ok {f : α → Outcome β} {as : List α} {bs : List β} :
    (as.mapM f).result = .ok bs ↔ List.Forall₂ (fun a b => (f a).result = .ok b) as bs := by
  induction as generalizing bs with
  | nil => simp [eq_comm]
  | cons a as ih =>
    simp only [List.mapM_cons, result_bind_eq_ok, ih, result_pure, Except.ok.injEq,
      List.forall₂_cons_left_iff]
    grind

/-- A list of conversions fails as its first member that does. -/
theorem result_mapM_eq_error {f : α → Outcome β} {as : List α} {u : Unsupported} :
    (as.mapM f).result = .error u ↔ ∃ before a behind, as = before ++ a :: behind ∧
      (∀ b ∈ before, ∃ c, (f b).result = .ok c) ∧ (f a).result = .error u := by
  induction as with
  | nil => simp
  | cons a as ih =>
    rw [List.mapM_cons]
    cases ha : (f a).result with
    | error v =>
      rw [result_bind_error ha]
      constructor
      · rintro ⟨⟩
        exact ⟨[], a, as, rfl, nofun, ha⟩
      · rintro ⟨before, b, behind, hsplit, hbefore, hb⟩
        cases before with
        | nil =>
          cases hsplit
          cases ha.symm.trans hb
          rfl
        | cons c before =>
          cases hsplit
          obtain ⟨t, ht⟩ := hbefore _ List.mem_cons_self
          cases ha.symm.trans ht
    | ok t =>
      rw [result_bind_ok ha, bind_pure_comp, result_map_eq_error, ih]
      constructor
      · rintro ⟨before, b, behind, rfl, hbefore, hb⟩
        exact ⟨a :: before, b, behind, rfl, List.forall_mem_cons.2 ⟨⟨t, ha⟩, hbefore⟩, hb⟩
      · rintro ⟨before, b, behind, hsplit, hbefore, hb⟩
        cases before with
        | nil =>
          cases hsplit
          cases ha.symm.trans hb
        | cons c before =>
          cases hsplit
          exact ⟨before, b, behind, rfl, (List.forall_mem_cons.1 hbefore).2, hb⟩

/-- What a list of conversions builds comes from a member of the list. -/
theorem exists_of_mem_mapM {f : α → Outcome β} {as : List α} {bs : List β}
    (h : (as.mapM f).result = .ok bs) {b : β} (hb : b ∈ bs) :
    ∃ a ∈ as, (f a).result = .ok b := by
  induction result_mapM_eq_ok.1 h with
  | nil => cases hb
  | cons hab hs ih =>
    cases hb with
    | head => exact ⟨_, List.mem_cons_self, hab⟩
    | tail _ hb =>
      obtain ⟨a, ha, hab⟩ := ih (result_mapM_eq_ok.2 hs) hb
      exact ⟨a, .tail _ ha, hab⟩

theorem result_onSome_eq_ok {f : α → Outcome β} {o : Option α} {r : Option β} :
    (onSome f o).result = .ok r ↔ Option.Rel (fun a b => (f a).result = .ok b) o r := by
  cases o with
  | none => cases r <;> simp [onSome]
  | some a => cases r <;> simp [onSome, result_map_eq_ok]

end Outcome

namespace Context

variable {μ : Type} {ctx : Context μ} {n c : Cst} {name : String}

theorem result_unexpected_ne {α : Type} {a : α} : (ctx.unexpected n).result ≠ .ok a := nofun

theorem result_field : (ctx.field n name).result = .ok c ↔ n.field? name = some c := by
  unfold field
  split <;> simp_all [result_unexpected_ne]

theorem result_firstNamed : (ctx.firstNamed n).result = .ok c ↔ n.named.head? = some c := by
  unfold firstNamed
  split <;> simp_all [result_unexpected_ne]

theorem result_expect {kind : Kind} {u : Unit} :
    (ctx.expect kind n).result = .ok u ↔ n.kind = kind := by
  unfold expect
  split <;> simp_all [result_unexpected_ne]

end Context

/-! ## Running alike -/

section

variable (X : Unsupported → Prop) (E : Unsupported → Unsupported → Prop)

/-- Two events tell of the same, up to what relates the failures. -/
inductive Event.Alike : Event → Event → Prop
  | unusableRegex {pattern flags : String} :
    Event.Alike (.unusableRegex pattern flags) (.unusableRegex pattern flags)
  | unsupported {u v : Unsupported} : E u v → Event.Alike (.unsupported u) (.unsupported v)

variable {α β : Type}

/-- Two results are both values that `V` relates, or both failures that `E` relates. -/
inductive ResultAlike (V : α → β → Prop) : Except Unsupported α → Except Unsupported β → Prop
  | ok {a : α} {b : β} : V a b → ResultAlike V (.ok a) (.ok b)
  | error {u v : Unsupported} : E u v → ResultAlike V (.error u) (.error v)

/-- A conversion stops with a failure that is excused. -/
def Outcome.Stops (x : Outcome α) : Prop := ∃ u, x.result = .error u ∧ X u

/-- Two conversions record alike events and have alike results, or the first one stops with a failure
that is excused. -/
inductive Outcome.Alike (V : α → β → Prop) (x : Outcome α) (y : Outcome β) : Prop
  | stops : x.Stops X → Alike V x y
  | same : List.Forall₂ (Event.Alike E) x.events y.events → ResultAlike E V x.result y.result →
    Alike V x y

end

namespace Outcome.Stops

variable {X : Unsupported → Prop} {α β : Type} {x : Outcome α}

theorem bind {k : α → Outcome β} (h : x.Stops X) : (x >>= k).Stops X := by
  obtain ⟨u, hu, hX⟩ := h
  exact ⟨u, result_bind_error hu k, hX⟩

/-- A conversion stops if what follows a success of its first part does. -/
theorem of_ok {k : α → Outcome β} {a : α} (hx : x.result = .ok a) (h : (k a).Stops X) :
    (x >>= k).Stops X := by
  obtain ⟨u, hu, hX⟩ := h
  exact ⟨u, (result_bind_ok hx k).trans hu, hX⟩

theorem result_ne {a : α} (h : x.Stops X) : x.result ≠ .ok a := by
  obtain ⟨u, hu, -⟩ := h
  simp [hu]

end Outcome.Stops

namespace Outcome.Alike

variable {X : Unsupported → Prop} {E : Unsupported → Unsupported → Prop} {α β γ δ : Type}
variable {V : α → β → Prop} {W : γ → δ → Prop} {x : Outcome α} {y : Outcome β}

theorem pure {a : α} {b : β} (h : V a b) :
    Alike X E V (Pure.pure a : Outcome α) (Pure.pure b : Outcome β) := .same .nil (.ok h)

theorem fail {u v : Unsupported} (h : E u v) :
    Alike X E V (Outcome.fail u : Outcome α) (Outcome.fail v : Outcome β) :=
  .same (.cons (.unsupported h) .nil) (.error h)

theorem record {pattern flags : String} :
    Alike X E (fun _ _ => True) (Outcome.record (.unusableRegex pattern flags))
      (Outcome.record (.unusableRegex pattern flags)) :=
  .same (.cons .unusableRegex .nil) (.ok trivial)

/-- Where every failure counts as itself, a conversion runs alike with itself. -/
theorem refl (hE : ∀ u, E u u) (x : Outcome α) : Alike X E Eq x x := by
  refine .same (List.forall₂_same.2 fun e _ => ?_) ?_
  · cases e with
    | unusableRegex => exact .unusableRegex
    | unsupported u => exact .unsupported (hE u)
  · cases x.result with
    | ok => exact .ok rfl
    | error u => exact .error (hE u)

theorem bind {k : α → Outcome γ} {l : β → Outcome δ} (h : Alike X E V x y)
    (hk : ∀ a b, x.result = .ok a → y.result = .ok b → V a b → Alike X E W (k a) (l b)) :
    Alike X E W (x >>= k) (y >>= l) := by
  cases h with
  | stops h => exact .stops h.bind
  | same events result =>
    obtain ⟨xs, rx⟩ := x
    obtain ⟨ys, ry⟩ := y
    cases result with
    | ok hab =>
      cases hk _ _ rfl rfl hab with
      | stops h => exact .stops (.of_ok rfl h)
      | same events' result' => exact .same (List.rel_append events events') result'
    | error huv => exact .same events (.error huv)

/-- Where the value of the first parts does not matter to what relates them. -/
theorem seq {k : α → Outcome γ} {l : β → Outcome δ} (h : Alike X E V x y)
    (hk : ∀ a b, Alike X E W (k a) (l b)) : Alike X E W (x >>= k) (y >>= l) :=
  h.bind fun a b _ _ _ => hk a b

theorem map {f : α → γ} {g : β → δ} (h : Alike X E V x y) (hf : ∀ a b, V a b → W (f a) (g b)) :
    Alike X E W (f <$> x) (g <$> y) := by
  rw [← bind_pure_comp, ← bind_pure_comp]
  exact h.bind fun a b _ _ hab => pure (hf a b hab)

theorem mono {U : α → β → Prop} (h : Alike X E V x y) (hU : ∀ a b, V a b → U a b) :
    Alike X E U x y := by
  cases h with
  | stops h => exact .stops h
  | same events result =>
    refine .same events ?_
    generalize x.result = r, y.result = q at result ⊢
    cases result with
    | ok hab => exact .ok (hU _ _ hab)
    | error huv => exact .error huv

theorem mapM {R : γ → δ → Prop} {f : γ → Outcome α} {g : δ → Outcome β} {cs : List γ}
    {ds : List δ} (h : List.Forall₂ R cs ds)
    (hf : ∀ c ∈ cs, ∀ d ∈ ds, R c d → Alike X E V (f c) (g d)) :
    Alike X E (List.Forall₂ V) (cs.mapM f) (ds.mapM g) := by
  induction h with
  | nil => exact pure .nil
  | @cons c d cs ds hcd _ ih =>
    rw [List.mapM_cons, List.mapM_cons]
    refine (hf c List.mem_cons_self d List.mem_cons_self hcd).bind fun a b _ _ hab => ?_
    refine (ih fun c hc d hd => hf c (.tail _ hc) d (.tail _ hd)).bind fun as bs _ _ habs => ?_
    exact pure (.cons hab habs)

theorem onSome {R : γ → δ → Prop} {f : γ → Outcome α} {g : δ → Outcome β} {o : Option γ}
    {p : Option δ} (h : Option.Rel R o p)
    (hf : ∀ c d, o = some c → p = some d → R c d → Alike X E V (f c) (g d)) :
    Alike X E (Option.Rel V) (Outcome.onSome f o) (Outcome.onSome g p) := by
  cases h with
  | none => exact pure .none
  | @some c d hcd =>
    rw [Outcome.onSome, Outcome.onSome]
    exact (hf c d rfl rfl hcd).bind fun a b _ _ hab => pure (.some hab)

/-- Where no failure is excused, the results are alike. -/
theorem result (h : Alike (fun _ => False) E V x y) : ResultAlike E V x.result y.result := by
  cases h with
  | stops h => exact h.elim fun _ hu => hu.2.elim
  | same _ result => exact result

/-- Running alike up to equality is being equal. -/
theorem eq {y : Outcome α} (h : Alike (fun _ => False) Eq Eq x y) : x = y := by
  cases h with
  | stops h => exact h.elim fun _ hu => hu.2.elim
  | same events result =>
    obtain ⟨xs, rx⟩ := x
    obtain ⟨ys, ry⟩ := y
    have same : Event.Alike Eq = Eq := by
      funext a b
      refine propext ⟨?_, ?_⟩
      · rintro (_ | rfl) <;> rfl
      · rintro rfl
        cases a with
        | unusableRegex => exact .unusableRegex
        | unsupported => exact .unsupported rfl
    have hevents : xs = ys := List.forall₂_eq_eq_eq ▸ same ▸ events
    cases result with
    | ok hab => rw [hevents, hab]
    | error huv => rw [hevents, huv]

end Outcome.Alike

end Estree
