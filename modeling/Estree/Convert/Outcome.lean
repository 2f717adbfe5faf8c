import Estree.Text.Source

/-!
# Outcomes of a conversion

A conversion succeeds, or it stops at the first construct that it has no mapping for. Either way it
has recorded events on its way. `Outcome` is the monad of this: events are kept in order, also when
the conversion stops.
-/

namespace Estree

/-- A construct without a mapping: how it is called and where it starts. -/
structure Unsupported where
  kind : String
  position : Position
  deriving DecidableEq, Repr, Inhabited

namespace Unsupported

/-- The message of the failure. -/
def message (u : Unsupported) : String :=
  "Unexpected node type " ++ u.kind ++ " (" ++ toString u.position.line ++ ":"
    ++ toString u.position.column ++ ")"

end Unsupported

/-- What a conversion records. -/
inductive Event where
  /-- A regular expression literal does not compile. -/
  | unusableRegex (pattern flags : String)
  /-- The conversion stops. -/
  | unsupported (u : Unsupported)
  deriving DecidableEq, Repr, Inhabited

/-- What the log says of an event. -/
def Event.message : Event → String
  | unusableRegex .. => "regular expression not materialized"
  | unsupported _ => "unsupported construct"

/-- The events of a conversion, and its value unless it stopped. -/
structure Outcome (α : Type) where
  events : List Event
  result : Except Unsupported α

namespace Outcome

variable {α β : Type}

/-- Goes on with the value of the first part, and keeps the events of both. -/
def bind (x : Outcome α) (f : α → Outcome β) : Outcome β :=
  match x.result with
  | .ok a => ⟨x.events ++ (f a).events, (f a).result⟩
  | .error u => ⟨x.events, .error u⟩

instance : Monad Outcome where
  pure a := ⟨[], .ok a⟩
  bind := bind

instance : LawfulMonad Outcome := LawfulMonad.mk' Outcome
  (by
    rintro α ⟨events, _ | a⟩
    · simp [Functor.map, bind]
    · simp [Functor.map, bind])
  (by intro α β a f; simp [Bind.bind, Pure.pure, bind])
  (by
    rintro α β γ ⟨events, _ | a⟩ f g
    · simp [Bind.bind, bind]
    · rcases h : (f a).result with u | b <;> simp [Bind.bind, bind, h])

/-- Stops. -/
def fail (u : Unsupported) : Outcome α := ⟨[.unsupported u], .error u⟩

/-- Records an event. -/
def record (e : Event) : Outcome Unit := ⟨[e], .ok ()⟩

@[simp] theorem result_pure (a : α) : (pure a : Outcome α).result = .ok a := rfl

@[simp] theorem events_pure (a : α) : (pure a : Outcome α).events = [] := rfl

theorem result_bind_ok {x : Outcome α} {a : α} (h : x.result = .ok a) (f : α → Outcome β) :
    (x >>= f).result = (f a).result := by
  simp [Bind.bind, bind, h]

theorem result_bind_error {x : Outcome α} {u : Unsupported} (h : x.result = .error u)
    (f : α → Outcome β) : (x >>= f).result = .error u := by
  simp [Bind.bind, bind, h]

/-- A chain succeeds exactly if both of its parts do. -/
theorem result_bind_eq_ok {x : Outcome α} {f : α → Outcome β} {b : β} :
    (x >>= f).result = .ok b ↔ ∃ a, x.result = .ok a ∧ (f a).result = .ok b := by
  rcases h : x.result with u | a <;> simp [Bind.bind, bind, h]

end Outcome

end Estree
