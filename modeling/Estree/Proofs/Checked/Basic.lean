import Mathlib

/-!
# Steps that can fail

Machine words and memory make steps fail that natural numbers and lists do not: an index past the
end, a slice that is none, a sum or product too large for a word, a difference below zero. A
`Checked` computation stops at the first such step. The modules beside go through the algorithms
that work with offsets and indices step by step, and show that no step fails and that the value is
the one that is computed on lists.
-/

namespace Estree

/-- Why a step fails. -/
inductive Panic where
  | index
  | slice
  | overflow
  | underflow
  /-- A loop has not ended after as many rounds as it could need. -/
  | endless
  deriving DecidableEq, Repr

/-- A computation that stops at the first step that fails. -/
abbrev Checked (α : Type) := Except Panic α

namespace Checked

variable {α : Type}

/-- The largest number of 32 bits. -/
def maxU32 : Nat := 2 ^ 32 - 1

/-- The largest number of 64 bits, which offsets and lengths have. -/
def maxUsize : Nat := 2 ^ 64 - 1

/-- The sum of two numbers, which must not exceed a limit. -/
def add (limit a b : Nat) : Checked Nat := if a + b ≤ limit then .ok (a + b) else .error .overflow

/-- The product of two numbers, which must not exceed a limit. -/
def mul (limit a b : Nat) : Checked Nat := if a * b ≤ limit then .ok (a * b) else .error .overflow

def sub (a b : Nat) : Checked Nat := if b ≤ a then .ok (a - b) else .error .underflow

/-- The bits of a word of 32 moved up. What does not fit is lost. -/
def shiftLeft (a k : Nat) : Nat := a * 2 ^ k % 2 ^ 32

/-- The item at an index. -/
def index (as : List α) (i : Nat) : Checked α :=
  match as[i]? with
  | some a => .ok a
  | none => .error .index

/-- The items from one index to another. -/
def slice (as : List α) (start stop : Nat) : Checked (List α) :=
  if start ≤ stop ∧ stop ≤ as.length then .ok ((as.take stop).drop start) else .error .slice

/-- The items from an index on. -/
def sliceFrom (as : List α) (start : Nat) : Checked (List α) :=
  if start ≤ as.length then .ok (as.drop start) else .error .slice

/-- An index moved on in a list. Memory holds no list of more than `2 ^ 63 - 1` items, so an index a
little past the end is a word; an index further on need not be one. -/
def advance (as : List α) (i k : Nat) : Checked Nat := add (as.length + 2) i k

@[simp] theorem ok_bind {β : Type} (a : α) (f : α → Checked β) :
    ((.ok a : Checked α) >>= f) = f a := rfl

variable {as : List α} {limit a b i k start stop : Nat}

theorem add_eq (h : a + b ≤ limit) : add limit a b = .ok (a + b) := if_pos h

theorem mul_eq (h : a * b ≤ limit) : mul limit a b = .ok (a * b) := if_pos h

theorem sub_eq (h : b ≤ a) : sub a b = .ok (a - b) := if_pos h

theorem index_eq {x : α} (h : as[i]? = some x) : index as i = .ok x := by
  rw [index, h]

theorem slice_eq (h : start ≤ stop) (hstop : stop ≤ as.length) :
    slice as start stop = .ok ((as.take stop).drop start) := if_pos ⟨h, hstop⟩

theorem sliceFrom_eq (h : start ≤ as.length) : sliceFrom as start = .ok (as.drop start) := if_pos h

theorem advance_eq (h : i + k ≤ as.length + 2) : advance as i k = .ok (i + k) := if_pos h

end Checked

end Estree
