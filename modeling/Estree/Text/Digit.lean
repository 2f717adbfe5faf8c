/-!
# Digits of a radix

The value of a character as a digit, and of a list of digits as a number. Letters count from ten, in
either case.
-/

namespace Estree

/-- The value of a character as a digit below 36, if it is one. -/
def digitValue (c : Char) : Option Nat :=
  if '0' ≤ c ∧ c ≤ '9' then some (c.toNat - '0'.toNat)
  else if 'a' ≤ c ∧ c ≤ 'z' then some (c.toNat - 'a'.toNat + 10)
  else if 'A' ≤ c ∧ c ≤ 'Z' then some (c.toNat - 'A'.toNat + 10)
  else none

/-- The value of a character as a digit of a radix, if it is one. -/
def digitOf (radix : Nat) (c : Char) : Option Nat := (digitValue c).filter (· < radix)

theorem digitOf_lt {radix d : Nat} {c : Char} (h : digitOf radix c = some d) : d < radix := by
  simpa using (Option.filter_eq_some_iff.1 h).2

/-- Whether a character is a decimal digit. -/
def isDecimal (c : Char) : Bool := (digitOf 10 c).isSome

/-- Whether a character is a hexadecimal digit. -/
def isHex (c : Char) : Bool := (digitOf 16 c).isSome

/-- Whether a character is an octal digit. -/
def isOctal (c : Char) : Bool := (digitOf 8 c).isSome

/-- The number that digits of a radix write, the most significant first. -/
def numberOf? (radix : Nat) (digits : List Char) : Option Nat :=
  digits.foldlM (fun acc c => (digitOf radix c).map (acc * radix + ·)) 0

end Estree
