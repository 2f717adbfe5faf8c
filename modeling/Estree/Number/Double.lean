/-!
# Binary floating point numbers of 64 bits

Every finite double is a whole number of *units* of 2^-1074, the smallest positive double. A
magnitude is kept as that natural number, so equality of magnitudes is equality of naturals and
every operation is exact arithmetic followed by one rounding (`Double.ofUnits`). The naturals that
are doubles are those of at most 53 significant bits below `Double.limit`; `Double.ofUnits` yields
no others.
-/

namespace Estree

/-- A double: a signed number of units of 2^-1074, an infinity, or not a number. -/
inductive Double where
  | finite (negative : Bool) (units : Nat)
  | infinite (negative : Bool)
  | nan
  deriving DecidableEq, Repr, Inhabited

namespace Double

/-- The number one in units. -/
def one : Nat := Nat.pow 2 1074

/-- The first magnitude that is too large to be finite: 2^1024 in units. -/
def limit : Nat := Nat.pow 2 2098

/-- The distance between neighbouring doubles around a magnitude: 53 significant bits are kept. -/
def spacing (units : Nat) : Nat := Nat.pow 2 (units.log2 - 52)

/-- The multiple of `step` nearest to `num / den`, an even multiple if two are equally near. -/
def nearestMultiple (step num den : Nat) : Nat :=
  let whole := num / (den * step)
  let twice := 2 * (num % (den * step))
  if twice < den * step then whole * step
  else if den * step < twice then (whole + 1) * step
  else (whole + whole % 2) * step

/-- The double nearest to `num / den` units, ties to even. -/
def ofUnits (negative : Bool) (num den : Nat) : Double :=
  let units := nearestMultiple (spacing (num / den)) num den
  if units < limit then finite negative units else infinite negative

/-- The double nearest to `num / den`. -/
def ofRatio (negative : Bool) (num den : Nat) : Double := ofUnits negative (num * one) den

def ofNat (n : Nat) : Double := ofRatio false n 1

def ofInt : Int → Double
  | .ofNat n => ofRatio false n 1
  | .negSucc n => ofRatio true (n + 1) 1

/-- How many decimal digits a number has. Zero has one. -/
def decimalLength (n : Nat) : Nat := (Nat.toDigits 10 n).length

/-- The double nearest to `significand * 10 ^ exponent`. Where the first digit stands beyond the
310th place before the point the result is infinite, and where it stands beyond the 330th place
after it the result is zero, so no power of ten is computed that cannot matter. -/
def ofDecimal (negative : Bool) (significand : Nat) (exponent : Int) : Double :=
  let places := exponent + decimalLength significand
  if significand = 0 ∨ places < -330 then finite negative 0
  else if 310 < places then infinite negative
  else if exponent < 0 then ofRatio negative significand (Nat.pow 10 (-exponent).toNat)
  else ofRatio negative (significand * Nat.pow 10 exponent.toNat) 1

/-- Equality of numbers: zero has one value whatever its sign, and nothing equals what is not a
number. -/
def same : Double → Double → Bool
  | finite s a, finite t b => a == b && (s == t || a == 0)
  | infinite s, infinite t => s == t
  | _, _ => false

/-- The integer that a double is, if it is one. -/
def toInt? : Double → Option Int
  | finite negative units =>
    if units % one = 0 then
      let n : Int := (units / one : Nat)
      some (if negative then -n else n)
    else none
  | _ => none

def isFinite : Double → Bool
  | finite .. => true
  | _ => false

end Double

end Estree
