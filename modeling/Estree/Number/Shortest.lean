import Estree.Number.Double

/-!
# The shortest decimal of a double

`Decimal.ofUnits` gives the decimal with the fewest digits that reads back as a given double, and
among those of that length the nearest one. For one digit, two digits and so on up to seventeen it
tries the two neighbours of the value on the decimal grid of that many digits; the reals that round
to the value form an interval, which holds its ends if the significand is even.
-/

namespace Estree

/-- A decimal `d₁.d₂d₃… · 10 ^ exponent`, as its digits and the exponent of the first one. -/
structure Decimal where
  digits : List Char
  exponent : Int
  deriving DecidableEq, Repr, Inhabited

namespace Decimal

/-- The decimal `n * 10 ^ place` without the zeros at its end. -/
def ofScaled (n : Nat) (place : Int) : Decimal where
  digits := match (Nat.toDigits 10 n).reverse.dropWhile (· == '0') with
    | [] => ['0']
    | ds => ds.reverse
  exponent := place + Double.decimalLength n - 1

/-- The exponent of the first digit of a positive magnitude. Every positive double is at least
4.9e-324, so multiplied by 10^324 it has a digit before the point. -/
def leadingExponent (units : Nat) : Int :=
  Double.decimalLength (units * Nat.pow 10 324 / Double.one) - 325

/-- The magnitudes that round to a given one, in quarters of a unit, and whether the ends do. -/
structure Neighbourhood where
  low : Nat
  high : Nat
  closed : Bool

/-- The interval around a magnitude. Below a power of two the doubles stand twice as close. -/
def neighbourhood (units : Nat) : Neighbourhood where
  low := 4 * units -
    (if Double.spacing (units - 1) < Double.spacing units then 1 else 2) * Double.spacing units
  high := 4 * units + 2 * Double.spacing units
  closed := units / Double.spacing units % 2 == 0

/-- Whether `n * 10 ^ place` rounds to the magnitude with this neighbourhood. -/
def Neighbourhood.contains (h : Neighbourhood) (n : Nat) (place : Int) : Bool :=
  let value := 4 * Double.one * n * Nat.pow 10 place.toNat
  let scale := Nat.pow 10 (-place).toNat
  if h.closed then h.low * scale ≤ value && value ≤ h.high * scale
  else h.low * scale < value && value < h.high * scale

/-- The nearest decimal of `count` digits that rounds to the magnitude, if there is one. -/
def ofUnits? (units count : Nat) : Option Decimal :=
  let place := leadingExponent units - count + 1
  let num := units * Nat.pow 10 (-place).toNat
  let den := Double.one * Nat.pow 10 place.toNat
  let below := num / den
  let twice := 2 * (num % den)
  let hood := neighbourhood units
  let belowFits := hood.contains below place
  let aboveFits := hood.contains (below + 1) place
  let preferBelow := twice < den || twice == den && below % 2 == 0
  if belowFits && (preferBelow || !aboveFits) then some (ofScaled below place)
  else if aboveFits then some (ofScaled (below + 1) place)
  else none

/-- The shortest decimal that reads back as this magnitude. Seventeen digits always suffice. -/
def ofUnits (units : Nat) : Decimal :=
  if units = 0 then ⟨['0'], 0⟩
  else ((List.range 17).findSome? fun n => ofUnits? units (n + 1)).getD (ofScaled units (-324))

/-- How a decimal is written: which exponents of the first digit are written with the digits in
their places, and how the others are marked. -/
structure Layout where
  positionalFrom : Int
  positionalTo : Int
  exponentMark : Char
  plusSign : Bool
  keepFraction : Bool

/-- Writes a decimal. -/
def write (l : Layout) (d : Decimal) : List Char :=
  let fraction (ds : List Char) : List Char :=
    if ds.isEmpty then if l.keepFraction then ['.', '0'] else [] else '.' :: ds
  if l.positionalFrom ≤ d.exponent ∧ d.exponent ≤ l.positionalTo then
    if d.exponent < 0 then
      '0' :: '.' :: List.replicate ((-d.exponent).toNat - 1) '0' ++ d.digits
    else
      let whole := d.exponent.toNat + 1
      d.digits.take whole ++ List.replicate (whole - d.digits.length) '0'
        ++ fraction (d.digits.drop whole)
  else
    let tail := d.digits.drop 1
    let sign := if d.exponent < 0 then ['-'] else if l.plusSign then ['+'] else []
    d.digits.take 1 ++ (if tail.isEmpty then [] else '.' :: tail)
      ++ l.exponentMark :: sign ++ Nat.toDigits 10 d.exponent.natAbs

end Decimal

end Estree
