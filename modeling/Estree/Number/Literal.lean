import Estree.Number.Double
import Estree.Text.Digit

/-!
# Numbers as they are written

`Double.ofText?` reads a decimal, an infinity or a NaN, with an optional sign; a decimal is rounded
once. `NumericLiteral.value?` reads a literal of the language: digit separators and the suffix of
big integers are dropped, the prefixes `0x`, `0o` and `0b` choose a radix, and digits below eight
after a leading zero are octal. A number of another radix grows digit by digit, with one rounding
per digit.
-/

namespace Estree

namespace Double

/-- A decimal exponent: an optional sign and at least one digit, up to the end of the text. -/
def exponentOf? (cs : List Char) : Option Int :=
  let magnitude (ds : List Char) : Option Nat := if ds.isEmpty then none else numberOf? 10 ds
  match cs with
  | '-' :: ds => (magnitude ds).map fun n => -(n : Int)
  | '+' :: ds => (magnitude ds).map fun n => (n : Int)
  | ds => (magnitude ds).map fun n => (n : Int)

/-- A decimal without a sign: digits with at most one point, at least one digit in all, and an
optional exponent. -/
def ofUnsigned? (negative : Bool) (cs : List Char) : Option Double := do
  let whole := cs.takeWhile isDecimal
  let rest := cs.dropWhile isDecimal
  let (fraction, rest) := match rest with
    | '.' :: rest => (rest.takeWhile isDecimal, rest.dropWhile isDecimal)
    | _ => ([], rest)
  if whole.isEmpty && fraction.isEmpty then none
  let exponent ← match rest with
    | [] => some 0
    | c :: rest => if c = 'e' ∨ c = 'E' then exponentOf? rest else none
  let significand ← numberOf? 10 (whole ++ fraction)
  some (ofDecimal negative significand (exponent - fraction.length))

/-- The double that a text writes. Letters may have either case. -/
def ofText? (cs : List Char) : Option Double :=
  let (negative, body) := match cs with
    | '-' :: rest => (true, rest)
    | '+' :: rest => (false, rest)
    | _ => (false, cs)
  let word := String.ofList (body.map Char.toLower)
  if word = "inf" ∨ word = "infinity" then some (infinite negative)
  else if word = "nan" then some nan
  else ofUnsigned? negative body

/-- The number with one more digit of a radix at its end, rounded. -/
def appendDigit (radix : Nat) (d : Double) (digit : Nat) : Double :=
  match d with
  | finite negative units => ofUnits negative (units * radix + digit * one) 1
  | d => d

end Double

namespace NumericLiteral

/-- The value of digits of a radix. -/
def ofDigits? (radix : Nat) (digits : List Char) : Option Double :=
  if digits.isEmpty then none
  else digits.foldlM (fun acc c => (digitOf radix c).map (acc.appendDigit radix)) (.finite false 0)

/-- Whether a literal is octal for its leading zero alone. -/
def isLegacyOctal (cs : List Char) : Bool :=
  1 < cs.length && cs.head? == some '0' && cs.all isOctal

/-- The text without digit separators and without one suffix `n`. -/
def bare (raw : List Char) : List Char :=
  let text := raw.filter (· != '_')
  if text.getLast? = some 'n' then text.dropLast else text

/-- The value of a numeric literal. -/
def value? (raw : List Char) : Option Double :=
  match bare raw with
  | '0' :: 'x' :: digits | '0' :: 'X' :: digits => ofDigits? 16 digits
  | '0' :: 'o' :: digits | '0' :: 'O' :: digits => ofDigits? 8 digits
  | '0' :: 'b' :: digits | '0' :: 'B' :: digits => ofDigits? 2 digits
  | text => if isLegacyOctal text then ofDigits? 8 text else Double.ofText? text

end NumericLiteral

end Estree
