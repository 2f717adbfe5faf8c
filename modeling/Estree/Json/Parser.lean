import Estree.Json.Basic
import Estree.Text.Digit
import Estree.Text.Scanner

/-!
# Reading JSON

`Json.parse?` reads a whole text as one value. Containers may be nested 127 deep.

A token of digits alone is an integer if it lies from -2^63 to 2^64 - 1. Every other number is a
double. Its digits are read into a significand below 2^64; digits that no longer fit are dropped,
and the significand is then scaled by a power of ten, with one rounding for the significand and one
for each scaling. A number too large to be finite is an error.
-/

namespace Estree

namespace Number

/-- A number in the course of reading: `significand * 10 ^ exponent`. Once a digit did not fit, no
later one of the same run is added. -/
structure Scaled where
  significand : Nat := 0
  exponent : Int := 0
  full : Bool := false

namespace Scaled

/-- Adds a digit if the significand stays below 2^64. -/
def push? (s : Scaled) (digit : Nat) : Option Scaled :=
  let n := s.significand * 10 + digit
  if s.full || Nat.pow 2 64 ≤ n then none else some { s with significand := n }

/-- Adds a digit before the point. One that does not fit counts as a place. -/
def pushWhole (s : Scaled) (digit : Nat) : Scaled :=
  (s.push? digit).getD { s with exponent := s.exponent + 1, full := true }

/-- Adds a digit after the point. One that does not fit is dropped. -/
def pushFraction (s : Scaled) (digit : Nat) : Scaled :=
  match s.push? digit with
  | some s => { s with exponent := s.exponent - 1 }
  | none => { s with full := true }

end Scaled

/-- A power of ten as a double, in units. -/
def powerOfTen (n : Nat) : Nat :=
  match Double.ofDecimal false 1 n with
  | .finite _ units => units
  | _ => Double.limit

/-- Divides a magnitude by `10 ^ 308` the given number of times and by `10 ^ last` at the end,
rounding after each division. -/
def scaleDown (units last : Nat) : Nat → Double
  | 0 => .ofRatio false units (powerOfTen last)
  | steps + 1 =>
    match Double.ofRatio false units (powerOfTen 308) with
    | .finite _ 0 => .finite false 0
    | .finite _ units => scaleDown units last steps
    | d => d

/-- The double of a scaled significand, if it is finite. -/
def Scaled.toDouble? (negative : Bool) (s : Scaled) : Option Double :=
  let sign : Double → Option Double
    | .finite _ units => some (.finite negative units)
    | _ => none
  match Double.ofNat s.significand with
  | .finite _ 0 => sign (.finite false 0)
  | .finite _ units =>
    if s.exponent < 0 then
      let places := (-s.exponent).toNat
      let steps := (places - 1) / 308
      sign (scaleDown units (places - 308 * steps) steps)
    else if s.exponent ≤ 308 then
      sign (.ofUnits false (units * powerOfTen s.exponent.toNat) Double.one)
    else none
  | _ => none

end Number

namespace Json

open Scanner

/-- Space between tokens. -/
def skipSpace : Scanner Unit := do
  let _ ← takeWhile fun c => c == ' ' || c == '\n' || c == '\t' || c == '\r'

/-- One decimal digit and its value. -/
def digit : Scanner Nat := do
  match digitOf 10 (← next) with
  | some d => return d
  | none => failure

/-- The digits before the point: no further digit follows a leading zero. -/
def wholeDigits : Scanner (List Nat) := do
  let first ← digit
  if first == 0 then
    match ← peek with
    | some c => if isDecimal c then failure else return [0]
    | none => return [0]
  else return first :: (← many digit)

/-- The digits after a point, if a point comes next. -/
def fractionDigits : Scanner (Option (List Nat)) := do
  if ← accept (char '.') then
    let first ← digit
    return some (first :: (← many digit))
  else return none

/-- The exponent, if one comes next. -/
def exponentPart : Scanner (Option Int) := do
  if ← accept (satisfy fun c => c == 'e' || c == 'E') then
    let sign ← maybe (satisfy fun c => c == '+' || c == '-')
    let first ← digit
    let n : Nat := (first :: (← many digit)).foldl (fun acc d => acc * 10 + d) 0
    return some (if sign == some '-' then -(n : Int) else n)
  else return none

/-- A number. The integers are those of 64 bits, signed or not. -/
def number? : Scanner Number := do
  let negative ← accept (char '-')
  let whole := (← wholeDigits).foldl Number.Scaled.pushWhole {}
  let fraction ← fractionDigits
  let exponent ← exponentPart
  let n := whole.significand
  if fraction.isNone && exponent.isNone && !whole.full
      && (!negative || (n != 0 && n ≤ Nat.pow 2 63)) then
    return .integer (if negative then -(n : Int) else n)
  else
    let scaled := (fraction.getD []).foldl Number.Scaled.pushFraction { whole with full := false }
    let scaled := { scaled with exponent := scaled.exponent + exponent.getD 0 }
    match scaled.toDouble? negative with
    | some d => return .double d
    | none => failure

/-- Four hexadecimal digits. -/
def fourHex : Scanner Nat := do
  match numberOf? 16 (← exactly 4 isHex) with
  | some n => return n
  | none => failure

/-- The character of a `\u` escape: two of them if the first is half of a surrogate pair. -/
def unicodeEscape : Scanner Char := do
  let unit ← fourHex
  if 0xD800 ≤ unit && unit < 0xDC00 then
    text "\\u"
    let low ← fourHex
    if 0xDC00 ≤ low && low < 0xE000 then
      return Char.ofNat (0x10000 + (unit - 0xD800) * 0x400 + (low - 0xDC00))
    else failure
  else if 0xDC00 ≤ unit && unit < 0xE000 then failure
  else return Char.ofNat unit

/-- One character of a string, escaped or not. -/
def stringChar : Scanner Char := do
  let c ← next
  if c == '\\' then
    match ← next with
    | '"' => return '"'
    | '\\' => return '\\'
    | '/' => return '/'
    | 'b' => return '\x08'
    | 'f' => return '\x0c'
    | 'n' => return '\n'
    | 'r' => return '\r'
    | 't' => return '\t'
    | 'u' => unicodeEscape
    | _ => failure
  else if c == '"' || c.toNat < 0x20 then failure
  else return c

/-- A string with its quotes. -/
def stringLiteral : Scanner String := do
  char '"'
  let cs ← many stringChar
  char '"'
  return String.ofList cs

/-- A comma with the space around it. -/
def comma : Scanner Unit := do
  skipSpace
  char ','
  skipSpace

/-- A value that is no container. -/
def scalar : Scanner Json := do
  match ← peek with
  | some '"' => return string (← stringLiteral)
  | some 'n' => do text "null"; return null
  | some 't' => do text "true"; return bool true
  | some 'f' => do text "false"; return bool false
  | _ => return number (← number?)

/-- An array of given items. -/
def arrayOf (item : Scanner Json) : Scanner Json := do
  char '['
  skipSpace
  let items ← sepBy1 item comma <|> pure []
  skipSpace
  char ']'
  return array items

/-- An object with members of given values. -/
def objectOf (item : Scanner Json) : Scanner Json := do
  char '\x7b'
  skipSpace
  let member : Scanner (String × Json) := do
    let key ← stringLiteral
    skipSpace
    char ':'
    skipSpace
    return (key, ← item)
  let members ← sepBy1 member comma <|> pure []
  skipSpace
  char '\x7d'
  return object members

/-- A value with containers nested at most to the given depth. -/
def value : Nat → Scanner Json
  | 0 => scalar
  | depth + 1 => do
    match ← peek with
    | some '[' => arrayOf (value depth)
    | some '\x7b' => objectOf (value depth)
    | _ => scalar

/-- How deep containers may be nested. -/
def maxDepth : Nat := 127

/-- The value that a whole text writes, with space around it. -/
def parse? (t : List Char) : Option Json :=
  run? (do skipSpace; let j ← value maxDepth; skipSpace; return j) t

end Json

end Estree
