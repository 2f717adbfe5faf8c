import Estree.Json.Basic
import Estree.Number.Shortest

/-!
# Writing JSON

`Json.compact` writes a value without any space, `Json.pretty` with one item or member per line and
two spaces of indent per level; empty arrays and objects are `[]` and `\x7b\x7d` in both. In strings
only the quote, the backslash and the characters below U+0020 are escaped.
-/

namespace Estree

namespace Number

/-- Doubles are written with the fewest digits that read back; the point stands in its place when
the first digit has an exponent from -5 to 15, and a fraction is always there. -/
def layout : Decimal.Layout where
  positionalFrom := -5
  positionalTo := 15
  exponentMark := 'e'
  plusSign := true
  keepFraction := true

/-- The text of a number. JSON has no text for an infinity or a NaN, so they are `null`. -/
def render : Number → List Char
  | integer n => (toString n).toList
  | double (.finite negative units) =>
    (if negative then ['-'] else []) ++ (Decimal.ofUnits units).write layout
  | double _ => "null".toList

end Number

namespace Json

/-- Two lower-case hexadecimal digits. -/
def hexPair (n : Nat) : List Char := [Nat.digitChar (n / 16), Nat.digitChar (n % 16)]

/-- A character inside a JSON string. -/
def escapeChar (c : Char) : List Char :=
  match c with
  | '"' => ['\\', '"']
  | '\\' => ['\\', '\\']
  | '\x08' => ['\\', 'b']
  | '\t' => ['\\', 't']
  | '\n' => ['\\', 'n']
  | '\x0c' => ['\\', 'f']
  | '\r' => ['\\', 'r']
  | c => if c.toNat < 0x20 then '\\' :: 'u' :: '0' :: '0' :: hexPair c.toNat else [c]

/-- A string with its quotes. -/
def quote (s : String) : String :=
  String.ofList ('"' :: s.toList.flatMap escapeChar ++ ['"'])

/-- The parts of an array or object between its brackets, one per line at the given indent. -/
def enclose (opening closing : String) (indent : Option Nat) (parts : List String) : String :=
  match parts, indent with
  | [], _ => opening ++ closing
  | parts, none => opening ++ String.intercalate "," parts ++ closing
  | parts, some depth =>
    let newline (n : Nat) : String := String.ofList ('\n' :: List.replicate (2 * n) ' ')
    opening ++ newline (depth + 1)
      ++ String.intercalate ("," ++ newline (depth + 1)) parts ++ newline depth ++ closing

mutual

/-- Writes a value. With an indent, which counts levels, every item has its own line. -/
def render (indent : Option Nat) : Json → String
  | null => "null"
  | bool true => "true"
  | bool false => "false"
  | number n => String.ofList n.render
  | string s => quote s
  | array items => enclose "[" "]" indent (renderItems (indent.map (· + 1)) items)
  | object members =>
    enclose "\x7b" "\x7d" indent (renderMembers (indent.map (· + 1)) members)

/-- Writes the items of an array. -/
def renderItems (indent : Option Nat) : List Json → List String
  | [] => []
  | item :: rest => render indent item :: renderItems indent rest

/-- Writes the members of an object. -/
def renderMembers (indent : Option Nat) : List (String × Json) → List String
  | [] => []
  | (key, value) :: rest =>
    (quote key ++ (if indent.isSome then ": " else ":") ++ render indent value)
      :: renderMembers indent rest

end

/-- The text of a value without spaces. -/
def compact (j : Json) : String := render none j

/-- The text of a value with one item or member per line. -/
def pretty (j : Json) : String := render (some 0) j

end Json

end Estree
