import Estree.Text.Digit

/-!
# Escapes in strings and templates

`cook` evaluates the text between the quotes of a string or between the delimiters of a template. An
escape is read by `escape`, which tells what it stands for and how many characters after the
backslash belong to it.

Both kinds of text read CR and CR LF as LF and drop line continuations. A string allows the octal
escapes of one to three digits and `\8` and `\9`; in a template a digit escape other than a lone
`\0` is an error, and an error anywhere leaves the whole text without a value.
-/

namespace Estree

/-- What kind of text holds an escape. -/
inductive Quote where
  | string
  | template
  deriving DecidableEq, Repr

namespace Escape

/-- The character U+FFFD, which stands for half of a surrogate pair. -/
def replacement : Char := '\uFFFD'

/-- The character of a code point, and U+FFFD for a surrogate. -/
def charOf (point : Nat) : Char := if point.isValidChar then Char.ofNat point else replacement

/-- The code point that at most eight hexadecimal digits write. -/
def hexPoint? (digits : List Char) : Option Nat :=
  if digits.isEmpty || 8 < digits.length then none else numberOf? 16 digits

/-- The code point written after `\u`, in braces or by four digits, and how many characters it
takes. -/
def unicode? (cs : List Char) : Option (Nat × Nat) :=
  if cs.head? = some '{' then do
    let close ← cs.idxOf? '}'
    let point ← hexPoint? ((cs.take close).drop 1)
    if point ≤ 0x10FFFF then some (point, close + 1) else none
  else if (cs.take 4).length = 4 then do
    let point ← hexPoint? (cs.take 4)
    some (point, 4)
  else none

/-- The second half of a surrogate pair, if an escape of one comes first in a text: its code point
and how many characters the escape takes. -/
def lowHalf? (cs : List Char) : Option (Nat × Nat) :=
  match cs with
  | '\\' :: 'u' :: rest => do
    let (low, taken) ← unicode? rest
    if 0xDC00 ≤ low ∧ low < 0xE000 then some (low, taken + 2) else none
  | _ => none

/-- The character of a `\u` escape, with the character count after `\u`. Two escapes that form a
surrogate pair are one character. -/
def unicodeChar? (cs : List Char) : Option (Char × Nat) := do
  let (point, taken) ← unicode? cs
  if 0xD800 ≤ point ∧ point < 0xDC00 then
    match lowHalf? (cs.drop taken) with
    | some (low, more) =>
      some (Char.ofNat (0x10000 + (point - 0xD800) * 0x400 + (low - 0xDC00)), taken + more)
    | none => some (replacement, taken)
  else some (charOf point, taken)

/-- The digits of an octal escape: three at most, and two if three could exceed a byte. -/
def octalDigits (cs : List Char) : List Char :=
  (cs.take (if cs.head?.any (· ≤ '3') then 3 else 2)).takeWhile isOctal

/-- What the escape after a backslash stands for, and how many characters it takes. -/
def escape (quote : Quote) (cs : List Char) : Option (List Char × Nat) :=
  match cs with
  | [] => none
  | 'n' :: _ => some (['\n'], 1)
  | 'r' :: _ => some (['\r'], 1)
  | 't' :: _ => some (['\t'], 1)
  | 'b' :: _ => some (['\x08'], 1)
  | 'f' :: _ => some (['\x0c'], 1)
  | 'v' :: _ => some (['\x0b'], 1)
  | 'x' :: rest =>
    if (rest.take 2).length = 2 then
      (hexPoint? (rest.take 2)).map fun point => ([charOf point], 3)
    else none
  | 'u' :: rest => (unicodeChar? rest).map fun (c, taken) => ([c], taken + 1)
  | '\r' :: '\n' :: _ => some ([], 2)
  | '\r' :: _ | '\n' :: _ | '\u2028' :: _ | '\u2029' :: _ => some ([], 1)
  | c :: rest =>
    if c = '0' ∧ !rest.head?.any isDecimal then some (['\x00'], 1)
    else if isDecimal c then
      match quote with
      | .template => none
      | .string =>
        if isOctal c then
          let digits := octalDigits (c :: rest)
          (numberOf? 8 digits).map fun point => ([charOf point], digits.length)
        else some ([c], 1)
    else some ([c], 1)

end Escape

/-- The value of the text of a string or a template, if every escape in it is valid there. -/
def cook (quote : Quote) : List Char → Option (List Char)
  | [] => some []
  | '\r' :: '\n' :: rest => (cook quote rest).map ('\n' :: ·)
  | '\r' :: rest => (cook quote rest).map ('\n' :: ·)
  | '\\' :: rest =>
    match Escape.escape quote rest with
    | some (value, taken) => (cook quote (rest.drop taken)).map (value ++ ·)
    | none => none
  | c :: rest => (cook quote rest).map (c :: ·)
termination_by cs => cs.length
decreasing_by all_goals simp_wf; try omega

end Estree
