import Estree.Regex.Property
import Estree.Text.Digit
import Estree.Text.Identifier
import Estree.Text.Scanner

/-!
# Patterns of regular expressions

`Regex.compiles` tells whether a pattern with flags is a regular expression of ECMAScript. A pattern
is read by scanners that follow its grammar and keep only what a later rule asks for: the code point
of a character in a range, whether a set may hold strings, the names of groups.

With the flag `u` or `v` the strict grammar applies, and otherwise the extended one of Annex B,
where a misplaced brace or an unknown escape is a plain character. With `v` a class is a set
expression. The name of a group may be given once in a pattern. Characters are code points under all
flags.
-/

namespace Estree.Regex

open Scanner

/-! ## Grammar -/

/-- What the grammar of a pattern depends on: its flags and its groups. -/
structure Grammar where
  /-- Flag `u` or `v`. -/
  unicode : Bool
  /-- Flag `v`. -/
  sets : Bool
  /-- The names of the groups of the pattern. -/
  names : List (List Nat)
  /-- The number of capturing groups of the pattern. -/
  groups : Nat

/-- Whether `\k` is a reference to a named group and nothing else. -/
def Grammar.hasNames (g : Grammar) : Bool := g.unicode || !g.names.isEmpty

/-- What an element of a class or an escape stands for: one code point, or a set. -/
inductive Atom where
  | point (n : Nat)
  | set
  deriving DecidableEq, Repr

/-! ## Escapes -/

/-- Exactly so many hexadecimal digits. -/
def hexDigits (count : Nat) : Scanner Nat := do
  match numberOf? 16 (← exactly count isHex) with
  | some n => return n
  | none => failure

/-- A code point in braces. -/
def bracedPoint : Scanner Nat := do
  char '\x7b'
  let digits ← takeWhile1 isHex
  char '\x7d'
  match numberOf? 16 digits with
  | some n => if n ≤ 0x10FFFF then return n else failure
  | none => failure

/-- Two escapes of four digits that form a surrogate pair, after the first `\u`. -/
def surrogatePair : Scanner Nat := do
  let high ← hexDigits 4
  text "\\u"
  let low ← hexDigits 4
  if 0xD800 ≤ high && high < 0xDC00 && 0xDC00 ≤ low && low < 0xE000 then
    return 0x10000 + (high - 0xD800) * 0x400 + (low - 0xDC00)
  else failure

/-- The code point after `\u` in the strict grammar. -/
def unicodePoint : Scanner Nat := bracedPoint <|> surrogatePair <|> hexDigits 4

/-- The characters that have a meaning of their own in a pattern. -/
def isSyntaxCharacter (c : Char) : Bool := "^$\\.*+?()[]\x7b\x7d|".toList.contains c

/-- The code point of a letter escape for a control character. -/
def controlEscape? : Char → Option Nat
  | 'f' => some 12
  | 'n' => some 10
  | 'r' => some 13
  | 't' => some 9
  | 'v' => some 11
  | _ => none

/-- A letter after `\c`. -/
def controlLetter : Scanner Nat := do
  let c ← satisfy Char.isAlpha
  return c.toNat % 32

/-- Zero, where no digit follows. -/
def loneZero : Scanner Nat := do
  char '0'
  match ← peek with
  | some c => if isDecimal c then failure else return 0
  | none => return 0

/-- An octal escape of Annex B: at most three digits, and at most 255. -/
def octalEscape : Scanner Nat := do
  let first ← satisfy isOctal
  let more ← takeUpTo (if first ≤ '3' then 2 else 1)
  match numberOf? 8 (first :: more) with
  | some n => return n
  | none => failure
where
  takeUpTo : Nat → Scanner (List Char)
    | 0 => return []
    | n + 1 => do
      match ← maybe (satisfy isOctal) with
      | some c => return c :: (← takeUpTo n)
      | none => return []

/-- A character that an escape stands for, after the backslash. -/
def characterEscape (g : Grammar) : Scanner Nat := do
  match ← peek with
  | none => failure
  | some c =>
    if let some n := controlEscape? c then
      let _ ← next
      return n
    match c, g.unicode with
    | 'c', _ => do char 'c'; controlLetter
    | 'x', true => do char 'x'; hexDigits 2
    | 'x', false => do char 'x'; hexDigits 2 <|> pure c.toNat
    | 'u', true => do char 'u'; unicodePoint
    | 'u', false => do char 'u'; hexDigits 4 <|> pure c.toNat
    | c, true =>
      if c == '0' then loneZero
      else if isSyntaxCharacter c || c == '/' then do let _ ← next; return c.toNat
      else failure
    | c, false =>
      if isOctal c then octalEscape
      else if c == 'k' && g.hasNames then failure
      else do let _ ← next; return c.toNat

/-- A property in braces, after `\p` or `\P`. -/
def property (g : Grammar) : Scanner PropertyDomain := do
  let isNameChar (c : Char) : Bool := c.isAlphanum || c == '_'
  char '\x7b'
  let name := String.ofList (← takeWhile1 isNameChar)
  let value ← maybe (do char '='; takeWhile1 isNameChar)
  char '\x7d'
  match value with
  | some v => if hasValue name (String.ofList v) then return .characters else failure
  | none =>
    match loneProperty? name with
    | some .characters => return .characters
    | some .sequences => if g.sets then return .sequences else failure
    | none => failure

/-- An escape that stands for a set, after the backslash: whether it may hold strings. -/
def classEscape (g : Grammar) : Scanner Bool := do
  let c ← next
  if "dDsSwW".toList.contains c then return false
  else if g.unicode && c == 'p' then return (← property g) == .sequences
  else if g.unicode && c == 'P' then
    if (← property g) == .sequences then failure else return false
  else failure

/-! ## Names of groups -/

/-- A character of a name, escaped or not. -/
def nameChar (p : Nat → Bool) : Scanner Nat := do
  let c ← next
  let n ← if c == '\\' then do char 'u'; unicodePoint else pure c.toNat
  if p n then return n else failure

def isNameStart (n : Nat) : Bool := isIdStart n || n == '$'.toNat || n == '_'.toNat

def isNamePart (n : Nat) : Bool :=
  isIdContinue n || n == '$'.toNat || n == '_'.toNat || n == 0x200C || n == 0x200D

/-- A name in angle brackets. -/
def groupName : Scanner (List Nat) := do
  char '<'
  let first ← nameChar isNameStart
  let more ← many (nameChar isNamePart)
  char '>'
  return first :: more

/-- The capturing groups of a pattern in order, each with its name if it has one. `depth` counts the
open brackets of classes, which nest only with the flag `v`. -/
def captures (sets : Bool) (depth : Nat) : List Char → List (Option (List Nat))
  | [] => []
  | '\\' :: _ :: rest => captures sets depth rest
  | '[' :: rest => captures sets (if sets then depth + 1 else 1) rest
  | ']' :: rest => captures sets (depth - 1) rest
  | '(' :: rest =>
    if depth = 0 then
      match rest with
      | '?' :: more =>
        match groupName more with
        | some (name, _) => some name :: captures sets depth rest
        | none => captures sets depth rest
      | _ => none :: captures sets depth rest
    else captures sets depth rest
  | _ :: rest => captures sets depth rest

/-! ## Classes -/

/-- An element of a class in brackets, without the flag `v`. -/
def bracketAtom (g : Grammar) : Scanner Atom := do
  let c ← satisfy (· != ']')
  if c != '\\' then return .point c.toNat
  else
    (do let _ ← classEscape g; return .set)
    <|> (do char 'b'; return .point 8)
    <|> (if g.unicode then do char '-'; return .point '-'.toNat
      else do
        char 'c'
        let d ← satisfy fun d => isDecimal d || d == '_'
        return .point (d.toNat % 32))
    <|> .point <$> characterEscape g
    <|> (do if !g.unicode && (← peek) == some 'c' then return .point '\\'.toNat else failure)

/-- An element or a range of a class in brackets. A set at an end of a range is an error in the
strict grammar, and so is a range that runs backwards in both. -/
def bracketItem (g : Grammar) : Scanner Unit := do
  let first ← bracketAtom g
  let last ← maybe (do char '-'; bracketAtom g)
  match first, last with
  | _, none => return ()
  | .point low, some (.point high) => if low ≤ high then return () else failure
  | _, some _ => if g.unicode then failure else return ()

/-- A class in brackets, without the flag `v`. -/
def bracketClass (g : Grammar) : Scanner Unit := do
  char '['
  let _ ← accept (char '^')
  let _ ← many (bracketItem g)
  char ']'

/-! ## Set expressions -/

/-- The characters of which two in a row are reserved in a set expression. -/
def isReservedDouble (c : Char) : Bool := "&!#$%*+,.:;<=>?@^\x60~".toList.contains c

/-- The characters that an escape in a set expression may stand for beside those of all patterns. -/
def isReservedPunctuator (c : Char) : Bool := "&-!#%,:;<=>@\x60~".toList.contains c

/-- The characters that have a meaning of their own in a set expression. -/
def isSetSyntax (c : Char) : Bool := "()[]\x7b\x7d/-\\|".toList.contains c

/-- A character of a set expression. -/
def setCharacter (g : Grammar) : Scanner Nat := do
  match ← get with
  | '\\' :: _ => do
    char '\\'
    characterEscape g
      <|> (do let c ← satisfy isReservedPunctuator; return c.toNat)
      <|> (do char 'b'; return 8)
  | c :: rest =>
    if isSetSyntax c || (isReservedDouble c && rest.head? == some c) then failure
    else do let _ ← next; return c.toNat
  | [] => failure

/-- A range of a set expression. -/
def setRange (g : Grammar) : Scanner Unit := do
  let low ← setCharacter g
  char '-'
  let high ← setCharacter g
  if low ≤ high then return () else failure

/-- Alternative strings in braces, after `\q`: whether one of them is no single character. -/
def stringAlternatives (g : Grammar) : Scanner Bool := do
  char '\x7b'
  let strings ← sepBy1 (many (setCharacter g)) (char '|')
  char '\x7d'
  return strings.any (·.length != 1)

/-- An operand of a set expression, given a scanner for nested ones: whether it may hold strings. -/
def setOperand (g : Grammar) (nested : Scanner Bool) : Scanner Bool :=
  nested
  <|> (do text "\\q"; stringAlternatives g)
  <|> (do char '\\'; classEscape g)
  <|> (do let _ ← setCharacter g; return false)

/-- What follows the first operand of an intersection. -/
def intersectionTail (g : Grammar) (nested : Scanner Bool) : Scanner (List Bool) := do
  let step : Scanner Bool := do
    text "&&"
    if (← peek) == some '&' then failure else setOperand g nested
  let first ← step
  return first :: (← many step)

/-- What follows the first operand of a subtraction. -/
def subtractionTail (g : Grammar) (nested : Scanner Bool) : Scanner Unit := do
  let step : Scanner Bool := do text "--"; setOperand g nested
  let _ ← step
  let _ ← many step

/-- What follows the first item of a union, which may hold strings or not. -/
def unionTail (g : Grammar) (nested : Scanner Bool) (strings : Bool) : Scanner Bool := do
  let items ← many ((do setRange g; return false) <|> setOperand g nested)
  return strings || items.any id

/-- A set expression: whether it may hold strings. -/
def setContents (g : Grammar) (nested : Scanner Bool) : Scanner Bool := do
  if ← accept (setRange g) then unionTail g nested false
  else
    match ← maybe (setOperand g nested) with
    | none => return false
    | some first =>
      (do return first && (← intersectionTail g nested).all id)
        <|> (do subtractionTail g nested; return first)
        <|> unionTail g nested first

/-- A class in brackets with the flag `v`, nested at most to the given depth: whether it may hold
strings. A complement must not. -/
def setClass (g : Grammar) : Nat → Scanner Bool
  | 0 => failure
  | depth + 1 => do
    char '['
    let negated ← accept (char '^')
    let strings ← setContents g (setClass g depth)
    char ']'
    if negated && strings then failure else return strings

/-! ## Quantifiers -/

/-- A decimal number. -/
def decimal : Scanner Nat := do
  match numberOf? 10 (← takeWhile1 isDecimal) with
  | some n => return n
  | none => failure

/-- The greatest number of repetitions that a bound tells from greater ones. -/
def maxBound : Nat := Nat.pow 2 64 - 1

/-- A bound of a quantifier. A number above `maxBound` stands for `maxBound`. -/
def bound : Scanner Nat := do
  return min (← decimal) maxBound

/-- Bounds in braces. -/
def bounds : Scanner (Nat × Option Nat) := do
  char '\x7b'
  let low ← bound
  let high ← (do char ','; maybe bound) <|> pure (some low)
  char '\x7d'
  return (low, high)

/-- A quantifier. -/
def quantifier : Scanner Unit := do
  let inOrder : Scanner Unit := do
    let (low, high) ← bounds
    if high.all (low ≤ ·) then return () else failure
  let symbol : Scanner Unit := do
    let _ ← satisfy fun c => c == '*' || c == '+' || c == '?'
  symbol <|> inOrder
  let _ ← accept (char '?')

/-! ## Terms -/

/-- A reference to a group by its number, after the backslash, in the strict grammar. -/
def numberedReference (g : Grammar) : Scanner Unit := do
  match ← peek with
  | some '0' => failure
  | _ => if (← decimal) ≤ g.groups then return () else failure

/-- A reference to a group by its name, after the backslash. -/
def namedReference (g : Grammar) : Scanner Unit := do
  char 'k'
  let name ← groupName
  if g.hasNames && g.names.contains name then return () else failure

/-- An escape outside of classes. -/
def atomEscape (g : Grammar) : Scanner Unit := do
  char '\\'
  (do let _ ← classEscape g)
    <|> namedReference g
    <|> (if g.unicode then numberedReference g else failure)
    <|> (do let _ ← characterEscape g)
    <|> (do if !g.unicode && (← peek) == some 'c' then return () else failure)

/-- A character that stands for itself. In the extended grammar it may be a brace that is no part of
bounds, or a closing bracket. -/
def patternCharacter (g : Grammar) : Scanner Unit := do
  match ← maybe bounds with
  | some _ => failure
  | none =>
    let c ← next
    let plain := !isSyntaxCharacter c
    if plain || (!g.unicode && (c == ']' || c == '\x7b' || c == '\x7d')) then return () else failure

/-- A group in parentheses that begins like this. -/
def groupAfter (opening : Scanner Unit) (inner : Scanner Unit) : Scanner Unit := do
  opening
  inner
  char ')'

/-- The opening of a group that sets and clears flags inside: no flag twice, and at least one if
there is a minus. -/
def modifiers : Scanner Unit := do
  text "(?"
  let isFlag (c : Char) : Bool := c == 'i' || c == 'm' || c == 's'
  let added ← takeWhile isFlag
  let removed ← maybe (do char '-'; takeWhile isFlag)
  char ':'
  let all := added ++ removed.getD []
  if all.Nodup ∧ (removed.isSome → all ≠ []) then return () else failure

/-- The opening of a group with a name. -/
def namedOpening : Scanner Unit := do
  text "(?"
  let _ ← groupName

def lookahead (inner : Scanner Unit) : Scanner Unit :=
  groupAfter (text "(?=" <|> text "(?!") inner

def lookbehind (inner : Scanner Unit) : Scanner Unit :=
  groupAfter (text "(?<=" <|> text "(?<!") inner

/-- An assertion that takes no quantifier. -/
def assertion (g : Grammar) (inner : Scanner Unit) : Scanner Unit :=
  char '^' <|> char '$' <|> text "\\b" <|> text "\\B" <|> lookbehind inner
    <|> (if g.unicode then lookahead inner else failure)

/-- What a quantifier may follow. -/
def atom (g : Grammar) (depth : Nat) (inner : Scanner Unit) : Scanner Unit :=
  char '.' <|> atomEscape g
    <|> (if g.sets then do let _ ← setClass g depth else bracketClass g)
    <|> groupAfter modifiers inner
    <|> groupAfter namedOpening inner
    <|> (if g.unicode then failure else lookahead inner)
    <|> groupAfter (char '(') inner
    <|> patternCharacter g

def term (g : Grammar) (depth : Nat) (inner : Scanner Unit) : Scanner Unit :=
  assertion g inner <|> do
    atom g depth inner
    let _ ← accept quantifier

/-- Alternatives with groups nested at most to the given depth. -/
def disjunction (g : Grammar) : Nat → Scanner Unit
  | 0 => failure
  | depth + 1 => do
    let _ ← sepBy1 (many (term g depth (disjunction g depth))) (char '|')

/-- Whether a pattern belongs to the grammar of its flags and its own groups. -/
def isPattern (unicode sets : Bool) (pattern : List Char) : Bool :=
  let groups := captures sets 0 pattern
  let names := groups.filterMap id
  let g : Grammar := { unicode, sets, names, groups := groups.length }
  names.Nodup && (run? (disjunction g (pattern.length + 1)) pattern).isSome

/-- Whether flags are known ones, each given once, and not both `u` and `v`. -/
def areFlags (flags : List Char) : Bool :=
  flags.all "dgimsuvy".toList.contains && flags.Nodup && !(flags.contains 'u' && flags.contains 'v')

/-- Whether a pattern with flags is a regular expression. -/
def compiles (pattern flags : List Char) : Bool :=
  areFlags flags
    && isPattern (flags.contains 'u' || flags.contains 'v') (flags.contains 'v') pattern

end Estree.Regex
