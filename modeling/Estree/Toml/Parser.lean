import Estree.Number.Literal
import Estree.Text.Scanner
import Estree.Toml.Basic

/-!
# Reading TOML

`Toml.parse?` reads a document of TOML 1.0. Arrays and inline tables may be nested 79 deep, and a
dotted key may have 79 parts. Integers have 64 bits. A float that is too large to be finite is an
error if it is positive.
-/

namespace Estree.Toml

open Scanner

/-! ## Space, line ends and comments -/

def isBlank (c : Char) : Bool := c == ' ' || c == '\t'

def skipBlanks : Scanner Unit := do
  let _ ← takeWhile isBlank

/-- The end of a line: LF or CR LF. -/
def newline : Scanner Unit := char '\n' <|> text "\r\n"

/-- A character that may stand in a comment and, delimiters and backslashes apart, in a string. -/
def isPlain (c : Char) : Bool := c == '\t' || (0x20 ≤ c.toNat && c.toNat != 0x7F)

/-- A comment, up to the end of its line. -/
def comment : Scanner Unit := do
  char '#'
  let _ ← takeWhile isPlain

/-- Blanks, line ends and comments between the items of an array. -/
def gap : Scanner Unit := do
  let blank : Scanner Unit := do
    let _ ← satisfy isBlank
  let _ ← many (blank <|> newline <|> (do comment; newline))

/-! ## Strings -/

/-- The character of an escape, after the backslash. -/
def escape : Scanner Char := do
  let point (digits : Nat) : Scanner Char := do
    match numberOf? 16 (← exactly digits isHex) with
    | some n => if n.isValidChar then return Char.ofNat n else failure
    | none => failure
  match ← next with
  | 'b' => return '\x08'
  | 'f' => return '\x0c'
  | 'n' => return '\n'
  | 'r' => return '\r'
  | 't' => return '\t'
  | '"' => return '"'
  | '\\' => return '\\'
  | 'u' => point 4
  | 'U' => point 8
  | _ => failure

/-- A character between double quotes, escaped or not. -/
def basicChar : Scanner Char :=
  (satisfy fun c => isPlain c && c != '"' && c != '\\') <|> (do char '\\'; escape)

/-- A character between single quotes. -/
def literalChar : Scanner Char := satisfy fun c => isPlain c && c != '\''

/-- A string between the same quotes on one line. -/
def lineString (quote : Char) (content : Scanner Char) : Scanner String := do
  char quote
  let cs ← many content
  char quote
  return String.ofList cs

/-- One or two quotes inside a string that three quotes delimit: the next character is no quote. -/
def innerQuotes (quote : Char) : Scanner (List Char) := do
  let run ← takeWhile1 (· == quote)
  if run.length ≤ 2 then return run else failure

/-- The closing quotes of a string that three quotes delimit. Up to two quotes before them belong to
the string. -/
def closingQuotes (quote : Char) : Scanner (List Char) := do
  let run ← takeWhile1 (· == quote)
  if 3 ≤ run.length && run.length ≤ 5 then return run.drop 3 else failure

/-- A backslash at the end of a line, which leaves out the space up to the next text. -/
def lineContinuation : Scanner (List Char) := do
  char '\\'
  skipBlanks
  newline
  let blank : Scanner Unit := do
    let _ ← satisfy isBlank
  let _ ← many (blank <|> newline)
  return []

/-- A string between three quotes on each side. A line end after the opening ones does not count. -/
def blockString (quote : Char) (content : Scanner (List Char)) : Scanner String := do
  text (String.ofList [quote, quote, quote])
  let _ ← accept newline
  let lineEnd : Scanner (List Char) := do newline; return ['\n']
  let parts ← many (content <|> lineEnd <|> innerQuotes quote)
  let last ← closingQuotes quote
  return String.ofList (parts.flatten ++ last)

/-- A string value in any of the four forms. -/
def string? : Scanner String :=
  blockString '"' (lineContinuation <|> ([·]) <$> basicChar)
    <|> blockString '\'' (([·]) <$> literalChar)
    <|> lineString '"' basicChar
    <|> lineString '\'' literalChar

/-! ## Keys -/

/-- A bare or quoted key. -/
def simpleKey : Scanner String :=
  lineString '"' basicChar <|> lineString '\'' literalChar
    <|> String.ofList <$> takeWhile1 fun c => c.isAlphanum || c == '_' || c == '-'

/-- How many parts a dotted key may have, and how deep values may be nested. -/
def maxDepth : Nat := 79

/-- A dotted key with the blanks around it: its path and its last part. -/
def dottedKey : Scanner (List String × String) := do
  let part : Scanner String := do
    skipBlanks
    let key ← simpleKey
    skipBlanks
    return key
  let parts ← sepBy1 part (char '.')
  match parts.getLast? with
  | some last => if parts.length ≤ maxDepth then return (parts.dropLast, last) else failure
  | none => failure

/-! ## Numbers -/

/-- Digits of a class with single underscores between them, without the underscores. -/
def digits (p : Char → Bool) : Scanner (List Char) := do
  let first ← satisfy p
  let more ← many (do let _ ← accept (char '_'); satisfy p)
  return first :: more

/-- An optional sign. -/
def sign : Scanner (List Char) := do
  match ← maybe (satisfy fun c => c == '+' || c == '-') with
  | some c => return [c]
  | none => return []

/-- The digits of a decimal integer: no leading zero. -/
def decimalDigits : Scanner (List Char) := do
  match ← peek with
  | some '0' => do char '0'; return ['0']
  | _ => digits isDecimal

/-- An integer with its range checked. -/
def checked (n : Int) : Scanner Int :=
  let bound : Int := Nat.pow 2 63
  if -bound ≤ n ∧ n < bound then return n else failure

/-- An integer of another radix after its two-letter mark. -/
def marked (mark : String) (radix : Nat) : Scanner Int := do
  text mark
  match numberOf? radix (← digits fun c => (digitOf radix c).isSome) with
  | some n => checked n
  | none => failure

def integer? : Scanner Int :=
  marked "0x" 16 <|> marked "0o" 8 <|> marked "0b" 2 <|> do
    let s ← sign
    match numberOf? 10 (← decimalDigits) with
    | some n => checked (if s == ['-'] then -(n : Int) else n)
    | none => failure

/-- The exponent of a float, as text. -/
def exponent : Scanner (List Char) := do
  let _ ← satisfy fun c => c == 'e' || c == 'E'
  let s ← sign
  return 'e' :: s ++ (← digits isDecimal)

/-- The fraction of a float, as text. -/
def fraction : Scanner (List Char) := do
  char '.'
  return '.' :: (← digits isDecimal)

/-- A float: an integer with a fraction, an exponent or both. -/
def finiteFloat : Scanner Double := do
  let s ← sign
  let whole ← decimalDigits
  let rest ← exponent <|> (do
    let f ← fraction
    return f ++ (← maybe exponent).getD [])
  match Double.ofText? (s ++ whole ++ rest) with
  | some (.infinite false) => failure
  | some d => return d
  | none => failure

/-- A float that is written as a word. -/
def specialFloat : Scanner Double := do
  let negative := (← sign) == ['-']
  (do text "inf"; return .infinite negative) <|> (do text "nan"; return .nan)

/-! ## Dates and times -/

/-- A number of exactly so many digits within bounds. -/
def field (count low high : Nat) : Scanner Nat := do
  match numberOf? 10 (← exactly count isDecimal) with
  | some n => if low ≤ n && n ≤ high then return n else failure
  | none => failure

/-- The number of days of a month. -/
def daysIn (year month : Nat) : Nat :=
  let leap := year % 4 == 0 && (year % 100 != 0 || year % 400 == 0)
  match month with
  | 2 => if leap then 29 else 28
  | 4 | 6 | 9 | 11 => 30
  | _ => 31

def date : Scanner (Nat × Nat × Nat) := do
  let year ← field 4 0 9999
  char '-'
  let month ← field 2 1 12
  char '-'
  let day ← field 2 1 (daysIn year month)
  return (year, month, day)

/-- A time of day; fractions of a second are read and dropped. -/
def time : Scanner (Nat × Nat × Nat) := do
  let hour ← field 2 0 23
  char ':'
  let minute ← field 2 0 59
  char ':'
  let second ← field 2 0 60
  let _ ← maybe (do char '.'; takeWhile1 isDecimal)
  return (hour, minute, second)

/-- An offset from UTC in minutes. -/
def offset : Scanner Int :=
  (do let _ ← satisfy fun c => c == 'Z' || c == 'z'; return 0) <|> do
    let s ← satisfy fun c => c == '+' || c == '-'
    let hour ← field 2 0 23
    char ':'
    let minute ← field 2 0 59
    let n : Int := (hour * 60 + minute : Nat)
    return if s == '-' then -n else n

def dateTime? : Scanner DateTime :=
  (do
    let d ← date
    let rest ← maybe (do
      let _ ← satisfy fun c => c == 'T' || c == 't' || c == ' '
      let t ← time
      return (t, ← maybe offset))
    return { date := some d, time := rest.map (·.1), offset := rest.bind (·.2) })
  <|> do return { time := some (← time) }

/-! ## Values -/

/-- A value that holds no other values. -/
def scalar : Scanner Toml :=
  string <$> string?
    <|> (do text "true"; return boolean true)
    <|> (do text "false"; return boolean false)
    <|> dateTime <$> dateTime?
    <|> float <$> (finiteFloat <|> specialFloat)
    <|> integer <$> integer?

/-- An array of given items. A comma may stand after the last one. -/
def arrayOf (item : Scanner Toml) : Scanner Toml := do
  char '['
  gap
  let comma : Scanner Unit := do
    gap
    char ','
    gap
  let items ← maybe (sepBy1 item comma)
  if items.isSome then
    let _ ← accept comma
  gap
  char ']'
  return array (items.getD [])

/-- A key, the sign of assignment and a value. -/
def assignmentOf (item : Scanner Toml) : Scanner (List String × String × Toml) := do
  let (path, key) ← dottedKey
  char '='
  skipBlanks
  return (path, key, ← item)

/-- An inline table with given values, on one line. -/
def inlineTableOf (item : Scanner Toml) : Scanner Toml := do
  char '\x7b'
  skipBlanks
  let comma : Scanner Unit := do
    skipBlanks
    char ','
  let pairs ← sepBy1 (assignmentOf item) comma <|> pure []
  skipBlanks
  char '\x7d'
  match pairs.foldlM (fun e (path, key, v) => Entries.assign? v key path e) [] with
  | some entries => return table (Item.entriesToToml entries)
  | none => failure

/-- A value with arrays and inline tables nested at most to the given depth. -/
def value : Nat → Scanner Toml
  | 0 => scalar
  | depth + 1 => do
    match ← peek with
    | some '[' => arrayOf (value depth)
    | some '\x7b' => inlineTableOf (value depth)
    | _ => scalar

/-! ## Documents -/

/-- A header of a table or of an element of an array of tables, or an assignment. -/
def statement : Scanner Statement :=
  (do
    text "[["
    let (path, key) ← dottedKey
    text "]]"
    return .elementHeader path key)
  <|> (do
    char '['
    let (path, key) ← dottedKey
    char ']'
    return .tableHeader path key)
  <|> do
    let (path, key, v) ← assignmentOf (value maxDepth)
    return .assignment path key v

/-- A line: at most one statement and at most one comment. -/
def line : Scanner (Option Statement) := do
  skipBlanks
  let s ← maybe statement
  skipBlanks
  let _ ← accept comment
  return s

/-- The statements of a document. A byte order mark may stand in front. -/
def document : Scanner (List Statement) := do
  let _ ← accept (char '\uFEFF')
  return (← sepBy1 line newline).filterMap id

/-- The table that a whole text defines. -/
def parse? (t : List Char) : Option Toml := (run? document t).bind ofStatements?

end Estree.Toml
