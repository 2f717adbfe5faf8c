/-!
# Scanning a text from left to right

A scanner takes characters from the front of a text and yields a value, or fails and takes nothing.
Scanners are chained as a state that may fail, so `p <|> q` tries `q` on the same text. `many`
repeats a scanner at most once per character that is left, which bounds it also for a scanner that
takes nothing.
-/

namespace Estree

/-- A reader of a text from its front. -/
abbrev Scanner := StateT (List Char) Option

namespace Scanner

variable {α β : Type}

/-- The next character, which stays. -/
def peek : Scanner (Option Char) := do return (← get).head?

/-- Takes one character. -/
def next : Scanner Char := do
  match ← get with
  | c :: rest => set rest; return c
  | [] => failure

/-- Takes one character of a class. -/
def satisfy (p : Char → Bool) : Scanner Char := do
  let c ← next
  if p c then return c else failure

/-- Takes this character. -/
def char (c : Char) : Scanner Unit := do
  let _ ← satisfy (· == c)

/-- Takes this text. -/
def text (t : String) : Scanner Unit := do
  let rest ← get
  if t.toList.isPrefixOf rest then set (rest.drop t.length) else failure

/-- Takes the longest run of characters of a class. -/
def takeWhile (p : Char → Bool) : Scanner (List Char) := do
  let rest ← get
  set (rest.dropWhile p)
  return rest.takeWhile p

/-- Takes the longest run of characters of a class, which must not be empty. -/
def takeWhile1 (p : Char → Bool) : Scanner (List Char) := do
  let run ← takeWhile p
  if run.isEmpty then failure else return run

/-- Takes the given number of characters of a class. -/
def exactly (count : Nat) (p : Char → Bool) : Scanner (List Char) := do
  let rest ← get
  let run := rest.take count
  if run.length == count && run.all p then set (rest.drop count); return run else failure

/-- Succeeds at the end of the text. -/
def atEnd : Scanner Unit := do
  if (← get).isEmpty then return () else failure

/-- Runs a scanner if it succeeds. -/
def maybe (p : Scanner α) : Scanner (Option α) := (some <$> p) <|> pure none

/-- Whether a scanner succeeds; what it takes is taken. -/
def accept (p : Scanner α) : Scanner Bool := (do let _ ← p; return true) <|> pure false

/-- Runs a scanner at most once for every character of `budget`, and puts its values before those in
`done`, which are in reverse. -/
def within (p : Scanner α) : List Char → List α → List Char → List α × List Char
  | [], done, rest => (done.reverse, rest)
  | _ :: budget, done, rest =>
    match p rest with
    | some (a, rest) => within p budget (a :: done) rest
    | none => (done.reverse, rest)

/-- Runs a scanner as often as it succeeds. -/
def many (p : Scanner α) : Scanner (List α) := fun rest => some (within p rest [] rest)

/-- Runs a scanner as often as it succeeds, with a separator before each run but the first. -/
def sepBy1 (p : Scanner α) (separator : Scanner β) : Scanner (List α) := do
  let first ← p
  return first :: (← many (do let _ ← separator; p))

/-- The value of a scanner that takes a whole text. -/
def run? (p : Scanner α) (t : List Char) : Option α :=
  ((do let a ← p; atEnd; return a : Scanner α).run t).map (·.1)

end Scanner

end Estree
