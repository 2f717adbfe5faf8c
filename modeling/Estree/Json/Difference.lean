import Estree.Json.Basic
import Estree.Json.Printer

/-!
# Differences between two JSON trees

`Json.differences` walks two trees together and lists where they disagree. The positions that
syntax trees carry, under the keys `loc` and `range`, never take part. Objects are compared key by
key, arrays item by item and then by length, and everything else as values, numbers as doubles.

A walk against a reference (`Json.diff`) forgives keys that one side alone has; the strict one
(`Json.structureEq`) asks for the same keys on both sides.
-/

namespace Estree

/-- A step from a value to a part of it. -/
inductive Step where
  | key (name : String)
  | index (n : Nat)
  | length
  deriving DecidableEq, Repr, Inhabited

namespace Step

/-- How a step is written in a path. -/
def text : Step → String
  | key name => name
  | index n => toString n
  | length => "length"

end Step

/-- A place where two trees disagree, and what stands there in each. -/
structure Difference where
  path : List Step
  expected : Json
  actual : Json
  deriving Repr, Inhabited

namespace Difference

/-- The difference as seen from one step further up. -/
def under (step : Step) (d : Difference) : Difference := { d with path := step :: d.path }

/-- The steps of the path after the name of the root, joined by points. -/
def pathText (d : Difference) : String :=
  String.intercalate "." ("Program" :: d.path.map Step.text)

/-- The line that reports a difference. -/
def text (d : Difference) : String :=
  d.pathText ++ ": expected " ++ d.expected.compact ++ ", got " ++ d.actual.compact

end Difference

/-- How keys that one side alone has are treated. -/
inductive KeyRule where
  /-- A key that the actual tree lacks is skipped, and so is one that the expected tree lacks. -/
  | reference
  /-- A key on either side alone is a difference. -/
  | strict
  deriving DecidableEq, Repr

namespace Json

/-- Whether a key holds a position. -/
def isPositionKey (key : String) : Bool := key == "loc" || key == "range"

/-- Equality of two values of which at most one is a container that the other is too. -/
def sameLeaf : Json → Json → Bool
  | null, null => true
  | bool a, bool b => a == b
  | number a, number b => a.same b
  | string a, string b => a == b
  | _, _ => false

/-- The members of `actual` whose keys `expected` lacks, as differences. -/
def extraMembers (expected actual : List (String × Json)) : List Difference :=
  actual.filterMap fun (key, value) =>
    if (lookup key expected).isSome || isPositionKey key then none
    else some ⟨[.key key], null, value⟩

/-- The difference between the lengths of two arrays, if there is one. -/
def lengthDifference (expected actual : List Json) : List Difference :=
  if expected.length = actual.length then []
  else [⟨[.length], nat expected.length, nat actual.length⟩]

mutual

/-- Where two trees disagree, in the order of the expected one. -/
def differences (rule : KeyRule) : Json → Json → List Difference
  | object expected, object actual =>
    memberDifferences rule expected actual
      ++ (if rule = .strict then extraMembers expected actual else [])
  | array expected, array actual =>
    itemDifferences rule 0 expected actual ++ lengthDifference expected actual
  | expected, actual => if sameLeaf expected actual then [] else [⟨[], expected, actual⟩]

/-- Where the members of an object disagree with those of another. -/
def memberDifferences (rule : KeyRule) :
    List (String × Json) → List (String × Json) → List Difference
  | [], _ => []
  | (key, expected) :: rest, members =>
    (if isPositionKey key then []
      else match lookup key members with
        | some actual => (differences rule expected actual).map (·.under (.key key))
        | none => if rule = .strict then [⟨[.key key], expected, null⟩] else [])
      ++ memberDifferences rule rest members

/-- Where the items of two arrays disagree, from an index on and as far as both reach. -/
def itemDifferences (rule : KeyRule) (index : Nat) : List Json → List Json → List Difference
  | expected :: rest, actual :: others =>
    (differences rule expected actual).map (·.under (.index index))
      ++ itemDifferences rule (index + 1) rest others
  | _, _ => []

end

/-- Where a tree disagrees with a reference. -/
def diff (expected actual : Json) : List Difference := differences .reference expected actual

/-- Whether two trees agree apart from positions. -/
def structureEq (a b : Json) : Bool := (differences .strict a b).isEmpty

/-- `structureEq` item by item on two lists of one length. -/
def structureEqList (a b : List Json) : Bool :=
  a.length == b.length && (a.zip b).all fun (x, y) => structureEq x y

end Json

end Estree
