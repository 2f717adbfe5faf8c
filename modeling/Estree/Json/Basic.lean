import Estree.Number.Double

/-!
# JSON values

A number is an integer or a finite double, as it was written; the two are compared as doubles. The
members of an object stand in a list. `Json.sorted` puts them into the order of their keys and keeps
the last of several members with one key, which is the form that comparisons work on.
-/

namespace Estree

/-- A number of a JSON text: an integer, or a double. -/
inductive Number where
  | integer (n : Int)
  | double (d : Double)
  deriving DecidableEq, Repr, Inhabited

namespace Number

/-- The nearest double. -/
def toDouble : Number → Double
  | integer n => .ofInt n
  | double d => d

/-- Equality as doubles. -/
def same (a b : Number) : Bool := a.toDouble.same b.toDouble

end Number

inductive Json where
  | null
  | bool (b : Bool)
  | number (n : Number)
  | string (s : String)
  | array (items : List Json)
  | object (members : List (String × Json))
  deriving Repr, Inhabited

namespace Json

/-- The natural number as a JSON value. -/
def nat (n : Nat) : Json := number (.integer n)

/-- The first member of a key. -/
def lookup (key : String) (members : List (String × Json)) : Option Json :=
  (members.find? (·.1 == key)).map (·.2)

/-- The member of an object, if the value is an object that has it. -/
def get? (key : String) : Json → Option Json
  | object members => lookup key members
  | _ => none

/-- Puts a member into a list in key order, in place of one with the same key. -/
def insertMember (key : String) (value : Json) : List (String × Json) → List (String × Json)
  | [] => [(key, value)]
  | (k, v) :: rest =>
    if key < k then (key, value) :: (k, v) :: rest
    else if key = k then (key, value) :: rest
    else (k, v) :: insertMember key value rest

mutual

/-- The value with the members of every object in key order, the last one for each key. -/
def sorted : Json → Json
  | array items => array (sortedItems items)
  | object members => object (sortedMembers members [])
  | null => null
  | bool b => bool b
  | number n => number n
  | string s => string s

/-- `sorted` on every item. -/
def sortedItems : List Json → List Json
  | [] => []
  | item :: rest => item.sorted :: sortedItems rest

/-- Puts members into a list in key order, from left to right. -/
def sortedMembers : List (String × Json) → List (String × Json) → List (String × Json)
  | [], done => done
  | (key, value) :: rest, done => sortedMembers rest (insertMember key value.sorted done)

end

mutual

/-- Equality of values, with numbers as doubles and the members of objects in one order. -/
def same : Json → Json → Bool
  | null, null => true
  | bool a, bool b => a == b
  | number a, number b => a.same b
  | string a, string b => a == b
  | array as, array bs => sameItems as bs
  | object as, object bs => sameMembers as bs
  | _, _ => false

/-- `same` on every item. -/
def sameItems : List Json → List Json → Bool
  | [], [] => true
  | a :: as, b :: bs => a.same b && sameItems as bs
  | _, _ => false

/-- `same` on every member, with equal keys. -/
def sameMembers : List (String × Json) → List (String × Json) → Bool
  | [], [] => true
  | (k, a) :: as, (l, b) :: bs => k == l && a.same b && sameMembers as bs
  | _, _ => false

end

end Json

end Estree
