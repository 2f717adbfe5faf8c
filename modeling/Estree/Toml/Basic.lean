import Estree.Number.Double

/-!
# TOML values and the tables that a document builds

A document is read as a list of statements. `Toml.Statement.run?` carries them out one after the
other: a header opens a table, and an assignment puts a value under a dotted key of the open table.
How a table came to be (`Origin`) decides what may still be added to it: a table that a header has
opened is not opened again and not extended by dotted keys, and one that dotted keys have made is
not opened by a header.
-/

namespace Estree

/-- A date, a time of day, and an offset from UTC in minutes, each of which may be absent. -/
structure DateTime where
  date : Option (Nat × Nat × Nat) := none
  time : Option (Nat × Nat × Nat) := none
  offset : Option Int := none
  deriving DecidableEq, Repr, Inhabited

/-- A TOML value. -/
inductive Toml where
  | string (s : String)
  | integer (n : Int)
  | float (d : Double)
  | boolean (b : Bool)
  | dateTime (d : DateTime)
  | array (items : List Toml)
  | table (entries : List (String × Toml))
  deriving Repr, Inhabited

namespace Toml

/-- How a table came to be. -/
inductive Origin where
  /-- It stands in the path of a header. -/
  | implied
  /-- A dotted key made it. -/
  | dotted
  /-- A header opened it. -/
  | header
  deriving DecidableEq, Repr

/-- A part of a document under construction: a finished value, a table, or an array of tables. -/
inductive Item where
  | value (v : Toml)
  | table (origin : Origin) (entries : List (String × Item))
  | tables (done : List (List (String × Item))) (last : List (String × Item))
  deriving Inhabited

namespace Item

mutual

/-- The value of an item. -/
def toToml : Item → Toml
  | value v => v
  | table _ entries => .table (entriesToToml entries)
  | tables done last => .array (tablesToToml done ++ [.table (entriesToToml last)])

/-- The values of the entries of a table. -/
def entriesToToml : List (String × Item) → List (String × Toml)
  | [] => []
  | (key, item) :: rest => (key, item.toToml) :: entriesToToml rest

/-- The values of tables. -/
def tablesToToml : List (List (String × Item)) → List Toml
  | [] => []
  | entries :: rest => .table (entriesToToml entries) :: tablesToToml rest

end

end Item

/-- The entries of a table under construction. -/
abbrev Entries := List (String × Item)

namespace Entries

/-- The item of a key. -/
def get? (key : String) (e : Entries) : Option Item := (e.find? (·.1 == key)).map (·.2)

/-- Puts an item under a key, in place of the one that is there. -/
def put (key : String) (item : Item) : Entries → Entries
  | [] => [(key, item)]
  | (k, v) :: rest => if k == key then (key, item) :: rest else (k, v) :: put key item rest

/-- Puts a value under a dotted key. Tables in between are made as needed. None of them may have
been opened by a header, and the innermost one must be made by dotted keys. -/
def assign? (value : Toml) (key : String) : List String → Entries → Option Entries
  | [], e => if (e.get? key).isSome then none else some (e.put key (.value value))
  | step :: path, e =>
    match e.get? step with
    | none => (assign? value key path []).map fun sub => e.put step (.table .dotted sub)
    | some (.table origin sub) =>
      if origin = .header ∨ (path = [] ∧ origin ≠ .dotted) then none
      else (assign? value key path sub).map fun sub => e.put step (.table origin sub)
    | some (.tables done last) =>
      if path = [] then none
      else (assign? value key path last).map fun last => e.put step (.tables done last)
    | some (.value _) => none

/-- Changes the table at the end of a header's path, through the last table of an array. Tables that
are missing are made. -/
def within? (change : Entries → Option Entries) : List String → Entries → Option Entries
  | [], e => change e
  | step :: path, e =>
    match e.get? step with
    | none => (within? change path []).map fun sub => e.put step (.table .implied sub)
    | some (.table origin sub) =>
      (within? change path sub).map fun sub => e.put step (.table origin sub)
    | some (.tables done last) =>
      (within? change path last).map fun last => e.put step (.tables done last)
    | some (.value _) => none

/-- Opens a table by a header. -/
def openTable? (key : String) (e : Entries) : Option Entries :=
  match e.get? key with
  | none => some (e.put key (.table .header []))
  | some (.table .implied sub) => some (e.put key (.table .header sub))
  | _ => none

/-- Adds a table to an array of tables. -/
def openElement? (key : String) (e : Entries) : Option Entries :=
  match e.get? key with
  | none => some (e.put key (.tables [] []))
  | some (.tables done last) => some (e.put key (.tables (done ++ [last]) []))
  | _ => none

end Entries

/-- A line of a document: a header of a table or of an element of an array of tables, or an
assignment. A path is given without its last key. -/
inductive Statement where
  | tableHeader (path : List String) (key : String)
  | elementHeader (path : List String) (key : String)
  | assignment (path : List String) (key : String) (value : Toml)
  deriving Inhabited

/-- A document under construction, with the path of the table that is open. -/
structure Document where
  root : Entries := []
  opened : List String := []
  deriving Inhabited

namespace Statement

/-- Carries out a statement, unless it defines something twice. -/
def run? (doc : Document) : Statement → Option Document
  | tableHeader path key =>
    (Entries.within? (Entries.openTable? key) path doc.root).map (⟨·, path ++ [key]⟩)
  | elementHeader path key =>
    (Entries.within? (Entries.openElement? key) path doc.root).map (⟨·, path ++ [key]⟩)
  | assignment path key value =>
    (Entries.within? (Entries.assign? value key path) doc.opened doc.root).map
      fun root => { doc with root }

end Statement

/-- The table that a document's statements define. -/
def ofStatements? (statements : List Statement) : Option Toml :=
  (statements.foldlM Statement.run? {}).map fun doc => (Item.table .header doc.root).toToml

/-- The entry of a key, if the value is a table that has it. -/
def get? (key : String) : Toml → Option Toml
  | table entries => (entries.find? (·.1 == key)).map (·.2)
  | _ => none

end Toml

end Estree
