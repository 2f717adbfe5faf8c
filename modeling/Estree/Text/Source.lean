/-!
# Places in a text

A text is addressed by UTF-8 byte offsets, and its places are reported as a line and a column or as
a count of UTF-16 units. `Source` keeps one `Place` for every byte offset, so that each answer is a
look-up: an offset inside a character stands for the start of that character, and an offset past the
end for the end. `Source.size_eq` says that the table is complete.

A line ends after LF, after CR that no LF follows, and after U+2028 and U+2029.
-/

namespace Estree

/-- A line, counted from 1, and a column, counted from 0 in UTF-16 units. -/
structure Position where
  line : Nat
  column : Nat
  deriving DecidableEq, Repr, Inhabited

namespace Position

/-- Reading order: by line, then by column. -/
def le (a b : Position) : Prop := a.line < b.line ∨ a.line = b.line ∧ a.column ≤ b.column

instance : LE Position := ⟨le⟩

instance (a b : Position) : Decidable (a ≤ b) :=
  inferInstanceAs (Decidable (a.line < b.line ∨ a.line = b.line ∧ a.column ≤ b.column))

end Position

/-- How many UTF-16 units a character takes. -/
def utf16Units (c : Char) : Nat := if c.toNat < 0x10000 then 1 else 2

/-- How many UTF-16 units a text takes. -/
def utf16Length (cs : List Char) : Nat := cs.foldr (utf16Units · + ·) 0

/-- How many bytes a text takes in UTF-8. -/
def utf8Length (cs : List Char) : Nat := cs.foldr (Char.utf8Size · + ·) 0

/-- Whether a line ends between `c` and the text `rest` that follows it. CR LF ends one line. -/
def endsLine (c : Char) (rest : List Char) : Bool :=
  match c with
  | '\n' | '\u2028' | '\u2029' => true
  | '\r' => rest.head? != some '\n'
  | _ => false

/-- A boundary between two characters: what precedes it in bytes, characters and UTF-16 units, and
its line and column. -/
structure Place where
  byte : Nat
  index : Nat
  units : Nat
  position : Position
  deriving DecidableEq, Repr, Inhabited

namespace Place

/-- The place before the first character. -/
def origin : Place := ⟨0, 0, 0, ⟨1, 0⟩⟩

/-- The place after `c`, where `rest` is the text that follows `c`. -/
def after (p : Place) (c : Char) (rest : List Char) : Place where
  byte := p.byte + c.utf8Size
  index := p.index + 1
  units := p.units + utf16Units c
  position :=
    if endsLine c rest then ⟨p.position.line + 1, 0⟩
    else ⟨p.position.line, p.position.column + utf16Units c⟩

/-- The places of all byte offsets of a text that begins at `p`: one for each byte of a character,
and one for the end. -/
def table (p : Place) : List Char → List Place
  | [] => [p]
  | c :: rest => List.replicate c.utf8Size p ++ table (p.after c rest) rest

theorem table_ne_nil (p : Place) (cs : List Char) : table p cs ≠ [] := by
  induction cs generalizing p with
  | nil => simp [table]
  | cons c rest ih => simp [table, ih]

theorem length_table (p : Place) (cs : List Char) :
    (table p cs).length = utf8Length cs + 1 := by
  induction cs generalizing p with
  | nil => rfl
  | cons c rest ih => simp [table, utf8Length, ih, Nat.add_assoc]

end Place

/-- A text with the places of all its byte offsets. -/
structure Source where
  chars : Array Char
  places : Array Place := (Place.table .origin chars.toList).toArray
  places_eq : places = (Place.table .origin chars.toList).toArray := by rfl

namespace Source

def ofString (text : String) : Source := { chars := text.toList.toArray }

instance : Inhabited Source := ⟨ofString ""⟩

/-- The length in bytes. -/
def size (s : Source) : Nat := s.places.size - 1

theorem size_lt (s : Source) : s.size < s.places.size := by
  have h : s.places.size ≠ 0 := by simp [s.places_eq, Place.table_ne_nil]
  unfold size
  omega

theorem size_eq (s : Source) : s.size = utf8Length s.chars.toList := by
  simp [size, s.places_eq, Place.length_table]

/-- The place of a byte offset: the last character boundary at or before it. -/
def place (s : Source) (offset : Nat) : Place :=
  have := Nat.lt_of_le_of_lt (Nat.min_le_right offset s.size) s.size_lt
  s.places[min offset s.size]

/-- Line and column of a byte offset. -/
def position (s : Source) (offset : Nat) : Position := (s.place offset).position

/-- UTF-16 units before a byte offset. -/
def units (s : Source) (offset : Nat) : Nat := (s.place offset).units

/-- Whether a byte offset is a character boundary of the text. -/
def isBoundary (s : Source) (offset : Nat) : Bool := (s.place offset).byte == offset

/-- The characters from one byte offset to another, if both are character boundaries in order. -/
def slice? (s : Source) (start stop : Nat) : Option (List Char) :=
  if start ≤ stop ∧ s.isBoundary start ∧ s.isBoundary stop then
    some (s.chars.extract (s.place start).index (s.place stop).index).toList
  else none

/-- The characters from one byte offset to another, and none where that is no part of the text. -/
def slice (s : Source) (start stop : Nat) : List Char := (s.slice? start stop).getD []

end Source

end Estree
