import Estree.Text.Source

/-!
# Line indices

A `LineIndex` finds the places of a text without a table of them. It holds the byte offsets at which
lines start, which one pass over the UTF-8 bytes of the text collects (`LineIndex.scan`), the length
in bytes, and whether all bytes are ASCII, in which case bytes and UTF-16 units are the same.
-/

namespace Estree

/-- The bytes of a text in UTF-8. -/
def Source.bytes (s : Source) : List UInt8 := s.chars.toList.flatMap String.utf8EncodeChar

/-- The starts of the lines of a text, its length in bytes, and whether it is all ASCII. -/
structure LineIndex where
  lineStarts : List Nat
  length : Nat
  ascii : Bool
  deriving DecidableEq, Repr, Inhabited

namespace LineIndex

/-- The offsets after the line terminators among bytes that begin at the offset `i`. The first
`skip` bytes belong to a terminator that was found before them. -/
def scan : (i skip : Nat) → List UInt8 → List Nat
  | _, _, [] => []
  | i, skip + 1, _ :: rest => scan (i + 1) skip rest
  | i, 0, b :: rest =>
    if b = 0x0A then (i + 1) :: scan (i + 1) 0 rest
    else if b = 0x0D then
      if rest[0]? = some 0x0A then (i + 2) :: scan (i + 1) 1 rest
      else (i + 1) :: scan (i + 1) 0 rest
    -- U+2028 and U+2029 are E2 80 A8 and E2 80 A9.
    else if b = 0xE2 ∧ rest[0]? = some 0x80 ∧ (rest[1]? = some 0xA8 ∨ rest[1]? = some 0xA9) then
      (i + 3) :: scan (i + 1) 2 rest
    else scan (i + 1) 0 rest

/-- The line index of a text. -/
def ofSource (s : Source) : LineIndex where
  lineStarts := 0 :: scan 0 0 s.bytes
  length := s.bytes.length
  ascii := s.bytes.all (· < 0x80)

/-- Whether a byte continues a character. -/
def isContinuation (b : UInt8) : Bool := 0x80 ≤ b && b < 0xC0

/-- Whether no character continues at an offset. -/
def isBoundary (bytes : List UInt8) (offset : Nat) : Bool :=
  offset == 0 || offset == bytes.length || bytes[offset]?.any fun b => !isContinuation b

/-- The last boundary at or before an offset. -/
def backOff (bytes : List UInt8) : Nat → Nat
  | 0 => 0
  | offset + 1 =>
    if isBoundary bytes (offset + 1) then offset + 1 else backOff bytes offset

/-- The last boundary of a text at or before an offset that may lie past the end. -/
def clamp (index : LineIndex) (s : Source) (offset : Nat) : Nat :=
  backOff s.bytes (min offset index.length)

/-- Line and column of a byte offset: the line is the last that starts at or before it. -/
def position (index : LineIndex) (s : Source) (offset : Nat) : Position :=
  let offset := index.clamp s offset
  let line := (index.lineStarts.takeWhile (· ≤ offset)).length - 1
  let start := index.lineStarts[line]?.getD 0
  ⟨line + 1, if index.ascii then offset - start else utf16Length (s.slice start offset)⟩

/-- UTF-16 units before a byte offset. -/
def units (index : LineIndex) (s : Source) (offset : Nat) : Nat :=
  let offset := index.clamp s offset
  if index.ascii then offset else utf16Length (s.slice 0 offset)

end LineIndex

end Estree
