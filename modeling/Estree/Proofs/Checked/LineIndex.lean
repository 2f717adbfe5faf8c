import Estree.Ast.Node
import Estree.Proofs.Checked.Basic
import Estree.Proofs.LineIndex

/-!
# The steps of a line index

A line index is made in one pass over the bytes of a text, and answers with a search among the starts
of lines, a difference of offsets and a slice of the text. No step of it fails, whatever the text and
the offset (`Checked.position_eq`, `Checked.units_eq`): offsets are moved to a character boundary
first, and starts of lines are character boundaries, the first of which is 0.
-/

namespace Estree.Checked

open LineIndex

/-! ## Making the index -/

/-- One round of the pass: the offset that is reached, and the start of a line if one ends. -/
def scanStep (bytes : List UInt8) (i : Nat) : Checked (Nat × List Nat) := do
  let b ← index bytes i
  if b = 0x0A then return (i, [← advance bytes i 1])
  else if b = 0x0D then
    if bytes[← advance bytes i 1]? = some 0x0A then
      return (← advance bytes i 1, [← advance bytes i 2])
    else return (i, [← advance bytes i 1])
  else if b = 0xE2 then
    if bytes[← advance bytes i 1]? = some 0x80 then
      let last := bytes[← advance bytes i 2]?
      if last = some 0xA8 ∨ last = some 0xA9 then
        return (← advance bytes i 2, [← advance bytes i 3])
      else return (i, [])
    else return (i, [])
  else return (i, [])

/-- The pass over the bytes from an offset on. -/
def scanLoop (bytes : List UInt8) : (rounds i : Nat) → List Nat → Checked (List Nat)
  | 0, _, _ => .error .endless
  | rounds + 1, i, starts =>
    if i < bytes.length then do
      let (i, found) ← scanStep bytes i
      scanLoop bytes rounds (← advance bytes i 1) (starts ++ found)
    else return starts

/-- The starts of the lines of a text. -/
def lineStarts (bytes : List UInt8) : Checked (List Nat) :=
  scanLoop bytes (bytes.length + 1) 0 [0]

/-- The line index of a text. -/
def lineIndex (s : Source) : Checked LineIndex := do
  return ⟨← lineStarts s.bytes, s.bytes.length, s.bytes.all (· < 0x80)⟩

section

variable {bytes : List UInt8} {i rounds : Nat}

/-- A round passes the bytes that belong to the first character or line terminator, and finds what the
scan finds there. -/
theorem scanStep_eq {b : UInt8} {rest : List UInt8} (h : bytes.drop i = b :: rest) :
    ∃ j found, scanStep bytes i = .ok (j, found) ∧ i ≤ j ∧ j < bytes.length ∧
      scan i 0 (b :: rest) = found ++ scan (j + 1) 0 (bytes.drop (j + 1)) := by
  have hlength : bytes.length = i + (rest.length + 1) := by
    have := congrArg List.length h
    rw [List.length_drop, List.length_cons] at this
    omega
  have hbyte (k : Nat) : bytes[i + (k + 1)]? = rest[k]? := by
    rw [← List.getElem?_drop, h, List.getElem?_cons_succ]
  have hdrop (k : Nat) : bytes.drop (i + k + 1) = rest.drop k := by
    rw [Nat.add_assoc, ← List.drop_drop, h, List.drop_succ_cons]
  have hindex : index bytes i = .ok b := by
    apply index_eq
    rw [← Nat.add_zero i, ← List.getElem?_drop, h, List.getElem?_cons_zero]
  have hnext : advance bytes i 1 = .ok (i + 1) := advance_eq (by omega)
  have hnext' : advance bytes i 2 = .ok (i + 2) := advance_eq (by omega)
  have hfirst : bytes[i + 1]? = rest[0]? := hbyte 0
  have hsecond : bytes[i + 2]? = rest[1]? := hbyte 1
  simp only [scanStep, hindex, hnext, hnext', ok_bind, hfirst, hsecond, scan]
  by_cases hlf : b = 0x0A
  · refine ⟨i, [i + 1], if_pos hlf, Nat.le_refl _, by omega, ?_⟩
    rw [if_pos hlf, hdrop 0]
    rfl
  by_cases hcr : b = 0x0D
  · simp only [if_neg hlf, if_pos hcr]
    by_cases hcrlf : rest[0]? = some 0x0A
    · -- The line feed is passed as well.
      obtain ⟨rest', rfl⟩ : ∃ rest', rest = 0x0A :: rest' := by
        cases rest with
        | nil => cases hcrlf
        | cons c rest' => exact ⟨rest', by rw [Option.some.inj hcrlf]⟩
      rw [List.length_cons] at hlength
      refine ⟨i + 1, [i + 2], if_pos hcrlf, by omega, by omega, ?_⟩
      rw [if_pos hcrlf, hdrop 1, scan]
      rfl
    · refine ⟨i, [i + 1], if_neg hcrlf, Nat.le_refl _, by omega, ?_⟩
      rw [if_neg hcrlf, hdrop 0]
      rfl
  simp only [if_neg hlf, if_neg hcr]
  have hplain : scan (i + 1) 0 rest = [] ++ scan (i + 1) 0 (bytes.drop (i + 1)) := by
    rw [hdrop 0]
    rfl
  by_cases hsep : b = 0xE2 ∧ rest[0]? = some 0x80 ∧ (rest[1]? = some 0xA8 ∨ rest[1]? = some 0xA9)
  · -- The three bytes of a separator are passed together.
    obtain ⟨c, d, rest', rfl⟩ : ∃ c d rest', rest = c :: d :: rest' := by
      have hlong : ∃ d, rest[1]? = some d := hsep.2.2.elim (⟨_, ·⟩) (⟨_, ·⟩)
      obtain ⟨d, hd⟩ := hlong
      rcases rest with _ | ⟨c, _ | ⟨d, rest'⟩⟩
      · cases hd
      · cases hd
      · exact ⟨c, d, rest', rfl⟩
    rw [List.length_cons, List.length_cons] at hlength
    have hend : advance bytes i 3 = .ok (i + 3) := advance_eq (by omega)
    refine ⟨i + 2, [i + 3], ?_, by omega, by omega, ?_⟩
    · rw [if_pos hsep.1, if_pos hsep.2.1, if_pos hsep.2.2, hend]
      rfl
    · rw [if_pos hsep, hdrop 2, scan, scan]
      rfl
  · refine ⟨i, [], ?_, Nat.le_refl _, by omega, by rw [if_neg hsep, hplain]⟩
    split
    case isFalse => rfl
    case isTrue hb =>
      split
      case isFalse => rfl
      case isTrue hc => exact if_neg fun hd => hsep ⟨hb, hc, hd⟩

theorem scanLoop_eq {starts : List Nat} (hi : i ≤ bytes.length) (hr : bytes.length - i < rounds) :
    scanLoop bytes rounds i starts = .ok (starts ++ scan i 0 (bytes.drop i)) := by
  induction rounds generalizing i starts with
  | zero => omega
  | succ rounds ih =>
    rw [scanLoop]
    cases h : bytes.drop i with
    | nil =>
      have hlength := List.drop_eq_nil_iff.1 h
      rw [if_neg (by omega), scan, List.append_nil]
      rfl
    | cons b rest =>
      obtain ⟨j, found, hstep, hij, hj, hscan⟩ := scanStep_eq h
      have hlt : i < bytes.length := by omega
      have hnext : advance bytes j 1 = .ok (j + 1) := advance_eq (by omega)
      rw [if_pos hlt, hstep, ok_bind]
      simp only [hnext, ok_bind]
      rw [ih (by omega) (by omega), hscan, List.append_assoc]

end

theorem lineIndex_eq (s : Source) : lineIndex s = .ok (ofSource s) := by
  have hstarts : lineStarts s.bytes = .ok (0 :: scan 0 0 s.bytes) := scanLoop_eq (by omega) (by omega)
  rw [lineIndex, hstarts]
  rfl

/-! ## Answers -/

/-- Moves an offset back, byte by byte, to the start of a character. -/
def clampLoop (bytes : List UInt8) : (rounds offset : Nat) → Checked Nat
  | 0, _ => .error .endless
  | rounds + 1, offset =>
    if isBoundary bytes offset then return offset
    else do clampLoop bytes rounds (← sub offset 1)

/-- The last boundary of a text at or before an offset that may lie past the end. -/
def clamp (index : LineIndex) (s : Source) (offset : Nat) : Checked Nat :=
  clampLoop s.bytes (index.length + 1) (min offset index.length)

/-- The part of a text between two offsets, which must be boundaries. -/
def textSlice (s : Source) (start stop : Nat) : Checked (List Char) :=
  if start ≤ stop ∧ isBoundary s.bytes start ∧ isBoundary s.bytes stop then .ok (s.slice start stop)
  else .error .slice

/-- Line and column of a byte offset. -/
def position (index : LineIndex) (s : Source) (offset : Nat) : Checked Position := do
  let offset ← clamp index s offset
  let line ← sub (index.lineStarts.takeWhile (· ≤ offset)).length 1
  let start ← Checked.index index.lineStarts line
  let column ← if index.ascii then sub offset start
    else utf16Length <$> textSlice s start offset
  return ⟨← advance index.lineStarts line 1, column⟩

/-- UTF-16 units before a byte offset. -/
def units (index : LineIndex) (s : Source) (offset : Nat) : Checked Nat := do
  let offset ← clamp index s offset
  if index.ascii then return offset
  else utf16Length <$> textSlice s 0 offset

/-- The label of a node between two byte offsets. -/
def label (index : LineIndex) (s : Source) (file : String) (start stop : Nat) : Checked Label := do
  return {
    loc := ⟨file, ← position index s start, ← position index s stop⟩
    range := ⟨← units index s start, ← units index s stop⟩ }

/-- The way back to a boundary ends, at 0 at the latest. -/
theorem clampLoop_eq {bytes : List UInt8} {rounds offset : Nat} (h : offset < rounds) :
    clampLoop bytes rounds offset = .ok (backOff bytes offset) := by
  induction rounds generalizing offset with
  | zero => omega
  | succ rounds ih =>
    rw [clampLoop]
    cases offset with
    | zero => rfl
    | succ offset =>
      rw [backOff]
      split
      · rfl
      · rw [sub_eq (by omega), ok_bind, Nat.add_sub_cancel, ih (by omega)]

section

variable (s : Source) (offset : Nat)

theorem clamp_eq : clamp (ofSource s) s offset = .ok ((ofSource s).clamp s offset) := by
  refine clampLoop_eq ?_
  omega

/-- The end of a text before the rest of it can end a slice. -/
theorem textSlice_eq {s : Source} {before line after : List Char}
    (hs : s.chars.toList = before ++ line ++ after) :
    textSlice s (utf8Length before) (utf8Length (before ++ line)) = .ok line := by
  have hstart : isBoundary s.bytes (utf8Length before) := by
    rw [bytes_eq (hs.trans (List.append_assoc ..))]
    exact isBoundary_utf8Length
  have hstop : isBoundary s.bytes (utf8Length (before ++ line)) := by
    rw [bytes_eq hs]
    exact isBoundary_utf8Length
  have hle : utf8Length before ≤ utf8Length (before ++ line) := by simp
  rw [textSlice, if_pos ⟨hle, hstart, hstop⟩, s.slice_append hs]

/-- Some line starts at or before every offset, and the last that does starts at a boundary. -/
theorem position_eq : position (ofSource s) s offset = .ok (s.position offset) := by
  obtain ⟨earlier, line, after, h⟩ := exists_stands s offset
  have hle : utf8Length earlier ≤ utf8Length (earlier ++ line) := by simp
  have hstart : index (ofSource s).lineStarts (lineEnds 0 (earlier ++ line) after).length
      = .ok (utf8Length earlier) := index_eq ((getElem?_lineStarts h.chars).trans h.start)
  have hcount : (lineEnds 0 (earlier ++ line) after).length + 1
      ≤ (ofSource s).lineStarts.length + 2 := by
    have hfront := (List.takeWhile_prefix (l := (ofSource s).lineStarts)
      (· ≤ utf8Length (earlier ++ line))).length_le
    rw [takeWhile_lineStarts h.chars, List.length_cons] at hfront
    omega
  rw [position, clamp_eq, h.clamp, ok_bind, takeWhile_lineStarts h.chars, List.length_cons,
    sub_eq (by omega), ok_bind, Nat.add_sub_cancel, hstart, ok_bind, advance_eq hcount, h.position,
    Nat.add_comm 1]
  split
  case isTrue hascii => rw [sub_eq hle, h.column_of_ascii hascii]; rfl
  case isFalse => rw [textSlice_eq h.chars]; rfl

theorem units_eq : units (ofSource s) s offset = .ok (s.units offset) := by
  obtain ⟨earlier, line, after, h⟩ := exists_stands s offset
  have hfront : textSlice s 0 (utf8Length (earlier ++ line)) = .ok (earlier ++ line) :=
    @textSlice_eq s [] (earlier ++ line) after h.chars
  rw [units, clamp_eq, h.clamp, ok_bind, h.units]
  split
  case isTrue hascii => rw [utf16Length_eq_utf8Length h.chars hascii]; rfl
  case isFalse => rw [hfront]; rfl

theorem label_eq (file : String) (start stop : Nat) :
    label (ofSource s) s file start stop = .ok (.ofBytes s file start stop) := by
  rw [label, position_eq, position_eq, units_eq, units_eq]
  rfl

end

end Estree.Checked
