import Estree.Ast.Node
import Estree.Proofs.LineIndex
import Mathlib.Order.Monotone.Basic

/-!
# Positions and offsets in UTF-16 units

A line index tells of a byte offset its line and column and, by a count of its own, the UTF-16 units
before it. Both stand for the same character boundary (`LineIndex.clamp`): the units before it are
those before its line and its column (`LineIndex.unitsOf_position`), and its line is the last one
that starts at or before so many units (`LineIndex.positionOf_units`). Hence both order the places of
a text alike, and each is computed from the other without the byte offset.
-/

namespace Estree

theorem Position.le_antisymm {a b : Position} (hab : a ≤ b) (hba : b ≤ a) : a = b := by
  change a.line < b.line ∨ a.line = b.line ∧ a.column ≤ b.column at hab
  change b.line < a.line ∨ b.line = a.line ∧ b.column ≤ a.column at hba
  have hline : a.line = b.line := by omega
  have hcolumn : a.column = b.column := by omega
  cases a
  exact congrArg₂ Position.mk hline hcolumn

theorem utf16Units_pos (c : Char) : 0 < utf16Units c := by
  unfold utf16Units
  split <;> decide

/-- Tests that agree on a list take the same part of it. -/
theorem takeWhile_congr {α : Type} {p q : α → Bool} {l : List α} (h : ∀ a ∈ l, p a = q a) :
    l.takeWhile p = l.takeWhile q := by
  induction l with
  | nil => rfl
  | cons a l ih =>
    rw [List.takeWhile_cons, List.takeWhile_cons, h a List.mem_cons_self,
      ih fun b hb => h b (List.mem_cons_of_mem a hb)]

namespace LineIndex

/-- The UTF-16 units before a position: those before its line, and its column. -/
def unitsOf (index : LineIndex) (s : Source) (p : Position) : Nat :=
  index.units s (index.lineStarts[p.line - 1]?.getD 0) + p.column

/-- The position behind so many UTF-16 units: its line is the last that starts at or before them. -/
def positionOf (index : LineIndex) (s : Source) (units : Nat) : Position :=
  let line := (index.lineStarts.takeWhile (index.units s · ≤ units)).length - 1
  ⟨line + 1, units - index.units s (index.lineStarts[line]?.getD 0)⟩

/-! ## Character boundaries -/

theorem backOff_le (bytes : List UInt8) (offset : Nat) : backOff bytes offset ≤ offset := by
  induction offset with
  | zero => exact Nat.le_refl _
  | succ offset ih =>
    rw [backOff]
    split
    · exact Nat.le_refl _
    · exact Nat.le_succ_of_le ih

variable {s : Source}

theorem clamp_le (offset : Nat) : (ofSource s).clamp s offset ≤ offset :=
  (backOff_le ..).trans (Nat.min_le_left ..)

theorem boundary_clamp (offset : Nat) : Boundary s.chars.toList ((ofSource s).clamp s offset) := by
  obtain ⟨earlier, line, after, h⟩ := exists_stands s offset
  exact ⟨earlier ++ line, after, h.chars, h.clamp.symm⟩

/-- A line starts at a character boundary. -/
theorem boundary_of_mem_lineStarts {start : Nat} (h : start ∈ (ofSource s).lineStarts) :
    Boundary s.chars.toList start := by
  have hstarts : (ofSource s).lineStarts = 0 :: lineEnds 0 s.chars.toList [] := by
    rw [ofSource, bytes_eq (List.append_nil _).symm, List.append_nil, scan_utf8]
  rw [hstarts] at h
  rcases List.mem_cons.1 h with rfl | h
  · exact ⟨[], _, rfl, rfl⟩
  · obtain ⟨before, c, after, hsplit, -, rfl⟩ := mem_lineEnds.1 h
    exact ⟨before ++ [c], after, by simpa using hsplit, (Nat.zero_add _).symm⟩

/-! ## Units before a boundary -/

theorem units_eq (s : Source) (offset : Nat) : (ofSource s).units s offset = s.units offset := by
  obtain ⟨earlier, line, after, h⟩ := exists_stands s offset
  exact h.index_units.trans h.units.symm

theorem position_eq (s : Source) (offset : Nat) :
    (ofSource s).position s offset = s.position offset := by
  obtain ⟨earlier, line, after, h⟩ := exists_stands s offset
  exact h.index_position.trans h.position.symm

theorem units_utf8Length {before after : List Char} (hs : s.chars.toList = before ++ after) :
    (ofSource s).units s (utf8Length before) = utf16Length before := by
  rw [units_eq, Source.units, s.place_utf8Length hs, Place.units_advance]
  exact Nat.zero_add _

theorem units_clamp (offset : Nat) :
    (ofSource s).units s ((ofSource s).clamp s offset) = (ofSource s).units s offset := by
  obtain ⟨earlier, line, after, h⟩ := exists_stands s offset
  rw [h.clamp, h.index_units, units_utf8Length h.chars]

theorem monotone_units (s : Source) : Monotone ((ofSource s).units s) := by
  intro a b hab
  rw [units_eq, units_eq]
  exact s.units_mono hab

/-- Every character between two boundaries takes a unit. -/
theorem strictMonoOn_units (s : Source) :
    StrictMonoOn ((ofSource s).units s) {o | Boundary s.chars.toList o} := by
  rintro a ⟨before, after, hs, rfl⟩ b ⟨before', after', hs', rfl⟩ hlt
  rw [units_utf8Length hs, units_utf8Length hs']
  rcases List.append_eq_append_iff.1 (hs.symm.trans hs') with ⟨mid, rfl, -⟩ | ⟨mid, rfl, -⟩
  · cases mid with
    | nil => simp at hlt
    | cons c mid =>
      have := utf16Units_pos c
      simp only [utf16Length_append, utf16Length_cons]
      omega
  · simp only [utf8Length_append] at hlt
    omega

/-! ## The line of an offset -/

namespace Stands

variable {offset : Nat} {earlier line after : List Char} (h : Stands s offset earlier line after)
include h

/-- No line ends between the start of the line and the offset. -/
theorem lineEnds_line :
    lineEnds 0 (earlier ++ line) after = lineEnds 0 earlier (line ++ after) := by
  have hsplit := @lineEnds_append 0 earlier line after
  have hlast := h.start
  rw [hsplit] at hlast ⊢
  cases hends : lineEnds (0 + utf8Length earlier) line after with
  | nil => rw [List.append_nil]
  | cons e es =>
    rw [hends, ← List.cons_append,
      List.getLast?_append_of_ne_nil _ (List.cons_ne_nil e es)] at hlast
    have hlt := lt_of_mem_lineEnds (hends ▸ List.mem_of_getLast? hlast)
    omega

theorem getElem?_line :
    (ofSource s).lineStarts[((ofSource s).position s offset).line - 1]? =
      some (utf8Length earlier) := by
  rw [h.index_position, Nat.add_sub_cancel_left, getElem?_lineStarts h.chars, h.start]

theorem units_start : (ofSource s).units s (utf8Length earlier) = utf16Length earlier :=
  units_utf8Length (h.chars.trans (List.append_assoc ..))

/-- The line starts on it, in the first column. -/
theorem position_start : (ofSource s).position s (utf8Length earlier) =
    ⟨((ofSource s).position s offset).line, 0⟩ := by
  obtain ⟨earlier', line', hsplit, -, hlast, hcolumn⟩ := exists_last_line earlier (line ++ after)
  have hstart : some (utf8Length earlier') = some (utf8Length earlier) := by
    rw [← hlast, ← h.lineEnds_line, h.start]
  obtain ⟨-, rfl⟩ := append_inj_of_utf8Length (hsplit.symm.trans (List.append_nil earlier).symm)
    (Option.some.inj hstart)
  have hline := Place.line_advance .origin 0 earlier (line ++ after)
  rw [position_eq, Source.position, s.place_utf8Length (h.chars.trans (List.append_assoc ..)),
    h.index_position, h.lineEnds_line]
  exact congrArg₂ Position.mk hline hcolumn

/-- The line and the column of an offset tell of the units before it. -/
theorem units_position : (ofSource s).units s offset =
    (ofSource s).units s (utf8Length earlier) + ((ofSource s).position s offset).column := by
  rw [h.index_units, h.units_start, h.index_position, utf16Length_append]

/-- A line starts at or before the offset if no more units are before it. -/
theorem takeWhile_units : (ofSource s).lineStarts.takeWhile
      ((ofSource s).units s · ≤ (ofSource s).units s offset) =
    0 :: lineEnds 0 (earlier ++ line) after := by
  rw [← takeWhile_lineStarts h.chars, ← h.clamp, ← units_clamp]
  refine takeWhile_congr fun start hstart => decide_eq_decide.2 ?_
  exact (strictMonoOn_units s).le_iff_le (boundary_of_mem_lineStarts hstart) (boundary_clamp offset)

end Stands

variable (s) in
theorem unitsOf_position (offset : Nat) :
    (ofSource s).unitsOf s ((ofSource s).position s offset) = (ofSource s).units s offset := by
  obtain ⟨earlier, line, after, h⟩ := exists_stands s offset
  rw [unitsOf, h.getElem?_line, Option.getD_some, h.units_position]

variable (s) in
theorem positionOf_units (offset : Nat) :
    (ofSource s).positionOf s ((ofSource s).units s offset) = (ofSource s).position s offset := by
  obtain ⟨earlier, line, after, h⟩ := exists_stands s offset
  simp only [positionOf, h.takeWhile_units, List.length_cons, Nat.add_sub_cancel,
    getElem?_lineStarts h.chars, h.start, Option.getD_some]
  rw [h.units_position, Nat.add_sub_cancel_left, h.index_position, Nat.add_comm 1]

theorem position_le_iff {a b : Nat} : (ofSource s).position s a ≤ (ofSource s).position s b ↔
    (ofSource s).units s a ≤ (ofSource s).units s b := by
  constructor
  · intro h
    rcases Nat.le_total a b with hab | hba
    · exact monotone_units s hab
    · have hle : (ofSource s).position s b ≤ (ofSource s).position s a := by
        rw [position_eq, position_eq]
        exact s.position_mono hba
      rw [← unitsOf_position s a, ← unitsOf_position s b, Position.le_antisymm h hle]
  · intro h
    rcases Nat.le_total a b with hab | hba
    · rw [position_eq, position_eq]
      exact s.position_mono hab
    · rw [← positionOf_units s a, ← positionOf_units s b, Nat.le_antisymm h (monotone_units s hba)]
      exact Position.le_refl _

/-- The start of a line is the first offset on it. -/
theorem Stands.isLeast_start {offset : Nat} {earlier line after : List Char}
    (h : Stands s offset earlier line after) :
    IsLeast {o | ((ofSource s).position s o).line = ((ofSource s).position s offset).line}
      (utf8Length earlier) := by
  refine ⟨(congrArg Position.line h.position_start :), fun o ho => ?_⟩
  by_contra hlt
  rw [Nat.not_le] at hlt
  -- On the same line and not behind its first column, `o` would have the position of the start.
  have hposition : (ofSource s).position s o ≤ (ofSource s).position s (utf8Length earlier) := by
    rw [position_eq, position_eq]
    exact s.position_mono (Nat.le_of_lt hlt)
  have hback : (ofSource s).position s (utf8Length earlier) ≤ (ofSource s).position s o := by
    rw [h.position_start]
    exact .inr ⟨ho.symm, Nat.zero_le _⟩
  have hunits := position_le_iff.1 hback
  have hstrict := strictMonoOn_units s (boundary_clamp o)
    ⟨earlier, line ++ after, h.chars.trans (List.append_assoc ..), rfl⟩
    (Nat.lt_of_le_of_lt (clamp_le o) hlt)
  rw [units_clamp] at hstrict
  omega

/-- **Lines and columns order the places of a text as its UTF-16 units do.** Of two byte offsets, one
stands at or before the other by line and column exactly if it does by the units before it. The units
never fall as the offset grows, and rise from one character boundary to the next. They are those
before the first offset on the same line, which the index has as the start of this line, and the
column. So the location and the range of a label can each be computed from the other. -/
theorem position_alike_units (s : Source) :
    (∀ a b, (ofSource s).position s a ≤ (ofSource s).position s b ↔
      (ofSource s).units s a ≤ (ofSource s).units s b) ∧
    Monotone ((ofSource s).units s) ∧
    StrictMonoOn ((ofSource s).units s) {o | Boundary s.chars.toList o} ∧
    (∀ a, ∃ start, (ofSource s).lineStarts[((ofSource s).position s a).line - 1]? = some start ∧
      IsLeast {o | ((ofSource s).position s o).line = ((ofSource s).position s a).line} start ∧
      (ofSource s).units s a =
        (ofSource s).units s start + ((ofSource s).position s a).column) ∧
    ∀ file a b, let label := Label.ofBytes s file a b
      label.loc = ⟨file, (ofSource s).position s a, (ofSource s).position s b⟩ ∧
      label.range = ⟨(ofSource s).units s a, (ofSource s).units s b⟩ ∧
      label.range =
        ⟨(ofSource s).unitsOf s label.loc.start, (ofSource s).unitsOf s label.loc.stop⟩ ∧
      label.loc = ⟨file, (ofSource s).positionOf s label.range.start,
        (ofSource s).positionOf s label.range.stop⟩ := by
  refine ⟨fun a b => position_le_iff, monotone_units s, strictMonoOn_units s, fun a => ?_, ?_⟩
  · obtain ⟨earlier, line, after, h⟩ := exists_stands s a
    exact ⟨utf8Length earlier, h.getElem?_line, h.isLeast_start, h.units_position⟩
  · intro file a b
    simp only [Label.ofBytes, ← units_eq, ← position_eq, unitsOf_position, positionOf_units,
      and_self]

end LineIndex

end Estree
