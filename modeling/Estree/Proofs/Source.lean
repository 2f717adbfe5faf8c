import Estree.Text.Source

/-!
# Places keep their order

The places of a text are in order (`Place.pairwise_table`), so line and column as well as UTF-16 units
grow with the byte offset (`Source.position_mono`, `Source.units_mono`), also past the end and inside
characters. Each place stands after a prefix of the text (`Place.exists_prefix`). Between character
boundaries the parts of a text therefore make up the whole (`Source.slice_append_slice`), and its
characters and its UTF-16 units are the same text (`Source.utf16Slice_eq`).
-/

namespace Estree

namespace Position

theorem le_refl (a : Position) : a ≤ a := .inr ⟨rfl, Nat.le_refl _⟩

theorem le_trans {a b c : Position} (hab : a ≤ b) (hbc : b ≤ c) : a ≤ c := by
  change a.line < b.line ∨ a.line = b.line ∧ a.column ≤ b.column at hab
  change b.line < c.line ∨ b.line = c.line ∧ b.column ≤ c.column at hbc
  change a.line < c.line ∨ a.line = c.line ∧ a.column ≤ c.column
  omega

end Position

/-! ## Order of places -/

namespace Place

/-- A place stands at or before another in every respect. -/
structure Before (p q : Place) : Prop where
  byte : p.byte ≤ q.byte
  index : p.index ≤ q.index
  units : p.units ≤ q.units
  position : p.position ≤ q.position

theorem Before.refl (p : Place) : Before p p :=
  ⟨Nat.le_refl _, Nat.le_refl _, Nat.le_refl _, Position.le_refl _⟩

theorem Before.trans {p q r : Place} (hpq : Before p q) (hqr : Before q r) : Before p r :=
  ⟨Nat.le_trans hpq.byte hqr.byte, Nat.le_trans hpq.index hqr.index,
    Nat.le_trans hpq.units hqr.units, Position.le_trans hpq.position hqr.position⟩

theorem before_after (p : Place) (c : Char) (rest : List Char) : Before p (p.after c rest) := by
  refine ⟨Nat.le_add_right .., Nat.le_add_right .., Nat.le_add_right .., ?_⟩
  unfold after
  dsimp only
  split
  · exact .inl (Nat.lt_succ_self _)
  · exact .inr ⟨rfl, Nat.le_add_right ..⟩

theorem before_of_mem_table {p q : Place} {cs : List Char} (h : q ∈ table p cs) : Before p q := by
  induction cs generalizing p with
  | nil => exact List.mem_singleton.1 h ▸ .refl p
  | cons c rest ih =>
    rcases List.mem_append.1 h with h | h
    · exact (List.eq_of_mem_replicate h) ▸ .refl p
    · exact (before_after p c rest).trans (ih h)

theorem pairwise_table (p : Place) (cs : List Char) : (table p cs).Pairwise Before := by
  induction cs generalizing p with
  | nil => exact List.pairwise_singleton _ _
  | cons c rest ih =>
    refine List.pairwise_append.2 ⟨?_, ih _, fun a ha b hb => ?_⟩
    · exact List.pairwise_replicate.2 (.inr (.refl p))
    · rw [List.eq_of_mem_replicate ha]
      exact (before_after p c rest).trans (before_of_mem_table hb)

/-- Every place of a text stands after a prefix of it. -/
theorem exists_prefix {p q : Place} {cs : List Char} (h : q ∈ table p cs) :
    ∃ pre post, cs = pre ++ post ∧ q.byte = p.byte + utf8Length pre ∧
      q.index = p.index + pre.length ∧ q.units = p.units + utf16Length pre := by
  induction cs generalizing p with
  | nil => exact ⟨[], [], rfl, by simp [List.mem_singleton.1 h, utf16Length, utf8Length]⟩
  | cons c rest ih =>
    rcases List.mem_append.1 h with h | h
    · exact ⟨[], c :: rest, rfl, by simp [List.eq_of_mem_replicate h, utf16Length, utf8Length]⟩
    · obtain ⟨pre, post, rfl, hbyte, hindex, hunits⟩ := ih h
      refine ⟨c :: pre, post, rfl, ?_, ?_, ?_⟩
      · simp [hbyte, after, utf8Length, Nat.add_assoc]
      · simp [hindex, after]
        omega
      · simp [hunits, after, utf16Length, Nat.add_assoc]

end Place

namespace Source

variable (s : Source)

theorem place_mem (offset : Nat) : s.place offset ∈ Place.table .origin s.chars.toList := by
  have h : s.place offset ∈ s.places := Array.getElem_mem _
  simpa [s.places_eq] using h

theorem place_mono {a b : Nat} (h : a ≤ b) : (s.place a).Before (s.place b) := by
  have hsorted : s.places.toList.Pairwise Place.Before := by
    rw [s.places_eq]
    exact Place.pairwise_table .origin s.chars.toList
  have hmin : min a s.size ≤ min b s.size := by omega
  unfold place
  rcases Nat.lt_or_eq_of_le hmin with hlt | heq
  · exact List.pairwise_iff_getElem.1 hsorted _ _ _ _ hlt
  · simp only [heq]
    exact .refl _

/-- An offset past the end stands for the end. -/
theorem place_le_end (offset : Nat) : (s.place offset).Before (s.place s.size) := by
  have h : s.place offset = s.place (min offset s.size) := by
    simp only [place, Nat.min_assoc, Nat.min_self]
  exact h ▸ s.place_mono (Nat.min_le_right ..)

theorem units_mono {a b : Nat} (h : a ≤ b) : s.units a ≤ s.units b := (s.place_mono h).units

theorem position_mono {a b : Nat} (h : a ≤ b) : s.position a ≤ s.position b :=
  (s.place_mono h).position

end Source

/-! ## UTF-16 -/

/-- The UTF-16 units of a character: one, or a pair of surrogates. -/
def utf16Encode (c : Char) : List Nat :=
  if c.toNat < 0x10000 then [c.toNat]
  else [0xD800 + (c.toNat - 0x10000) / 0x400, 0xDC00 + (c.toNat - 0x10000) % 0x400]

/-- The UTF-16 units of a text. -/
def utf16 (cs : List Char) : List Nat := cs.flatMap utf16Encode

@[simp] theorem utf16Length_nil : utf16Length [] = 0 := rfl

@[simp] theorem utf16Length_cons (c : Char) (cs : List Char) :
    utf16Length (c :: cs) = utf16Units c + utf16Length cs := rfl

@[simp] theorem utf16Length_append (as bs : List Char) :
    utf16Length (as ++ bs) = utf16Length as + utf16Length bs := by
  induction as with
  | nil => simp
  | cons a as ih => simp [ih, Nat.add_assoc]

theorem length_utf16Encode (c : Char) : (utf16Encode c).length = utf16Units c := by
  unfold utf16Encode utf16Units
  split <;> rfl

theorem length_utf16 (cs : List Char) : (utf16 cs).length = utf16Length cs := by
  induction cs with
  | nil => rfl
  | cons c cs ih =>
    rw [utf16, List.flatMap_cons, List.length_append, ← utf16, ih, length_utf16Encode]
    rfl

theorem utf16_append (as bs : List Char) : utf16 (as ++ bs) = utf16 as ++ utf16 bs :=
  List.flatMap_append

namespace Source

variable (s : Source)

/-- The part of the UTF-16 encoding of a text between two offsets in units. -/
def utf16Slice (start stop : Nat) : List Nat :=
  ((utf16 s.chars.toList).drop start).take (stop - start)

/-- There is no text between offsets that do not run forward. -/
theorem slice_eq_nil {a b : Nat} (h : b ≤ a) : s.slice a b = [] := by
  unfold slice slice?
  split
  · next hforward =>
    obtain rfl := Nat.le_antisymm h hforward.1
    simp
  · rfl

/-- The text before an offset. -/
def before (offset : Nat) : List Char := s.chars.toList.take (s.place offset).index

theorem units_eq (offset : Nat) : s.units offset = utf16Length (s.before offset) := by
  obtain ⟨pre, post, hchars, -, hindex, hunits⟩ := Place.exists_prefix (s.place_mem offset)
  have hbefore : s.before offset = pre := by
    rw [before, hindex, hchars, Place.origin, Nat.zero_add, List.take_left]
  rw [units, hunits, hbefore, Place.origin, Nat.zero_add]

section

variable {s} {a b c : Nat} (ha : s.isBoundary a) (hb : s.isBoundary b) (hab : a ≤ b)
include ha hb hab

theorem before_append_slice : s.before a ++ s.slice a b = s.before b := by
  have hslice : s.slice a b = (s.before b).drop (s.place a).index := by
    rw [slice, slice?, if_pos ⟨hab, ha, hb⟩, Option.getD_some, Array.toList_extract,
      List.extract_eq_take_drop, before, List.drop_take]
  have hbefore : s.before a = (s.before b).take (s.place a).index := by
    rw [before, before, List.take_take, Nat.min_eq_left (s.place_mono hab).index]
  rw [hslice, hbefore, List.take_append_drop]

/-- Between two boundaries there are as many UTF-16 units as the text between them takes. -/
theorem units_add_slice : s.units a + utf16Length (s.slice a b) = s.units b := by
  rw [s.units_eq, s.units_eq, ← before_append_slice ha hb hab, utf16Length_append]

theorem slice_append_slice (hc : s.isBoundary c) (hbc : b ≤ c) :
    s.slice a b ++ s.slice b c = s.slice a c := by
  have hwhole := before_append_slice ha hc (Nat.le_trans hab hbc)
  rw [← before_append_slice hb hc hbc, ← before_append_slice ha hb hab, List.append_assoc] at hwhole
  exact (List.append_cancel_left hwhole).symm

end

theorem utf16Slice_eq {a b : Nat} (ha : s.isBoundary a) (hb : s.isBoundary b) (hab : a ≤ b) :
    s.utf16Slice (s.units a) (s.units b) = utf16 (s.slice a b) := by
  have hchars : s.chars.toList = s.before a ++ s.slice a b ++ s.chars.toList.drop (s.place b).index := by
    rw [before_append_slice ha hb hab, before, List.take_append_drop]
  have hlength : s.units b - s.units a = (utf16 (s.slice a b)).length := by
    rw [length_utf16, ← units_add_slice ha hb hab, Nat.add_sub_cancel_left]
  rw [utf16Slice, hlength, s.units_eq, ← length_utf16, hchars, utf16_append, utf16_append,
    List.append_assoc, List.drop_left, List.take_left]

end Source

end Estree
