import Estree.Proofs.Source
import Estree.Text.LineIndex
import Mathlib.Data.Set.Card
import Mathlib.Order.Bounds.Basic

/-!
# Positions in a text

What the line and the column of a byte offset are, by the line terminators of the text alone
(`LineEnd`), and that a look-up in the table of a `Source` and a search in a `LineIndex` both give
them (`LineIndex.position_units`). The table goes through the text character by character, and the
index byte by byte: that the bytes of one character are never taken for a terminator is
`LineIndex.scan_encode`.
-/

namespace Estree

/-! ## Terminators -/

/-- A sequence of characters, standing between two parts of a text, ends a line. CR LF is one
sequence, and neither of its characters is one by itself. -/
inductive Terminator : (before sequence after : List Char) → Prop
  | crlf {before after} : Terminator before ['\r', '\n'] after
  | lf {before after} : before.getLast? ≠ some '\r' → Terminator before ['\n'] after
  | cr {before after} : after.head? ≠ some '\n' → Terminator before ['\r'] after
  | lineSeparator {before after} : Terminator before ['\u2028'] after
  | paragraphSeparator {before after} : Terminator before ['\u2029'] after

/-- A line terminator of a text ends at a byte offset. No two terminators end at one offset. -/
def LineEnd (cs : List Char) (offset : Nat) : Prop :=
  ∃ before sequence after, cs = before ++ sequence ++ after ∧ Terminator before sequence after ∧
    utf8Length (before ++ sequence) = offset

/-- A byte offset of a text does not lie inside a character. -/
def Boundary (cs : List Char) (offset : Nat) : Prop :=
  ∃ before after, cs = before ++ after ∧ utf8Length before = offset

/-! ## Lengths -/

@[simp] theorem utf8Length_nil : utf8Length [] = 0 := rfl

@[simp] theorem utf8Length_cons (c : Char) (cs : List Char) :
    utf8Length (c :: cs) = c.utf8Size + utf8Length cs := rfl

@[simp] theorem utf8Length_append (as bs : List Char) :
    utf8Length (as ++ bs) = utf8Length as + utf8Length bs := by
  induction as with
  | nil => simp
  | cons a as ih => simp [ih, Nat.add_assoc]

/-- Prefixes of a text are told apart by their lengths in bytes. -/
theorem append_inj_of_utf8Length {as bs cs ds : List Char} (h : as ++ bs = cs ++ ds)
    (hlen : utf8Length as = utf8Length cs) : as = cs ∧ bs = ds := by
  induction as generalizing cs with
  | nil =>
    cases cs with
    | nil => exact ⟨rfl, h⟩
    | cons c cs =>
      have := c.utf8Size_pos
      simp at hlen
      omega
  | cons a as ih =>
    cases cs with
    | nil =>
      have := a.utf8Size_pos
      simp at hlen
      omega
    | cons c cs =>
      obtain ⟨rfl, htail⟩ := List.cons.inj h
      obtain ⟨rfl, rfl⟩ := ih htail (by simpa using hlen)
      exact ⟨rfl, rfl⟩

/-! ## The ends of lines, character by character -/

/-- The offsets after the characters of a text that end a line, where the text begins at the offset
`i` and `rest` follows it. -/
def lineEnds (i : Nat) : (cs rest : List Char) → List Nat
  | [], _ => []
  | c :: cs, rest =>
    if endsLine c (cs ++ rest) then (i + c.utf8Size) :: lineEnds (i + c.utf8Size) cs rest
    else lineEnds (i + c.utf8Size) cs rest

section

variable {i e : Nat} {as bs cs rest : List Char}

theorem lineEnds_append : lineEnds i (as ++ bs) rest =
    lineEnds i as (bs ++ rest) ++ lineEnds (i + utf8Length as) bs rest := by
  induction as generalizing i with
  | nil => rfl
  | cons a as ih =>
    simp only [List.cons_append, lineEnds, ih, List.append_assoc, utf8Length_cons, Nat.add_assoc]
    split <;> rfl

/-- A line ends at an offset if a character that ends a line ends there. -/
theorem mem_lineEnds : e ∈ lineEnds i cs rest ↔ ∃ before c after,
    cs = before ++ c :: after ∧ endsLine c (after ++ rest) ∧
      e = i + utf8Length (before ++ [c]) := by
  induction cs generalizing i with
  | nil => simp [lineEnds]
  | cons c cs ih =>
    constructor
    · intro h
      rw [lineEnds] at h
      split at h
      case isTrue hc =>
        rcases List.mem_cons.1 h with rfl | h
        · exact ⟨[], c, cs, rfl, hc, by simp⟩
        · obtain ⟨before, d, after, rfl, hd, rfl⟩ := ih.1 h
          exact ⟨c :: before, d, after, rfl, hd, by simp [Nat.add_assoc]⟩
      case isFalse =>
        obtain ⟨before, d, after, rfl, hd, rfl⟩ := ih.1 h
        exact ⟨c :: before, d, after, rfl, hd, by simp [Nat.add_assoc]⟩
    · rintro ⟨before, d, after, heq, hd, rfl⟩
      cases before with
      | nil =>
        obtain ⟨rfl, rfl⟩ := List.cons.inj heq
        simp [lineEnds, hd]
      | cons b before =>
        obtain ⟨rfl, rfl⟩ := List.cons.inj heq
        have hmem := (ih (i := i + c.utf8Size)).2
          ⟨before, d, after, rfl, hd, by simp [Nat.add_assoc]⟩
        rw [lineEnds]
        split
        · exact .tail _ hmem
        · exact hmem

theorem lt_of_mem_lineEnds (h : e ∈ lineEnds i cs rest) : i < e := by
  obtain ⟨before, c, after, -, -, rfl⟩ := mem_lineEnds.1 h
  have hc := c.utf8Size_pos
  simp only [utf8Length_append, utf8Length_cons]
  omega

theorem le_of_mem_lineEnds (h : e ∈ lineEnds i cs rest) : e ≤ i + utf8Length cs := by
  obtain ⟨before, c, after, rfl, -, rfl⟩ := mem_lineEnds.1 h
  simp only [utf8Length_append, utf8Length_cons, utf8Length_nil]
  omega

theorem pairwise_lineEnds : (lineEnds i cs rest).Pairwise (· < ·) := by
  induction cs generalizing i with
  | nil => exact .nil
  | cons c cs ih =>
    rw [lineEnds]
    split
    · exact List.pairwise_cons.2 ⟨fun e he => lt_of_mem_lineEnds he, ih⟩
    · exact ih

/-- The characters that end a line are the last characters of the terminators. -/
theorem lineEnd_iff : LineEnd cs e ↔ e ∈ lineEnds 0 cs [] := by
  rw [mem_lineEnds]
  constructor
  · rintro ⟨before, sequence, after, rfl, hsequence, rfl⟩
    cases hsequence with
    | crlf => exact ⟨before ++ ['\r'], '\n', after, by simp, rfl, by simp⟩
    | lf => exact ⟨before, '\n', after, by simp, rfl, by simp⟩
    | cr h => exact ⟨before, '\r', after, by simp, by simpa [endsLine] using h, by simp⟩
    | lineSeparator => exact ⟨before, '\u2028', after, by simp, rfl, by simp⟩
    | paragraphSeparator => exact ⟨before, '\u2029', after, by simp, rfl, by simp⟩
  · rintro ⟨before, c, after, rfl, hc, rfl⟩
    have hone : ∀ {c : Char}, Terminator before [c] after →
        LineEnd (before ++ c :: after) (0 + utf8Length (before ++ [c])) :=
      fun h => ⟨before, _, after, by simp, h, by simp⟩
    rw [List.append_nil] at hc
    unfold endsLine at hc
    split at hc
    · by_cases hlast : before.getLast? = some '\r'
      · obtain ⟨before, rfl⟩ := List.getLast?_eq_some_iff.1 hlast
        exact ⟨before, ['\r', '\n'], after, by simp, .crlf, by simp⟩
      · exact hone (.lf hlast)
    · exact hone .lineSeparator
    · exact hone .paragraphSeparator
    · exact hone (.cr (by simpa using hc))
    · cases hc

end

/-! ## The table of places -/

namespace Place

/-- The place that is reached from another after a text that `rest` follows. -/
def advance (p : Place) : (cs rest : List Char) → Place
  | [], _ => p
  | c :: cs, rest => (p.after c (cs ++ rest)).advance cs rest

variable {p : Place} {cs rest : List Char}

theorem byte_advance : (p.advance cs rest).byte = p.byte + utf8Length cs := by
  induction cs generalizing p with
  | nil => rfl
  | cons c cs ih => rw [advance, ih, after, utf8Length_cons, Nat.add_assoc]

theorem index_advance : (p.advance cs rest).index = p.index + cs.length := by
  induction cs generalizing p with
  | nil => rfl
  | cons c cs ih => rw [advance, ih, after, List.length_cons, Nat.add_assoc, Nat.add_comm 1]

theorem units_advance : (p.advance cs rest).units = p.units + utf16Length cs := by
  induction cs generalizing p with
  | nil => rfl
  | cons c cs ih => rw [advance, ih, after, utf16Length_cons, Nat.add_assoc]

/-- The line grows by the number of lines that end. -/
theorem line_advance (p : Place) (i : Nat) (cs rest : List Char) : (p.advance cs rest).position.line =
    p.position.line + (lineEnds i cs rest).length := by
  induction cs generalizing p i with
  | nil => rfl
  | cons c cs ih =>
    rw [advance, ih _ (i + c.utf8Size), lineEnds, after]
    dsimp only
    split
    · rw [List.length_cons, Nat.add_assoc, Nat.add_comm 1]
    · rfl

/-- The column counts from the end of the last line that ends, if one does. -/
theorem column_advance (p : Place) (i : Nat) (cs rest : List Char) : ∃ earlier line, cs = earlier ++ line ∧
    (lineEnds i cs rest = [] ∧ earlier = [] ∧
        (p.advance cs rest).position.column = p.position.column + utf16Length line ∨
      (lineEnds i cs rest).getLast? = some (i + utf8Length earlier) ∧
        (p.advance cs rest).position.column = utf16Length line) := by
  induction cs generalizing p i with
  | nil => exact ⟨[], [], rfl, .inl ⟨rfl, rfl, rfl⟩⟩
  | cons c cs ih =>
    obtain ⟨earlier, line, rfl, hline⟩ := ih (p.after c (cs ++ rest)) (i + c.utf8Size)
    rw [advance, lineEnds]
    split
    case isTrue hc =>
      rcases hline with ⟨hends, rfl, hcolumn⟩ | ⟨hlast, hcolumn⟩
      · refine ⟨[c], line, rfl, .inr ⟨by simp_all, ?_⟩⟩
        rw [hcolumn, after, if_pos hc, Nat.zero_add]
      · refine ⟨c :: earlier, line, rfl, .inr ⟨?_, hcolumn⟩⟩
        rw [List.getLast?_cons, hlast, Option.getD_some, utf8Length_cons, Nat.add_assoc]
    case isFalse hc =>
      rcases hline with ⟨hends, rfl, hcolumn⟩ | ⟨hlast, hcolumn⟩
      · refine ⟨[], c :: line, rfl, .inl ⟨hends, rfl, ?_⟩⟩
        rw [hcolumn, after, if_neg hc, utf16Length_cons, Nat.add_assoc]
      · refine ⟨c :: earlier, line, rfl, .inr ⟨?_, hcolumn⟩⟩
        rw [hlast, utf8Length_cons, Nat.add_assoc]

/-- The entry of a byte offset stands after the longest prefix that ends at or before it. -/
theorem getElem_table {i : Nat} (h : i < (table p cs).length) : ∃ before after,
    cs = before ++ after ∧ (table p cs)[i] = p.advance before after ∧ utf8Length before ≤ i ∧
      ∀ c rest, after = c :: rest → i < utf8Length before + c.utf8Size := by
  induction cs generalizing p i with
  | nil =>
    have hi : i = 0 := by simpa [table] using h
    subst hi
    exact ⟨[], [], rfl, rfl, Nat.le_refl _, by simp⟩
  | cons c cs ih =>
    by_cases hi : i < c.utf8Size
    · refine ⟨[], c :: cs, rfl, ?_, Nat.zero_le _, ?_⟩
      · simp [table, hi, advance]
      · rintro _ _ ⟨⟩
        simpa using hi
    · have hlater : i - c.utf8Size < (table (p.after c cs) cs).length := by
        simp only [table, List.length_append, List.length_replicate] at h
        omega
      obtain ⟨before, after, rfl, hget, hle, hnext⟩ := ih hlater
      refine ⟨c :: before, after, rfl, ?_, ?_, fun d rest hd => ?_⟩
      · simp only [table, List.getElem_append, List.length_replicate, dif_neg hi]
        exact hget
      · rw [utf8Length_cons]
        omega
      · have := hnext d rest hd
        rw [utf8Length_cons]
        omega

end Place

/-! ## The last boundary and the last line -/

section

variable {before after : List Char}

/-- The longest prefix that ends at or before an offset ends at the last boundary there. -/
theorem isGreatest_boundary {offset : Nat} (hle : utf8Length before ≤ offset)
    (hnext : ∀ c rest, after = c :: rest → offset < utf8Length before + c.utf8Size) :
    IsGreatest {p | Boundary (before ++ after) p ∧ p ≤ offset} (utf8Length before) := by
  refine ⟨⟨⟨before, after, rfl, rfl⟩, hle⟩, ?_⟩
  rintro p ⟨⟨pre, post, heq, rfl⟩, hp⟩
  rcases List.append_eq_append_iff.1 heq with ⟨mid, rfl, rfl⟩ | ⟨mid, rfl, rfl⟩
  · cases mid with
    | nil => simp
    | cons c mid =>
      have hlt := hnext c (mid ++ post) rfl
      simp only [utf8Length_append, utf8Length_cons] at hp
      omega
  · simp

/-- The lines that end in a prefix of a text are those of the text that end so far. -/
theorem lineEnd_and_le_iff {e : Nat} : LineEnd (before ++ after) e ∧ e ≤ utf8Length before ↔
    e ∈ lineEnds 0 before after := by
  rw [lineEnd_iff, lineEnds_append, List.append_nil, List.mem_append]
  constructor
  · rintro ⟨h | h, hle⟩
    · exact h
    · exact absurd (lt_of_mem_lineEnds h) (by omega)
  · intro h
    exact ⟨.inl h, by simpa using le_of_mem_lineEnds h⟩

theorem ncard_lineEnd :
    {e | LineEnd (before ++ after) e ∧ e ≤ utf8Length before}.ncard =
      (lineEnds 0 before after).length := by
  have hset : {e | LineEnd (before ++ after) e ∧ e ≤ utf8Length before} =
      ((lineEnds 0 before after).toFinset : Set Nat) := by
    ext e
    simpa using lineEnd_and_le_iff
  have hnodup : (lineEnds 0 before after).Nodup := pairwise_lineEnds.imp ne_of_lt
  rw [hset, Set.ncard_coe_finset, List.toFinset_card_of_nodup hnodup]

/-- The last line of a prefix, and where the table and the list of line ends have its start. -/
theorem exists_last_line (before after : List Char) : ∃ earlier line, before = earlier ++ line ∧
    IsGreatest {e | e = 0 ∨ LineEnd (before ++ after) e ∧ e ≤ utf8Length before}
      (utf8Length earlier) ∧
    (0 :: lineEnds 0 before after).getLast? = some (utf8Length earlier) ∧
    (Place.origin.advance before after).position.column = utf16Length line := by
  obtain ⟨earlier, line, hsplit, hline⟩ :=
    Place.column_advance .origin 0 before after
  simp only [lineEnd_and_le_iff]
  refine ⟨earlier, line, hsplit, ?_, ?_, ?_⟩
  · rcases hline with ⟨hends, rfl, -⟩ | ⟨hlast, -⟩
    · simp [hends]
    · obtain ⟨ends, hends⟩ := List.getLast?_eq_some_iff.1 hlast
      rw [Nat.zero_add] at hends
      have hsorted : (lineEnds 0 before after).Pairwise (· < ·) := pairwise_lineEnds
      rw [hends] at hsorted ⊢
      refine ⟨.inr (by simp), ?_⟩
      rintro e (rfl | he)
      · exact Nat.zero_le _
      · rcases List.mem_append.1 he with he | he
        · exact Nat.le_of_lt ((List.pairwise_append.1 hsorted).2.2 e he _ (List.mem_singleton_self _))
        · exact Nat.le_of_eq (List.mem_singleton.1 he)
  · rcases hline with ⟨hends, rfl, -⟩ | ⟨hlast, -⟩
    · rw [hends]
      rfl
    · rw [List.getLast?_cons, hlast, Option.getD_some, Nat.zero_add]
  · rcases hline with ⟨-, -, hcolumn⟩ | ⟨-, hcolumn⟩
    · simpa [Place.origin] using hcolumn
    · exact hcolumn

end

/-- The place of an offset stands after the longest prefix that ends at or before it. -/
theorem Source.exists_place (s : Source) (offset : Nat) : ∃ before after,
    s.chars.toList = before ++ after ∧ s.place offset = Place.origin.advance before after ∧
      utf8Length before ≤ min offset s.size ∧
      ∀ c rest, after = c :: rest → min offset s.size < utf8Length before + c.utf8Size := by
  have h : min offset s.size < (Place.table .origin s.chars.toList).length := by
    rw [Place.length_table, ← s.size_eq]
    omega
  obtain ⟨before, after, hsplit, hget, hle, hnext⟩ := Place.getElem_table h
  refine ⟨before, after, hsplit, ?_, hle, hnext⟩
  simp only [place, s.places_eq, List.getElem_toArray]
  exact hget

/-! ## The bytes of characters -/

/-- The bytes of a text in UTF-8. -/
def utf8 (cs : List Char) : List UInt8 := cs.flatMap String.utf8EncodeChar

theorem utf8_cons (c : Char) (cs : List Char) :
    utf8 (c :: cs) = String.utf8EncodeChar c ++ utf8 cs := List.flatMap_cons

theorem length_utf8 (cs : List Char) : (utf8 cs).length = utf8Length cs := by
  induction cs with
  | nil => rfl
  | cons c cs ih =>
    rw [utf8_cons, List.length_append, ih, String.length_utf8EncodeChar, utf8Length_cons]

namespace LineIndex

open String (utf8EncodeChar)

theorem ofNat_inj_of_lt {n m : Nat} (hn : n < 256) (hm : m < 256)
    (h : UInt8.ofNat n = UInt8.ofNat m) : n = m := by
  rwa [← UInt8.toNat_inj, UInt8.toNat_ofNat', UInt8.toNat_ofNat', Nat.mod_eq_of_lt hn,
    Nat.mod_eq_of_lt hm] at h

theorem isContinuation_ofNat (n : Nat) : isContinuation (UInt8.ofNat (n % 64 + 128)) := by
  have h : n % 64 + 128 < 256 := by omega
  simp [isContinuation, UInt8.le_iff_toNat_le, UInt8.lt_iff_toNat_lt]
  omega

/-- An ASCII character is its only byte. Any other has a first byte from C0 on, and continuation
bytes after it. -/
theorem encode_cases (c : Char) :
    (c.toNat < 0x80 ∧ utf8EncodeChar c = [UInt8.ofNat c.toNat]) ∨
    0x80 ≤ c.toNat ∧ ∃ first rest, utf8EncodeChar c = UInt8.ofNat first :: rest ∧
      0xC0 ≤ first ∧ first < 0x100 ∧ ∀ b ∈ rest, isContinuation b := by
  have hc : c.toNat = c.val.toNat := rfl
  unfold utf8EncodeChar
  dsimp only
  split
  case isTrue h => exact .inl ⟨by omega, rfl⟩
  case isFalse h =>
    refine .inr ⟨by omega, ?_⟩
    split
    · exact ⟨_, _, rfl, by omega, by omega,
        List.forall_mem_cons.2 ⟨isContinuation_ofNat _, nofun⟩⟩
    · split
      · exact ⟨_, _, rfl, by omega, by omega, List.forall_mem_cons.2
          ⟨isContinuation_ofNat _, List.forall_mem_cons.2 ⟨isContinuation_ofNat _, nofun⟩⟩⟩
      · exact ⟨_, _, rfl, by omega, by omega, List.forall_mem_cons.2
          ⟨isContinuation_ofNat _, List.forall_mem_cons.2 ⟨isContinuation_ofNat _,
            List.forall_mem_cons.2 ⟨isContinuation_ofNat _, nofun⟩⟩⟩⟩

theorem eq_of_toNat {c d : Char} (h : c.toNat = d.toNat) : c = d :=
  Char.ext (UInt32.toNat_inj.1 h)

/-- A first byte below 80 is the character. -/
theorem eq_of_first {c d : Char} {first : UInt8} {rest : List UInt8} {n : Nat}
    (henc : utf8EncodeChar c = first :: rest) (hd : d.toNat = n) (hn : n < 0x80)
    (h : first = UInt8.ofNat n) : c = d := by
  subst h
  rcases encode_cases c with ⟨hc, hone⟩ | ⟨-, first, rest, hmany, hlow, hhigh, -⟩
  · obtain ⟨hfirst, -⟩ := List.cons.inj (henc.symm.trans hone)
    exact eq_of_toNat ((ofNat_inj_of_lt (by omega) (by omega) hfirst).symm.trans hd.symm)
  · obtain ⟨hfirst, -⟩ := List.cons.inj (henc.symm.trans hmany)
    have := ofNat_inj_of_lt (by omega) hhigh hfirst
    omega

/-- Only the separators of lines and paragraphs have the three bytes that the scan looks for. -/
theorem separator_of_bytes {c : Char} {bs : List UInt8}
    (hfirst : (utf8EncodeChar c ++ bs)[0]? = some 0xE2)
    (hsecond : (utf8EncodeChar c ++ bs)[1]? = some 0x80)
    (hthird : (utf8EncodeChar c ++ bs)[2]? = some 0xA8 ∨
      (utf8EncodeChar c ++ bs)[2]? = some 0xA9) : c = '\u2028' ∨ c = '\u2029' := by
  have hc : c.toNat = c.val.toNat := rfl
  have hE2 : ∀ n : Nat, n < 256 → some (UInt8.ofNat n) = some 0xE2 → n = 0xE2 := fun n hn h =>
    ofNat_inj_of_lt hn (by decide) (Option.some.inj h)
  unfold utf8EncodeChar at hfirst hsecond hthird
  dsimp only at hfirst hsecond hthird
  split at hfirst
  case isTrue => exact absurd (hE2 _ (by omega) hfirst) (by omega)
  case isFalse hone =>
    split at hfirst
    case isTrue => exact absurd (hE2 _ (by omega) hfirst) (by omega)
    case isFalse htwo =>
      split at hfirst
      case isTrue hthree =>
        rw [if_neg hone, if_neg htwo, if_pos hthree] at hsecond hthird
        have hfirst := hE2 _ (by omega) hfirst
        have hsecond := ofNat_inj_of_lt (m := 0x80) (by omega) (by decide) (Option.some.inj hsecond)
        rcases hthird with h | h
        · have hthird := ofNat_inj_of_lt (m := 0xA8) (by omega) (by decide) (Option.some.inj h)
          exact .inl (eq_of_toNat (show c.toNat = 0x2028 by omega))
        · have hthird := ofNat_inj_of_lt (m := 0xA9) (by omega) (by decide) (Option.some.inj h)
          exact .inr (eq_of_toNat (show c.toNat = 0x2029 by omega))
      case isFalse => exact absurd (hE2 _ (by omega) hfirst) (by omega)

/-! ## The scan over the bytes -/

variable {i : Nat} {bs : List UInt8}

/-- The scan passes over continuation bytes. -/
theorem scan_continuations {rest : List UInt8} (h : ∀ b ∈ rest, isContinuation b) :
    scan i 0 (rest ++ bs) = scan (i + rest.length) 0 bs := by
  induction rest generalizing i with
  | nil => rfl
  | cons b rest ih =>
    obtain ⟨hb, hrest⟩ := List.forall_mem_cons.1 h
    have hlf : b ≠ 0x0A := by rintro rfl; cases hb
    have hcr : b ≠ 0x0D := by rintro rfl; cases hb
    have hE2 : b ≠ 0xE2 := by rintro rfl; cases hb
    rw [List.cons_append, scan, if_neg hlf, if_neg hcr, if_neg fun h => hE2 h.1, ih hrest,
      List.length_cons, Nat.add_assoc, Nat.add_comm 1]

/-- The scan passes over a character that is no terminator. -/
theorem scan_plain {c : Char} (hlf : c ≠ '\n') (hcr : c ≠ '\r') (hls : c ≠ '\u2028')
    (hps : c ≠ '\u2029') :
    scan i 0 (utf8EncodeChar c ++ bs) = scan (i + c.utf8Size) 0 bs := by
  obtain ⟨first, rest, henc, hrest⟩ :
      ∃ first rest, utf8EncodeChar c = first :: rest ∧ ∀ b ∈ rest, isContinuation b := by
    rcases encode_cases c with ⟨-, henc⟩ | ⟨-, first, rest, henc, -, -, hrest⟩
    · exact ⟨_, _, henc, nofun⟩
    · exact ⟨_, _, henc, hrest⟩
  have hlf' : first ≠ 0x0A := fun h =>
    hlf (eq_of_first henc rfl (by decide) h)
  have hcr' : first ≠ 0x0D := fun h =>
    hcr (eq_of_first henc rfl (by decide) h)
  have hsep : ¬(first = 0xE2 ∧ (rest ++ bs)[0]? = some 0x80 ∧
      ((rest ++ bs)[1]? = some 0xA8 ∨ (rest ++ bs)[1]? = some 0xA9)) := by
    rintro ⟨rfl, hsecond, hthird⟩
    rcases @separator_of_bytes c bs (by rw [henc]; rfl) (by rw [henc]; exact hsecond)
      (by rw [henc]; exact hthird) with h | h
    · exact hls h
    · exact hps h
  rw [henc, List.cons_append, scan, if_neg hlf', if_neg hcr', if_neg hsep, scan_continuations hrest,
    ← String.length_utf8EncodeChar, henc, List.length_cons, Nat.add_assoc, Nat.add_comm 1]

/-- The scan finds, character by character, the ends of lines. The pair CR LF is passed in one step
of the scan and in two steps here. -/
theorem scan_encode (c : Char) (cs : List Char) : scan i 0 (utf8 (c :: cs)) =
    if endsLine c cs then (i + c.utf8Size) :: scan (i + c.utf8Size) 0 (utf8 cs)
    else scan (i + c.utf8Size) 0 (utf8 cs) := by
  by_cases hlf : c = '\n'
  · subst hlf
    rfl
  by_cases hls : c = '\u2028'
  · subst hls
    rfl
  by_cases hps : c = '\u2029'
  · subst hps
    rfl
  by_cases hcr : c = '\r'
  · subst hcr
    by_cases hnext : cs.head? = some '\n'
    · obtain ⟨cs, rfl⟩ := List.head?_eq_some_iff.1 hnext
      rfl
    · have hbyte : (utf8 cs)[0]? ≠ some 0x0A := by
        intro h
        cases cs with
        | nil => cases h
        | cons d cs =>
          obtain ⟨first, rest, henc⟩ := List.exists_cons_of_ne_nil (String.utf8EncodeChar_ne_nil (c := d))
          rw [utf8_cons, henc] at h
          exact hnext (congrArg some (eq_of_first henc rfl (by decide) (Option.some.inj h)))
      have hends : endsLine '\r' cs := by simpa [endsLine] using hnext
      rw [if_pos hends]
      show scan i 0 (0x0D :: utf8 cs) = _
      rw [scan, if_neg (by decide), if_pos rfl, if_neg hbyte]
      rfl
  · have hends : endsLine c cs = false := by
      unfold endsLine
      split <;> first | rfl | contradiction
    rw [utf8_cons, scan_plain hlf hcr hls hps, hends]
    rfl

/-- The line starts of an index are the ends of lines. -/
theorem scan_utf8 (cs : List Char) : scan i 0 (utf8 cs) = lineEnds i cs [] := by
  induction cs generalizing i with
  | nil => rfl
  | cons c cs ih => rw [scan_encode, lineEnds, List.append_nil, ih]

/-! ## Boundaries in the bytes -/

section

variable {before after : List Char}

theorem utf8_append : utf8 (before ++ after) = utf8 before ++ utf8 after := List.flatMap_append

theorem isBoundary_utf8Length : isBoundary (utf8 (before ++ after)) (utf8Length before) := by
  cases after with
  | nil => simp [isBoundary, length_utf8]
  | cons c after =>
    have hbyte : (utf8 (before ++ c :: after))[utf8Length before]? =
        (utf8EncodeChar c ++ utf8 after)[0]? := by
      rw [utf8_append, ← length_utf8, List.getElem?_append_right (Nat.le_refl _), Nat.sub_self,
        utf8_cons]
    simp only [isBoundary, hbyte, Bool.or_eq_true]
    right
    rcases encode_cases c with ⟨hc, henc⟩ | ⟨-, first, rest, henc, hlow, hhigh, -⟩ <;>
      simp only [henc, List.cons_append, List.getElem?_cons_zero, Option.any_some, isContinuation,
        Bool.not_and, Bool.or_eq_true, Bool.not_eq_true', decide_eq_false_iff_not,
        UInt8.le_iff_toNat_le, UInt8.lt_iff_toNat_lt, UInt8.toNat_ofNat']
    · left
      simp
      omega
    · right
      simp
      omega

theorem not_isBoundary_inside {c : Char} {offset : Nat} (hlow : utf8Length before < offset)
    (hhigh : offset < utf8Length before + c.utf8Size) :
    isBoundary (utf8 (before ++ c :: after)) offset = false := by
  rcases encode_cases c with ⟨-, henc⟩ | ⟨-, first, rest, henc, -, -, hrest⟩
  · have := String.length_utf8EncodeChar c
    rw [henc, List.length_singleton] at this
    omega
  · have hsize := String.length_utf8EncodeChar c
    rw [henc, List.length_cons] at hsize
    obtain ⟨k, rfl⟩ : ∃ k, offset = utf8Length before + (k + 1) :=
      ⟨offset - utf8Length before - 1, by omega⟩
    have hk : k < rest.length := by omega
    have hbyte : (utf8 (before ++ c :: after))[utf8Length before + (k + 1)]? = some rest[k] := by
      rw [utf8_append, utf8_cons, henc, ← length_utf8, List.getElem?_append_right (by omega),
        Nat.add_sub_cancel_left, List.cons_append, List.getElem?_cons_succ,
        List.getElem?_append_left hk, List.getElem?_eq_getElem hk]
    have hlength : utf8Length before + (k + 1) ≠ (utf8 (before ++ c :: after)).length := by
      simp only [length_utf8, utf8Length_append, utf8Length_cons]
      omega
    simp only [isBoundary, hbyte, Option.any_some, hrest _ (List.getElem_mem hk), Bool.not_true,
      Bool.or_false, Bool.or_eq_false_iff, beq_eq_false_iff_ne]
    exact ⟨by omega, hlength⟩

theorem backOff_eq {bytes : List UInt8} {p offset : Nat} (hp : isBoundary bytes p)
    (hle : p ≤ offset) (hinside : ∀ k, p < k → k ≤ offset → isBoundary bytes k = false) :
    backOff bytes offset = p := by
  induction offset with
  | zero => exact (Nat.le_zero.1 hle).symm
  | succ offset ih =>
    rw [backOff]
    rcases Nat.lt_or_eq_of_le hle with hlt | rfl
    · rw [hinside _ hlt (Nat.le_refl _), if_neg Bool.false_ne_true]
      exact ih (Nat.le_of_lt_succ hlt) fun k hk hle => hinside k hk (Nat.le_succ_of_le hle)
    · rw [if_pos hp]

end

/-! ## Look-ups in the index -/

/-- In an ASCII text, bytes and UTF-16 units are the same. -/
theorem utf16Length_of_ascii {cs : List Char} (h : (utf8 cs).all (· < 0x80)) :
    utf16Length cs = utf8Length cs := by
  induction cs with
  | nil => rfl
  | cons c cs ih =>
    rw [utf8_cons, List.all_append, Bool.and_eq_true] at h
    rw [utf16Length_cons, utf8Length_cons, ih h.2]
    rcases encode_cases c with ⟨hc, henc⟩ | ⟨-, first, rest, henc, hlow, hhigh, -⟩
    · rw [← String.length_utf8EncodeChar, henc, utf16Units, if_pos (by omega)]
      rfl
    · have hfirst := h.1
      rw [henc, List.all_cons, Bool.and_eq_true, decide_eq_true_eq, UInt8.lt_iff_toNat_lt,
        UInt8.toNat_ofNat', Nat.mod_eq_of_lt hhigh] at hfirst
      have := hfirst.1
      simp at this
      omega

section

variable {s : Source} {before after : List Char} (hs : s.chars.toList = before ++ after)
include hs

theorem bytes_eq : s.bytes = utf8 (before ++ after) := congrArg utf8 hs

/-- Clamping an offset gives the end of the longest prefix that ends at or before it. -/
theorem clamp_eq {offset : Nat} (hle : utf8Length before ≤ min offset s.size)
    (hnext : ∀ c rest, after = c :: rest → min offset s.size < utf8Length before + c.utf8Size) :
    (ofSource s).clamp s offset = utf8Length before := by
  have hlength : (ofSource s).length = s.size := by
    rw [s.size_eq]
    exact length_utf8 _
  rw [clamp, hlength, bytes_eq hs]
  refine backOff_eq isBoundary_utf8Length hle fun k hk hle' => ?_
  cases after with
  | nil =>
    have hsize : s.size = utf8Length before := by rw [s.size_eq, hs, List.append_nil]
    omega
  | cons c after => exact not_isBoundary_inside hk (Nat.lt_of_le_of_lt hle' (hnext c after rfl))

/-- The lines that start at or before the end of a prefix. -/
theorem takeWhile_lineStarts :
    (ofSource s).lineStarts.takeWhile (· ≤ utf8Length before) = 0 :: lineEnds 0 before after := by
  have hstarts : (ofSource s).lineStarts = 0 :: lineEnds 0 (before ++ after) [] := by
    rw [ofSource, bytes_eq hs, scan_utf8]
  have hlater : (lineEnds (0 + utf8Length before) after []).takeWhile (· ≤ utf8Length before) = [] := by
    cases hends : lineEnds (0 + utf8Length before) after [] with
    | nil => rfl
    | cons e es =>
      have hlt := lt_of_mem_lineEnds (hends ▸ List.mem_cons_self : e ∈ _)
      rw [List.takeWhile_cons, if_neg]
      simpa using hlt
  rw [hstarts, List.takeWhile_cons, if_pos (by simp), lineEnds_append, List.append_nil,
    List.takeWhile_append_of_pos, hlater, List.append_nil]
  intro e he
  simpa using le_of_mem_lineEnds he

theorem getElem?_lineStarts : (ofSource s).lineStarts[(lineEnds 0 before after).length]? =
    (0 :: lineEnds 0 before after).getLast? := by
  rw [← List.takeWhile_append_dropWhile (l := (ofSource s).lineStarts),
    takeWhile_lineStarts hs, List.getElem?_append_left (by simp), List.getLast?_eq_getElem?]
  rfl

/-- In an ASCII text, bytes and UTF-16 units of a prefix are the same. -/
theorem utf16Length_eq_utf8Length (hascii : (ofSource s).ascii) :
    utf16Length before = utf8Length before := by
  have hall : (utf8 (before ++ after)).all (· < 0x80) := bytes_eq hs ▸ hascii
  rw [utf8_append, List.all_append, Bool.and_eq_true] at hall
  exact utf16Length_of_ascii hall.1

end

end LineIndex

namespace Source

variable (s : Source)

theorem place_utf8Length {before after : List Char} (hs : s.chars.toList = before ++ after) :
    s.place (utf8Length before) = Place.origin.advance before after := by
  obtain ⟨before', after', hs', hplace, hle, hnext⟩ := s.exists_place (utf8Length before)
  have hmin : min (utf8Length before) s.size = utf8Length before := by
    rw [s.size_eq, hs, utf8Length_append]
    omega
  rw [hmin] at hle hnext
  have hgreatest := isGreatest_boundary hle hnext
  have hlen : utf8Length before ≤ utf8Length before' :=
    hgreatest.2 ⟨⟨before, after, hs' ▸ hs, rfl⟩, Nat.le_refl _⟩
  obtain ⟨rfl, rfl⟩ := append_inj_of_utf8Length (hs ▸ hs') (Nat.le_antisymm hlen hle)
  exact hplace

/-- The text between two boundaries. -/
theorem slice_append {before line after : List Char}
    (hs : s.chars.toList = before ++ line ++ after) :
    s.slice (utf8Length before) (utf8Length (before ++ line)) = line := by
  have hstart := s.place_utf8Length (hs.trans (List.append_assoc ..))
  have hstop := s.place_utf8Length hs
  have hbounds : utf8Length before ≤ utf8Length (before ++ line) ∧
      s.isBoundary (utf8Length before) ∧ s.isBoundary (utf8Length (before ++ line)) := by
    refine ⟨by simp, ?_, ?_⟩
    · simp [isBoundary, hstart, Place.byte_advance, Place.origin]
    · rw [isBoundary, hstop, Place.byte_advance]
      simp [Place.origin]
  rw [slice, slice?, if_pos hbounds, Option.getD_some, hstart, hstop, Place.index_advance,
    Place.index_advance, Array.toList_extract, List.extract_eq_take_drop, hs]
  simp [Place.origin]

end Source

namespace LineIndex

/-- Where an offset stands: the lines before, its own line up to it, and the text after it, with what
the table and the index have for it. -/
structure Stands (s : Source) (offset : Nat) (earlier line after : List Char) : Prop where
  chars : s.chars.toList = earlier ++ line ++ after
  clamp : (ofSource s).clamp s offset = utf8Length (earlier ++ line)
  start : (0 :: lineEnds 0 (earlier ++ line) after).getLast? = some (utf8Length earlier)
  units : s.units offset = utf16Length (earlier ++ line)
  position : s.position offset =
    ⟨1 + (lineEnds 0 (earlier ++ line) after).length, utf16Length line⟩

section

variable {s : Source} {offset : Nat} {earlier line after : List Char}

theorem stands_of_place (hs : s.chars.toList = earlier ++ line ++ after)
    (hplace : s.place offset = Place.origin.advance (earlier ++ line) after)
    (hle : utf8Length (earlier ++ line) ≤ min offset s.size)
    (hnext : ∀ c rest, after = c :: rest →
      min offset s.size < utf8Length (earlier ++ line) + c.utf8Size)
    (hstart : (0 :: lineEnds 0 (earlier ++ line) after).getLast? = some (utf8Length earlier))
    (hcolumn : (Place.origin.advance (earlier ++ line) after).position.column = utf16Length line) :
    Stands s offset earlier line after where
  chars := hs
  clamp := clamp_eq hs hle hnext
  start := hstart
  units := by
    rw [Source.units, hplace, Place.units_advance]
    exact Nat.zero_add _
  position := by
    have hline := Place.line_advance .origin 0 (earlier ++ line) after
    rw [Source.position, hplace]
    exact congrArg₂ Position.mk hline hcolumn

theorem exists_stands (s : Source) (offset : Nat) : ∃ earlier line after,
    Stands s offset earlier line after := by
  obtain ⟨before, after, hs, hplace, hle, hnext⟩ := s.exists_place offset
  obtain ⟨earlier, line, rfl, -, hstart, hcolumn⟩ := exists_last_line before after
  exact ⟨earlier, line, after, stands_of_place hs hplace hle hnext hstart hcolumn⟩

namespace Stands

variable (h : Stands s offset earlier line after)
include h

theorem slice_line : s.slice (utf8Length earlier) (utf8Length (earlier ++ line)) = line :=
  s.slice_append h.chars

theorem slice_prefix : s.slice 0 (utf8Length (earlier ++ line)) = earlier ++ line :=
  @Source.slice_append s [] (earlier ++ line) after h.chars

/-- In an ASCII text the column is a difference of byte offsets. -/
theorem column_of_ascii (hascii : (ofSource s).ascii) :
    utf8Length (earlier ++ line) - utf8Length earlier = utf16Length line := by
  have hline := utf16Length_eq_utf8Length h.chars hascii
  have hearlier := utf16Length_eq_utf8Length (h.chars.trans (List.append_assoc ..)) hascii
  rw [utf16Length_append] at hline
  rw [utf8Length_append] at hline ⊢
  omega

theorem index_units : (ofSource s).units s offset = utf16Length (earlier ++ line) := by
  rw [LineIndex.units, h.clamp]
  split
  case isTrue hascii => exact (utf16Length_eq_utf8Length h.chars hascii).symm
  case isFalse => exact congrArg utf16Length h.slice_prefix

theorem index_position : (ofSource s).position s offset =
    ⟨1 + (lineEnds 0 (earlier ++ line) after).length, utf16Length line⟩ := by
  simp only [LineIndex.position, h.clamp, takeWhile_lineStarts h.chars, List.length_cons,
    Nat.add_sub_cancel, getElem?_lineStarts h.chars, h.start, Option.getD_some, h.slice_line]
  rw [Nat.add_comm 1]
  split
  case isTrue hascii => rw [h.column_of_ascii hascii]
  case isFalse => rfl

end Stands

end

/-- **Positions are what the terminators of the text say.** Let `p`, the length of
`earlier ++ line`, be the last character boundary at or before a byte offset, and let `earlier` end
where the last line terminator up to `p` does. Then both the line index and the table of places give
the UTF-16 units before `p`, one more than the number of terminators up to `p` as the line, and the
UTF-16 units of `line` as the column. -/
theorem position_units (s : Source) (offset : Nat) : ∃ earlier line after,
    s.chars.toList = earlier ++ line ++ after ∧
    IsGreatest {p | Boundary s.chars.toList p ∧ p ≤ min offset (utf8Length s.chars.toList)}
      (utf8Length (earlier ++ line)) ∧
    IsGreatest {e | e = 0 ∨ LineEnd s.chars.toList e ∧ e ≤ utf8Length (earlier ++ line)}
      (utf8Length earlier) ∧
    (ofSource s).units s offset = utf16Length (earlier ++ line) ∧
    s.units offset = utf16Length (earlier ++ line) ∧
    (ofSource s).position s offset =
      ⟨1 + {e | LineEnd s.chars.toList e ∧ e ≤ utf8Length (earlier ++ line)}.ncard,
        utf16Length line⟩ ∧
    s.position offset = (ofSource s).position s offset := by
  obtain ⟨before, after, hs, hplace, hle, hnext⟩ := s.exists_place offset
  obtain ⟨earlier, line, rfl, hgreatest, hstart, hcolumn⟩ :=
    exists_last_line before after
  have hstands := stands_of_place hs hplace hle hnext hstart hcolumn
  refine ⟨earlier, line, after, hs, ?_, ?_, hstands.index_units, hstands.units, ?_,
    hstands.position.trans hstands.index_position.symm⟩
  · rw [← s.size_eq, hs]
    exact isGreatest_boundary hle hnext
  · rw [hs]
    exact hgreatest
  · rw [hs, ncard_lineEnd]
    exact hstands.index_position

end LineIndex

end Estree
