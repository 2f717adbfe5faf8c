import Estree.Proofs.Rounding

/-!
# Integer literals

An integer literal of ECMAScript stands for the number that its digits write (`IntegerLiteral`). Without
its separators and the suffix of a big integer it has the mark of a radix after a zero
(`NumericLiteral.value?_marked`), or it is of decimal digits, which are octal if all of them may be and
the first of several is a zero (`NumericLiteral.value?_digits`).

Digits of a radix are rounded one by one, but as long as the whole number is at most `2^53` no number on
the way is larger, and none is rounded (`NumericLiteral.ofDigits?_exact`). A decimal is rounded once
(`Double.ofText?_exact`). So the literal is read as the integer itself.
-/

namespace Estree

/-- The radix that a letter behind a zero stands for. -/
def radixOf? : Char → Option Nat
  | 'x' | 'X' => some 16
  | 'o' | 'O' => some 8
  | 'b' | 'B' => some 2
  | _ => none

/-- The integers that may have the suffix of a big integer: decimal digits without a zero in front, and
digits of a radix behind its mark. -/
inductive Numeral : List Char → Nat → Prop
  | decimal {digits : List Char} {n : Nat} : digits ≠ [] → (digits.head? = some '0' → digits = ['0']) →
    Writes 10 digits n → Numeral digits n
  | marked {mark : Char} {radix : Nat} {digits : List Char} {n : Nat} : radixOf? mark = some radix →
    digits ≠ [] → Writes radix digits n → Numeral ('0' :: mark :: digits) n

/-- The integer literals of the language without separators, and the integers that they stand for. -/
inductive IntegerLiteral : List Char → Nat → Prop
  | number {cs : List Char} {n : Nat} : Numeral cs n → IntegerLiteral cs n
  | bigInteger {cs : List Char} {n : Nat} : Numeral cs n → IntegerLiteral (cs ++ ['n']) n
  /-- Octal digits behind a zero. -/
  | legacyOctal {digits : List Char} {n : Nat} : digits ≠ [] → Writes 8 digits n →
    IntegerLiteral ('0' :: digits) n
  /-- Decimal digits behind a zero, not all of them octal. -/
  | zeroLed {digits : List Char} {n : Nat} : (∃ c ∈ digits, c = '8' ∨ c = '9') → Writes 10 digits n →
    IntegerLiteral ('0' :: digits) n

/-- A text without one final `n` is another. -/
inductive Unsuffixed : List Char → List Char → Prop
  | plain {cs : List Char} : cs.getLast? ≠ some 'n' → Unsuffixed cs cs
  | suffixed {cs : List Char} : Unsuffixed (cs ++ ['n']) cs

variable {radix acc n d : Nat} {c mark : Char} {raw cs text digits : List Char}

/-! ## Digits -/

theorem toLower_of_isDecimal (h : isDecimal c) : c.toLower = c := by
  obtain ⟨-, hle⟩ := isDecimal_iff.1 h
  refine dif_neg fun hupper => ?_
  exact absurd (Char.le_trans hupper.1 hle) (by decide)

theorem radixOf?_of_isDecimal (h : isDecimal c) : radixOf? c = none := by
  unfold radixOf?
  split
  case h_7 => rfl
  all_goals exact absurd h (by decide)

theorem radixOf?_le (h : radixOf? mark = some radix) : radix ≤ 16 := by
  unfold radixOf? at h
  split at h <;> cases h <;> decide

/-! ## Suffixes -/

/-- The suffix of a big integer is no digit. -/
theorem getLast?_ne_suffix (hradix : radix ≤ 16) (h : Writes radix digits n) :
    digits.getLast? ≠ some 'n' := by
  intro hlast
  have hdigit := h.isSome_digitOf 'n' (List.mem_of_getLast? hlast)
  obtain ⟨d, hd⟩ := Option.isSome_iff_exists.1 hdigit
  obtain ⟨hvalue, hlt⟩ := Option.filter_eq_some_iff.1 hd
  have hd : d = 23 := (Option.some.inj hvalue).symm
  have hlt : d < radix := by simpa using hlt
  omega

theorem Unsuffixed.cons (h : Unsuffixed cs text) (hc : c ≠ 'n') : Unsuffixed (c :: cs) (c :: text) := by
  cases h with
  | plain hlast =>
    refine .plain ?_
    cases cs with
    | nil => exact fun heq => hc (Option.some.inj heq)
    | cons => rwa [List.getLast?_cons_cons]
  | suffixed =>
    rw [← List.cons_append]
    exact .suffixed

/-- A text with the mark of a radix is one without its suffix. -/
theorem Unsuffixed.marked (h : Unsuffixed cs digits) (hmark : radixOf? mark = some radix) :
    Unsuffixed ('0' :: mark :: cs) ('0' :: mark :: digits) := by
  have hne : mark ≠ 'n' := by
    rintro rfl
    cases hmark
  exact (h.cons hne).cons (by decide)

theorem Numeral.unsuffixed (h : Numeral cs n) : Unsuffixed cs cs := by
  cases h with
  | decimal _ _ hwrites => exact .plain (getLast?_ne_suffix (by decide) hwrites)
  | marked hmark _ hwrites =>
    exact Unsuffixed.marked (.plain (getLast?_ne_suffix (radixOf?_le hmark) hwrites)) hmark

/-! ## Doubles -/

namespace Double

/-- One more digit is not rounded as long as the number is at most `2^53`. -/
theorem appendDigit_exact (h : acc * radix + d ≤ 2 ^ 53) :
    appendDigit radix (finite false (acc * one)) d = finite false ((acc * radix + d) * one) := by
  have hunits (unit : Nat) : acc * unit * radix + d * unit = (acc * radix + d) * unit := by ring
  rw [← ofRatio_one h, ofRatio, appendDigit, hunits]

theorem ofDecimal_exact (h : n ≤ 2 ^ 53) : ofDecimal false n 0 = finite false (n * one) := by
  have hlength : decimalLength n ≤ 16 :=
    Nat.toDigits_length 10 n 16 (by decide) (Nat.lt_of_le_of_lt h (by decide))
  have hplaces : ¬310 < (0 : Int) + decimalLength n := by omega
  by_cases hzero : n = 0
  case pos =>
    subst hzero
    rw [Nat.zero_mul]
    rfl
  case neg =>
    have hpow : Nat.pow 10 0 = 1 := rfl
    have hfirst : ¬(n = 0 ∨ (0 : Int) + decimalLength n < -330) := by omega
    rw [ofDecimal, if_neg hfirst, if_neg hplaces, if_neg (Int.lt_irrefl 0), Int.toNat_zero,
      hpow, Nat.mul_one, ofRatio_one h]

/-- Decimal digits alone are a decimal without fraction and exponent. -/
theorem ofUnsigned?_digits (hne : digits ≠ []) (h : Writes 10 digits n) :
    ofUnsigned? false digits = some (ofDecimal false n 0) := by
  have hdecimal : ∀ c ∈ digits, isDecimal c := h.isSome_digitOf
  have htake : digits.takeWhile isDecimal = digits := List.takeWhile_eq_self_iff.2 hdecimal
  have hdrop : digits.dropWhile isDecimal = [] := List.dropWhile_eq_nil_iff.2 hdecimal
  have hnumber : numberOf? 10 (digits ++ []) = some n := by
    rw [List.append_nil]
    exact numberOf?_eq_some_iff.2 h
  have hfull : ¬(digits.isEmpty && ([] : List Char).isEmpty) = true := by simpa using hne
  unfold ofUnsigned?
  simp only [htake, hdrop]
  rw [if_neg hfull, hnumber]
  rfl

/-- Decimal digits have no sign and are no word. -/
theorem ofText?_digits (hne : digits ≠ []) (h : ∀ c ∈ digits, isDecimal c) :
    ofText? digits = ofUnsigned? false digits := by
  obtain ⟨c, cs, rfl⟩ := List.exists_cons_of_ne_nil hne
  have hc := h c List.mem_cons_self
  have hword {letter : Char} (hletter : ¬isDecimal letter) (word : List Char) :
      String.ofList ((c :: cs).map Char.toLower) ≠ String.ofList (letter :: word) := by
    intro heq
    obtain ⟨hhead, -⟩ := List.cons.inj (String.ofList_injective heq)
    rw [toLower_of_isDecimal hc] at hhead
    exact hletter (hhead ▸ hc)
  unfold ofText?
  split
  rename_i negative body hbody
  split at hbody
  case h_1 heq =>
    cases heq
    exact absurd hc (by decide)
  case h_2 heq =>
    cases heq
    exact absurd hc (by decide)
  case h_3 =>
    cases hbody
    have hinf := hword (by decide : ¬isDecimal 'i') ['n', 'f']
    have hinfinity := hword (by decide : ¬isDecimal 'i') ['n', 'f', 'i', 'n', 'i', 't', 'y']
    have hnan := hword (by decide : ¬isDecimal 'n') ['a', 'n']
    dsimp only
    rw [if_neg (not_or.2 ⟨hinf, hinfinity⟩), if_neg hnan]

theorem ofText?_exact (hne : digits ≠ []) (h : Writes 10 digits n) (hn : n ≤ 2 ^ 53) :
    ofText? digits = some (finite false (n * one)) := by
  rw [ofText?_digits hne h.isSome_digitOf, ofUnsigned?_digits hne h, ofDecimal_exact hn]

end Double

/-! ## Literals -/

namespace NumericLiteral

/-- Digits of a radix go on with a number without rounding as long as the whole is at most `2^53`. -/
theorem foldlM_exact (h : numberFrom? radix acc digits = some n) (hn : n ≤ 2 ^ 53) :
    digits.foldlM (fun d c => (digitOf radix c).map (Double.appendDigit radix d))
      (.finite false (acc * Double.one)) = some (.finite false (n * Double.one)) := by
  induction digits generalizing acc with
  | nil =>
    cases h
    rfl
  | cons c digits ih =>
    rw [numberFrom?_cons] at h
    obtain ⟨digit, hdigit, h⟩ := Option.bind_eq_some_iff.1 h
    have hle : acc * radix + digit ≤ 2 ^ 53 := Nat.le_trans (le_of_numberFrom? h) hn
    rw [List.foldlM_cons, hdigit, Option.map_some, Double.appendDigit_exact hle]
    exact ih h

theorem ofDigits?_exact (hne : digits ≠ []) (h : Writes radix digits n) (hn : n ≤ 2 ^ 53) :
    ofDigits? radix digits = some (.finite false (n * Double.one)) := by
  have hnumber : numberFrom? radix 0 digits = some n := numberOf?_eq_some_iff.2 h
  have hfold := foldlM_exact hnumber hn
  rw [Nat.zero_mul] at hfold
  rw [ofDigits?, if_neg (by simpa using hne)]
  exact hfold

theorem bare_eq (h : Unsuffixed (raw.filter (· != '_')) text) : bare raw = text := by
  unfold bare
  generalize raw.filter (· != '_') = cs at h
  cases h with
  | plain hlast => exact if_neg hlast
  | suffixed =>
    dsimp only
    rw [List.getLast?_concat, if_pos rfl, List.dropLast_concat]

/-- Digits behind the mark of a radix are read as such. -/
theorem value?_marked (hbare : bare raw = '0' :: mark :: digits) (hmark : radixOf? mark = some radix) :
    value? raw = ofDigits? radix digits := by
  unfold value?
  rw [hbare]
  unfold radixOf? at hmark
  split at hmark <;> cases hmark <;> rfl

/-- Decimal digits are read as octal digits or as a decimal. -/
theorem value?_digits (hbare : bare raw = digits) (h : ∀ c ∈ digits, isDecimal c) :
    value? raw = if isLegacyOctal digits then ofDigits? 8 digits else Double.ofText? digits := by
  have unmarked {mark : Char} {cs : List Char} (hcs : digits = '0' :: mark :: cs) :
      radixOf? mark = none := radixOf?_of_isDecimal (h mark (by simp [hcs]))
  unfold value?
  rw [hbare]
  split
  case h_7 => rfl
  all_goals exact absurd (unmarked rfl) (by decide)

theorem value?_numeral (hbare : bare raw = text) (h : Numeral text n) (hn : n ≤ 2 ^ 53) :
    value? raw = some (.finite false (n * Double.one)) := by
  cases h with
  | decimal hne hzero hwrites =>
    have hoctal : isLegacyOctal text = false := by
      unfold isLegacyOctal
      by_cases hhead : text.head? = some '0'
      · rw [hzero hhead]
        rfl
      · simp [hhead]
    rw [value?_digits hbare hwrites.isSome_digitOf, hoctal]
    exact Double.ofText?_exact hne hwrites hn
  | marked hmark hne hwrites => rw [value?_marked hbare hmark, ofDigits?_exact hne hwrites hn]

theorem isLegacyOctal_zero_cons (hne : digits ≠ []) (h : Writes 8 digits n) :
    isLegacyOctal ('0' :: digits) := by
  have hoctal : ∀ c ∈ digits, isOctal c := h.isSome_digitOf
  have hzero : isOctal '0' := rfl
  have hlength : 1 < ('0' :: digits).length := Nat.succ_lt_succ (List.length_pos_of_ne_nil hne)
  rw [isLegacyOctal, List.all_cons, hzero, List.all_eq_true.2 hoctal, decide_eq_true hlength]
  rfl

theorem not_isLegacyOctal_of_mem (hc : c = '8' ∨ c = '9') (hmem : c ∈ digits) :
    isLegacyOctal digits = false := by
  have hall : digits.all isOctal = false := by
    rw [List.all_eq_false]
    exact ⟨c, hmem, (isDecimal_and_not_isOctal.2 hc).2⟩
  rw [isLegacyOctal, hall, Bool.and_false]

theorem value?_literal (h : IntegerLiteral (raw.filter (· != '_')) n) (hn : n ≤ 2 ^ 53) :
    value? raw = some (.finite false (n * Double.one)) := by
  have bare_eq_of {text : List Char} (hsuffix : Unsuffixed (raw.filter (· != '_')) text) :
      bare raw = text := bare_eq hsuffix
  generalize raw.filter (· != '_') = cs at h bare_eq_of
  cases h with
  | number h => exact value?_numeral (bare_eq_of h.unsuffixed) h hn
  | bigInteger h => exact value?_numeral (bare_eq_of .suffixed) h hn
  | @legacyOctal digits _ hne hwrites =>
    have hwhole : Writes 8 ('0' :: digits) n := hwrites.zero_cons (by decide)
    have hbare := bare_eq_of (.plain (getLast?_ne_suffix (by decide) hwhole))
    have hdecimal : ∀ c ∈ '0' :: digits, isDecimal c := fun c hc =>
      isDecimal_of_isOctal (hwhole.isSome_digitOf c hc)
    rw [value?_digits hbare hdecimal, if_pos (isLegacyOctal_zero_cons hne hwrites)]
    exact ofDigits?_exact (List.cons_ne_nil _ _) hwhole hn
  | @zeroLed digits _ hlarge hwrites =>
    obtain ⟨c, hmem, hc⟩ := hlarge
    have hwhole : Writes 10 ('0' :: digits) n := hwrites.zero_cons (by decide)
    have hbare := bare_eq_of (.plain (getLast?_ne_suffix (by decide) hwhole))
    rw [value?_digits hbare hwhole.isSome_digitOf,
      not_isLegacyOctal_of_mem hc (List.mem_cons_of_mem _ hmem)]
    exact Double.ofText?_exact (List.cons_ne_nil _ _) hwhole hn

/-- **Integer literals have their exact value.** A text that is an integer literal once its separators
are removed is read as the integer that it stands for, if that is at most `2^53`. A text with the mark of
a radix has no value exactly if nothing is behind the mark, without separators and one final `n`, or a
character that is no digit of the radix. -/
theorem value?_integer (raw : List Char) :
    (∀ n, IntegerLiteral (raw.filter (· != '_')) n → n ≤ 2 ^ 53 →
      value? raw = some (.finite false (n * Double.one))) ∧
    ∀ mark radix rest digits, raw.filter (· != '_') = '0' :: mark :: rest →
      radixOf? mark = some radix → Unsuffixed rest digits →
      (value? raw = none ↔ digits = [] ∨ ∃ c ∈ digits, digitOf radix c = none) := by
  refine ⟨fun n h hn => value?_literal h hn, ?_⟩
  intro mark radix rest digits hcs hmark hrest
  have hbare := bare_eq (hcs ▸ hrest.marked hmark)
  rw [value?_marked hbare hmark]
  exact ofDigits?_eq_none_iff

/-- A big integer with separators, as large as it may be. -/
def separatedInteger : List Char := "0x20_0000_0000_0000n".toList

/-- A binary literal with a digit that is none. -/
def strayDigit : List Char := "0b1_2n".toList

theorem separatedInteger_value :
    (IntegerLiteral (separatedInteger.filter (· != '_')) (2 ^ 53) ∧
      value? separatedInteger = some (.finite false ((2 ^ 53 : Nat) * Double.one))) ∧
    (strayDigit.filter (· != '_') = ['0', 'b', '1', '2', 'n'] ∧ radixOf? 'b' = some 2 ∧
      Unsuffixed ['1', '2', 'n'] ['1', '2'] ∧ digitOf 2 '2' = none ∧ value? strayDigit = none) := by
  have hwrites : Writes 16 "20000000000000".toList (2 ^ 53) := numberOf?_eq_some_iff.1 (by decide)
  have hliteral : IntegerLiteral (separatedInteger.filter (· != '_')) (2 ^ 53) :=
    .bigInteger (.marked (rfl : radixOf? 'x' = some 16) (by decide) hwrites)
  have hvalue := (value?_integer separatedInteger).1 (2 ^ 53) hliteral (Nat.le_refl _)
  have hfilter : strayDigit.filter (· != '_') = ['0', 'b', '1', '2', 'n'] := by decide
  have hsuffix : Unsuffixed ['1', '2', 'n'] ['1', '2'] := @Unsuffixed.suffixed ['1', '2']
  have hdigit : digitOf 2 '2' = none := by decide
  have hnone := (value?_integer strayDigit).2 'b' 2 _ _ hfilter rfl hsuffix
  exact ⟨⟨hliteral, hvalue⟩, hfilter, rfl, hsuffix, hdigit, hnone.2 (.inr ⟨'2', by decide, hdigit⟩)⟩

end NumericLiteral

end Estree
