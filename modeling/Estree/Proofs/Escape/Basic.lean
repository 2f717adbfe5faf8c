import Estree.Proofs.Digit
import Estree.Text.Escape

/-!
# How far escapes go

An escape takes one character at least and none past the end of the text (`Escape.escape_taken`), and
the halves of a surrogate pair are together a character.
-/

namespace Estree.Escape

/-! ## Unicode escapes -/

/-- A brace closes behind the one that opens. -/
theorem close_bounds {chars : List Char} {close : Nat} (hopen : chars.head? = some '{')
    (hclose : chars.idxOf? '}' = some close) : 1 ≤ close ∧ close < chars.length := by
  obtain ⟨hlt, hget, -⟩ := List.idxOf?_eq_some_iff.1 hclose
  refine ⟨Nat.pos_of_ne_zero fun hzero => ?_, hlt⟩
  subst hzero
  rw [List.head?_eq_getElem?, List.getElem?_eq_getElem hlt, hget] at hopen
  exact absurd hopen (by decide)

/-- A Unicode escape takes some of the characters that follow. -/
theorem unicode?_taken {chars : List Char} {point taken : Nat}
    (h : unicode? chars = some (point, taken)) : 1 ≤ taken ∧ taken ≤ chars.length := by
  unfold unicode? at h
  split at h
  case isTrue hopen =>
    obtain ⟨close, hclose, h⟩ := Option.bind_eq_some_iff.1 h
    obtain ⟨_, -, h⟩ := Option.bind_eq_some_iff.1 h
    have := close_bounds hopen hclose
    split at h <;> cases h
    omega
  case isFalse =>
    split at h
    case isFalse => cases h
    case isTrue hlength =>
      obtain ⟨_, -, h⟩ := Option.bind_eq_some_iff.1 h
      cases h
      rw [List.length_take] at hlength
      omega

theorem lowHalf?_cons (rest : List Char) : lowHalf? ('\\' :: 'u' :: rest)
    = (unicode? rest).bind fun p =>
        if 0xDC00 ≤ p.1 ∧ p.1 < 0xE000 then some (p.1, p.2 + 2) else none := rfl

theorem lowHalf?_eq_none {cs : List Char} (h : cs[0]? = some '\\' → cs[1]? ≠ some 'u') :
    lowHalf? cs = none := by
  unfold lowHalf?
  split
  · exact absurd rfl (h rfl)
  · rfl

theorem lowHalf?_bounds {cs : List Char} {low taken : Nat}
    (h : lowHalf? cs = some (low, taken)) :
    0xDC00 ≤ low ∧ low < 0xE000 ∧ 2 < taken ∧ taken ≤ cs.length := by
  unfold lowHalf? at h
  split at h
  case h_2 => cases h
  case h_1 rest =>
    obtain ⟨⟨low, taken⟩, hunicode, h⟩ := Option.bind_eq_some_iff.1 h
    have htaken := unicode?_taken hunicode
    dsimp only at h
    split at h <;> cases h
    simp only [List.length_cons]
    omega

theorem charOf_surrogate {unit : Nat} (h : 0xD800 ≤ unit ∧ unit < 0xDC00) :
    charOf unit = replacement := by
  refine if_neg fun hvalid => ?_
  rcases hvalid with hvalid | hvalid
  · omega
  · omega

theorem isValidChar_combined {unit low : Nat} (hunit : 0xD800 ≤ unit ∧ unit < 0xDC00)
    (hlow : 0xDC00 ≤ low ∧ low < 0xE000) :
    (0x10000 + (unit - 0xD800) * 0x400 + (low - 0xDC00)).isValidChar := by
  generalize hpoint : 0x10000 + (unit - 0xD800) * 0x400 + (low - 0xDC00) = point
  exact .inr ⟨by omega, by omega⟩

theorem unicodeChar?_taken {cs : List Char} {c : Char} {taken : Nat}
    (h : unicodeChar? cs = some (c, taken)) : 1 ≤ taken ∧ taken ≤ cs.length := by
  obtain ⟨⟨unit, first⟩, hunicode, h⟩ := Option.bind_eq_some_iff.1 h
  have hfirst := unicode?_taken hunicode
  dsimp only at h
  split at h
  case isFalse =>
    cases h
    exact hfirst
  case isTrue =>
    split at h
    case h_2 =>
      cases h
      exact hfirst
    case h_1 low more hhalf =>
      obtain ⟨-, rfl⟩ := Prod.mk.inj (Option.some.inj h)
      obtain ⟨-, -, -, hmore⟩ := lowHalf?_bounds hhalf
      rw [List.length_drop] at hmore
      omega

/-! ## Other escapes -/

/-- After the first digit of an octal escape, two more belong to it, or one if that is above `3`. -/
theorem octalDigits_cons {first : Char} {rest : List Char} (h : isOctal first) :
    octalDigits (first :: rest)
      = first :: (rest.take (if first ≤ '3' then 2 else 1)).takeWhile isOctal := by
  have hcount : (if (first :: rest).head?.any (· ≤ '3') then 3 else 2)
      = (if first ≤ '3' then 2 else 1) + 1 := by
    simp only [List.head?_cons, Option.any_some, decide_eq_true_eq]
    split <;> rfl
  rw [octalDigits, hcount, List.take_succ_cons, List.takeWhile_cons, if_pos h]

theorem length_octalDigits {first : Char} {rest : List Char} (h : isOctal first) :
    1 ≤ (octalDigits (first :: rest)).length ∧
      (octalDigits (first :: rest)).length ≤ (first :: rest).length := by
  rw [octalDigits_cons h, List.length_cons, List.length_cons]
  have hle := (List.takeWhile_sublist isOctal (l := rest.take (if first ≤ '3' then 2 else 1))).length_le
  rw [List.length_take] at hle
  omega

/-- The escapes of digits and of characters that need none. -/
theorem escape_other {quote : Quote} {first : Char} {rest : List Char}
    (h : first ∉ ['n', 'r', 't', 'b', 'f', 'v', 'x', 'u', '\r', '\n', '\u2028', '\u2029']) :
    escape quote (first :: rest) =
      if first = '0' ∧ !rest.head?.any isDecimal then some (['\x00'], 1)
      else if isDecimal first then
        match quote with
        | .template => none
        | .string =>
          if isOctal first then
            let digits := octalDigits (first :: rest)
            (numberOf? 8 digits).map fun point => ([charOf point], digits.length)
          else some ([first], 1)
      else some ([first], 1) := by
  unfold escape
  split
  case h_15 heq =>
    cases heq
    rfl
  all_goals
    rename_i heq
    cases heq <;> simp at h

theorem escape_return {quote : Quote} {rest : List Char} : escape quote ('\r' :: rest)
    = some ([], if rest.head? = some '\n' then 2 else 1) := by
  cases rest with
  | nil => rfl
  | cons c rest =>
    by_cases hc : c = '\n'
    · subst hc
      rfl
    · rw [List.head?_cons, if_neg fun h => hc (Option.some.inj h)]
      unfold escape
      split
      case h_11 => rfl
      all_goals
        rename_i heq
        cases heq <;> simp_all

/-- An escape takes some of the characters after the backslash. -/
theorem escape_taken {quote : Quote} {cs value : List Char} {taken : Nat}
    (h : escape quote cs = some (value, taken)) : 1 ≤ taken ∧ taken ≤ cs.length := by
  unfold escape at h
  split at h
  case h_1 => cases h
  case h_8 rest =>
    split at h
    case isFalse => cases h
    case isTrue hlength =>
      obtain ⟨_, -, h⟩ := Option.map_eq_some_iff.1 h
      cases h
      rw [List.length_take] at hlength
      rw [List.length_cons]
      omega
  case h_9 rest =>
    obtain ⟨⟨_, _⟩, hunicode, h⟩ := Option.map_eq_some_iff.1 h
    cases h
    have htaken := unicodeChar?_taken hunicode
    rw [List.length_cons]
    omega
  case h_15 first rest _ _ _ _ _ _ _ _ _ _ _ _ _ =>
    have hone : 1 ≤ 1 ∧ 1 ≤ (first :: rest).length := by simp
    split at h
    · cases h
      exact hone
    split at h
    case isFalse =>
      cases h
      exact hone
    case isTrue =>
      split at h
      · cases h
      split at h
      case isFalse =>
        cases h
        exact hone
      case isTrue hoctal =>
        obtain ⟨_, -, h⟩ := Option.map_eq_some_iff.1 h
        cases h
        exact length_octalDigits hoctal
  all_goals
    cases h
    simp

end Estree.Escape
