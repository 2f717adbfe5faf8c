import Estree.Proofs.Escape.Basic
import Estree.Proofs.Escape.Grammar

/-!
# The value that is read is that of the grammar

`cook` reads a text in rounds. A round takes one piece, or two that are the halves of a surrogate pair
(`Escape.Round`), so a text that is read to its end has the value that the grammar gives it, and where
the reading stops an escape is malformed (`Escape.evaluates_cook`).

Two kinds of texts are read otherwise, and `Escape.Ordinary` excludes them: no more than eight digits
are read in braces, and the halves of a surrogate pair are not seen across a line continuation.
-/

namespace Estree

/-! ## Units and characters -/

section

variable {point : Nat} {c : Char} {us vs : List Nat}

/-- Units are read apart from each other, except for the halves of a surrogate pair. -/
theorem utf16Decode_append (h : ∀ high ∈ us.getLast?, ∀ low ∈ vs.head?, ¬(IsHigh high ∧ IsLow low)) :
    utf16Decode (us ++ vs) = utf16Decode us ++ utf16Decode vs := by
  fun_induction utf16Decode us with
  | case1 => rfl
  | case2 unit =>
    cases vs with
    | nil => rfl
    | cons v vs =>
      have hpair : ¬(IsHigh unit ∧ IsLow v) := h _ rfl _ rfl
      rw [List.singleton_append, utf16Decode, if_neg hpair, List.singleton_append]
  | case3 high low rest hpair ih =>
    have hrest : ∀ a ∈ rest.getLast?, ∀ b ∈ vs.head?, ¬(IsHigh a ∧ IsLow b) := by
      intro a ha
      refine h a ?_
      cases rest with
      | nil => cases ha
      | cons => exact ha
    rw [List.cons_append, List.cons_append, utf16Decode, if_pos hpair, ih hrest, List.cons_append]
  | case4 high low rest hpair ih =>
    rw [List.cons_append, List.cons_append, utf16Decode, if_neg hpair, ← List.cons_append, ih h,
      List.cons_append]

theorem codeUnits_of_lt (h : point < 0x10000) : codeUnits point = [point] := if_pos h

theorem codeUnits_ne_nil : codeUnits point ≠ [] := by
  unfold codeUnits
  split <;> nofun

/-- The last unit of a code point is the first half of a pair only if it is all of it. -/
theorem not_isHigh_last (h : ¬IsHigh point) : ∀ high ∈ (codeUnits point).getLast?, ¬IsHigh high := by
  unfold codeUnits
  split
  · rintro _ ⟨⟩
    exact h
  · have hlow : ¬IsHigh (0xDC00 + (point - 0x10000) % 0x400) := by
      unfold IsHigh
      omega
    intro high hlast
    exact Option.some.inj hlast ▸ hlow

/-- The first unit of a code point is the second half of a pair only if it is all of it. -/
theorem eq_of_isLow_first {low : Nat} (hbound : point ≤ 0x10FFFF) (hlow : IsLow low)
    (h : low ∈ (codeUnits point).head?) : low = point := by
  unfold codeUnits at h
  split at h
  · cases h
    rfl
  · have hfirst : ¬IsLow (0xD800 + (point - 0x10000) / 0x400) := by
      unfold IsLow
      omega
    cases h
    exact absurd hlow hfirst

theorem utf16Decode_codeUnits (h : point ≤ 0x10FFFF) :
    utf16Decode (codeUnits point) = [Escape.charOf point] := by
  unfold codeUnits
  split
  · rfl
  · have hvalid : point.isValidChar := .inr ⟨by omega, by omega⟩
    have hpair : IsHigh (0xD800 + (point - 0x10000) / 0x400) ∧
        IsLow (0xDC00 + (point - 0x10000) % 0x400) := by
      unfold IsHigh IsLow
      omega
    have hpoint : 0x10000 + (0xD800 + (point - 0x10000) / 0x400 - 0xD800) * 0x400
        + (0xDC00 + (point - 0x10000) % 0x400 - 0xDC00) = point := by omega
    rw [utf16Decode, if_pos hpair, hpoint, Escape.charOf, if_pos hvalid]
    rfl

theorem utf16Encode_eq : utf16Encode c = codeUnits c.toNat := rfl

theorem charOf_toNat : Escape.charOf c.toNat = c := by
  have hvalid : c.toNat.isValidChar := c.valid
  rw [Escape.charOf, if_pos hvalid, Char.ofNat_toNat]

theorem toNat_not_surrogate : c.toNat ≤ 0x10FFFF ∧ ¬IsHigh c.toNat ∧ ¬IsLow c.toNat := by
  have hvalid : c.toNat.isValidChar := c.valid
  unfold IsHigh IsLow
  rcases hvalid with h | h <;> omega

end

namespace Escape

variable {quote : Quote} {c : Char} {cs ds value rest : List Char} {units : List Nat}
  {point high low taken : Nat}

/-! ## Code points -/

theorem hexPoint?_eq_some_iff : hexPoint? ds = some point ↔
    ds ≠ [] ∧ ds.length ≤ 8 ∧ Writes 16 ds point := by
  unfold hexPoint?
  rw [← numberOf?_eq_some_iff]
  cases ds with
  | nil => simp
  | cons d ds =>
    simp only [List.isEmpty_cons, Bool.false_or, decide_eq_true_eq, ne_eq, reduceCtorEq,
      not_false_eq_true, true_and, ← Nat.not_lt]
    split
    case isTrue h => simp only [h, reduceCtorEq, not_true_eq_false, false_and]
    case isFalse h => simp only [h, not_false_eq_true, true_and]

/-- A text is what comes before a character, the character, and what comes after it. -/
theorem eq_of_idxOf? {k : Nat} (h : cs.idxOf? c = some k) :
    cs = cs.take k ++ c :: cs.drop (k + 1) := by
  obtain ⟨hk, hget, -⟩ := List.idxOf?_eq_some_iff.1 h
  rw [← hget, ← List.drop_eq_getElem_cons, List.take_append_drop]

/-- What a Unicode escape takes after `\u`, if it is read: four hexadecimal digits, or no more than eight
in braces. -/
inductive Code : List Char → Nat → Prop
  | four {digits : List Char} {point : Nat} : digits.length = 4 → Writes 16 digits point →
    Code digits point
  | braced {digits : List Char} {point : Nat} : digits ≠ [] → digits.length ≤ 8 →
    Writes 16 digits point → point ≤ 0x10FFFF → Code ('{' :: (digits ++ ['}'])) point

theorem Code.codePoint (h : Code cs point) : CodePoint (cs ++ rest) point rest := by
  cases h with
  | four hlength hwrites => exact .four hlength hwrites
  | braced hne _ hwrites hbound =>
    rw [List.cons_append, List.append_assoc]
    exact .braced hne hwrites hbound

/-- Digits in braces are read up to the brace that closes. -/
theorem unicode?_braced (h : ∀ c ∈ ds, isHex c) : unicode? ('{' :: (ds ++ '}' :: rest))
    = (hexPoint? ds).bind fun point =>
        if point ≤ 0x10FFFF then some (point, ds.length + 2) else none := by
  have hopen : ('{' :: (ds ++ '}' :: rest)).head? = some '{' := rfl
  have hclose : ('{' :: (ds ++ '}' :: rest)).idxOf? '}' = some (ds.length + 1) := by
    rw [List.idxOf?_cons, if_neg (by decide), idxOf?_close h]
    rfl
  have hdigits : (('{' :: (ds ++ '}' :: rest)).take (ds.length + 1)).drop 1 = ds := by
    rw [List.take_succ_cons, List.take_left, List.drop_succ_cons, List.drop_zero]
  unfold unicode?
  rw [if_pos hopen, hclose]
  simp only [Option.bind_eq_bind, Option.bind_some, hdigits]

/-- A code is read whatever comes after it. -/
theorem Code.unicode?_append (h : Code cs point) : unicode? (cs ++ rest) = some (point, cs.length) := by
  cases h with
  | four hlength hwrites =>
    have hne : cs ≠ [] := List.ne_nil_of_length_pos (by omega)
    have hopen : (cs ++ rest).head? ≠ some '{' := head?_ne_brace (isHex_of_writes hwrites) hne
    have htake : (cs ++ rest).take 4 = cs := List.take_left' hlength
    have hpoint : hexPoint? cs = some point := hexPoint?_eq_some_iff.2 ⟨hne, by omega, hwrites⟩
    rw [unicode?, if_neg hopen, htake, if_pos hlength, hpoint, hlength]
    rfl
  | @braced digits _ hne hfits hwrites hbound =>
    have hpoint : hexPoint? digits = some point := hexPoint?_eq_some_iff.2 ⟨hne, hfits, hwrites⟩
    rw [List.cons_append, List.append_assoc, List.singleton_append,
      unicode?_braced (isHex_of_writes hwrites), hpoint, Option.bind_some, if_pos hbound]
    simp

/-- What a Unicode escape is read from is a code. -/
theorem exists_code (h : unicode? cs = some (point, taken)) :
    ∃ code, Code code point ∧ code.length = taken ∧ cs = code ++ cs.drop taken := by
  unfold unicode? at h
  split at h
  case isTrue hopen =>
    obtain ⟨close, hclose, h⟩ := Option.bind_eq_some_iff.1 h
    obtain ⟨n, hpoint, h⟩ := Option.bind_eq_some_iff.1 h
    obtain ⟨hne, hfits, hwrites⟩ := hexPoint?_eq_some_iff.1 hpoint
    obtain ⟨hpos, hlt⟩ := close_bounds hopen hclose
    split at h
    case isFalse => cases h
    case isTrue hbound =>
      cases h
      obtain ⟨tail, rfl⟩ := List.head?_eq_some_iff.1 hopen
      obtain ⟨k, rfl⟩ : ∃ k, close = k + 1 := ⟨close - 1, by omega⟩
      have hsplit : tail = tail.take k ++ '}' :: tail.drop (k + 1) :=
        (List.cons.inj (eq_of_idxOf? hclose)).2
      have hlength : (tail.take k).length = k := by
        rw [List.length_cons] at hlt
        exact List.length_take_of_le (by omega)
      rw [List.take_succ_cons, List.drop_succ_cons, List.drop_zero] at hne hfits hwrites
      refine ⟨'{' :: (tail.take k ++ ['}']), .braced hne hfits hwrites hbound, by simp [hlength], ?_⟩
      rw [List.drop_succ_cons, List.cons_append, List.append_assoc, List.singleton_append, ← hsplit]
  case isFalse =>
    split at h
    case isFalse => cases h
    case isTrue hlength =>
      obtain ⟨n, hpoint, h⟩ := Option.bind_eq_some_iff.1 h
      cases h
      exact ⟨cs.take 4, .four hlength (hexPoint?_eq_some_iff.1 hpoint).2.2, hlength,
        (List.take_append_drop 4 cs).symm⟩

/-- What a Unicode escape is read as is written there. -/
theorem codePoint_of_unicode? (h : unicode? cs = some (point, taken)) :
    CodePoint cs point (cs.drop taken) := by
  obtain ⟨code, hcode, -, hcs⟩ := exists_code h
  have hpoint : CodePoint (code ++ cs.drop taken) point (cs.drop taken) := hcode.codePoint
  rwa [← hcs] at hpoint

/-- If a text goes on with digits in braces, they are eight at most. -/
def Fits (cs : List Char) : Prop :=
  ∀ digits rest, cs = '{' :: (digits ++ '}' :: rest) → (∀ c ∈ digits, isHex c) → digits.length ≤ 8

/-- A code point whose digits fit is a code. -/
theorem CodePoint.exists_code (h : CodePoint cs point rest) (hfits : Fits cs) :
    ∃ code, Code code point ∧ cs = code ++ rest := by
  cases h with
  | @four digits _ _ hlength hwrites => exact ⟨digits, .four hlength hwrites, rfl⟩
  | @braced digits _ _ hne hwrites hbound =>
    have hlength := hfits _ _ rfl (isHex_of_writes hwrites)
    exact ⟨_, .braced hne hlength hwrites hbound, by simp⟩

/-- A code point whose digits fit is read. -/
theorem CodePoint.unicode?_eq (h : CodePoint cs point rest) (hfits : Fits cs) :
    ∃ taken, unicode? cs = some (point, taken) ∧ cs.drop taken = rest := by
  obtain ⟨code, hcode, rfl⟩ := h.exists_code hfits
  exact ⟨code.length, hcode.unicode?_append, List.drop_left⟩

theorem CodePoint.le (h : CodePoint cs point rest) : point ≤ 0x10FFFF := by
  cases h with
  | four hlength hwrites =>
    have hlt := hwrites.lt
    rw [hlength] at hlt
    omega
  | braced _ _ hbound => exact hbound

theorem CodePoint.piece_of_lt (h : CodePoint cs point rest) (hlt : point < 0x10000) :
    Piece quote ('\\' :: 'u' :: cs) [point] rest := by
  rw [← codeUnits_of_lt hlt]
  exact .escape (.unicode h)

theorem codePoint_of_lowHalf? (h : lowHalf? cs = some (low, taken)) :
    ∃ ds, cs = '\\' :: 'u' :: ds ∧ CodePoint ds low (cs.drop taken) ∧ IsLow low := by
  unfold lowHalf? at h
  split at h
  case h_2 => cases h
  case h_1 ds =>
    obtain ⟨⟨unit, more⟩, hunicode, h⟩ := Option.bind_eq_some_iff.1 h
    dsimp only at h
    split at h
    case isFalse => cases h
    case isTrue hlow =>
      cases h
      exact ⟨ds, rfl, codePoint_of_unicode? hunicode, hlow⟩

/-! ## Rounds -/

/-- What one round reads a text as, and the text after it. -/
inductive Round (quote : Quote) : List Char → List Char → List Char → Prop
  | point {cs rest : List Char} {point : Nat} : Piece quote cs (codeUnits point) rest →
    point ≤ 0x10FFFF → ¬IsHigh point → Round quote cs [charOf point] rest
  | half {cs rest : List Char} {high : Nat} : CodePoint cs high rest → IsHigh high →
    lowHalf? rest = none → Round quote ('\\' :: 'u' :: cs) [replacement] rest
  | pair {cs ds rest : List Char} {high low : Nat} : CodePoint cs high ('\\' :: 'u' :: ds) →
    IsHigh high → CodePoint ds low rest → IsLow low →
    Round quote ('\\' :: 'u' :: cs)
      [Char.ofNat (0x10000 + (high - 0xD800) * 0x400 + (low - 0xDC00))] rest
  | continuation {cs rest : List Char} : LineTerminator cs rest → Round quote ('\\' :: cs) [] rest

theorem Round.of_char (h : Piece quote cs (utf16Encode c) rest) : Round quote cs [c] rest := by
  obtain ⟨hbound, hhigh, -⟩ := @toNat_not_surrogate c
  have hround := Round.point h hbound hhigh
  rwa [charOf_toNat] at hround

theorem Round.of_unit {unit : Nat} (h : Piece quote cs [unit] rest) (hunit : unit < 0xD800) :
    Round quote cs [charOf unit] rest := by
  rw [← codeUnits_of_lt (by omega : unit < 0x10000)] at h
  refine .point h (by omega) fun hhigh => ?_
  unfold IsHigh at hhigh
  omega

/-- A control character is read from its letter. -/
theorem Round.of_control {d : Char} (h : (c, d.toNat) ∈ controls) :
    Round quote ('\\' :: c :: cs) [d] cs := by
  have hall : ∀ p ∈ controls, p.2 < 0xD800 := by decide
  have hround : Round quote ('\\' :: c :: cs) [charOf d.toNat] cs :=
    .of_unit (.escape (.control h)) (hall _ h)
  rwa [charOf_toNat] at hround

theorem Round.of_lineFeed (h : Piece quote cs [0x0A] rest) : Round quote cs ['\n'] rest :=
  .of_unit h (by decide)

theorem Round.of_sequence {unit : Nat} (h : Sequence quote cs [unit] rest) (hunit : unit < 0xD800) :
    Round quote ('\\' :: cs) [charOf unit] rest := .of_unit (.escape h) hunit

theorem Round.of_unicode (h : unicodeChar? cs = some (c, taken)) :
    Round quote ('\\' :: 'u' :: cs) [c] (cs.drop taken) := by
  obtain ⟨⟨point, first⟩, hunicode, h⟩ := Option.bind_eq_some_iff.1 h
  have hpoint := codePoint_of_unicode? hunicode
  dsimp only at h
  split at h
  case isFalse hhigh =>
    cases h
    exact .point (.escape (.unicode hpoint)) hpoint.le hhigh
  case isTrue hhigh =>
    split at h
    case h_2 hhalf =>
      cases h
      exact .half hpoint hhigh hhalf
    case h_1 low more hhalf =>
      obtain ⟨rfl, rfl⟩ := Prod.mk.inj (Option.some.inj h)
      obtain ⟨ds, hds, hcode, hlow⟩ := codePoint_of_lowHalf? hhalf
      rw [hds] at hpoint
      rw [List.drop_drop] at hcode
      exact .pair hpoint hhigh hcode hlow

theorem round_of_hex (h : escape quote ('x' :: cs) = some (value, taken)) :
    Round quote ('\\' :: 'x' :: cs) value (('x' :: cs).drop taken) := by
  rw [escape] at h
  split at h
  case isFalse => cases h
  case isTrue hlength =>
    obtain ⟨n, hpoint, h⟩ := Option.map_eq_some_iff.1 h
    cases h
    have hwrites := (hexPoint?_eq_some_iff.1 hpoint).2.2
    have hlt := hwrites.lt
    match cs, hlength with
    | a :: b :: cs, _ => exact .of_sequence (.hex hwrites) (by simp at hlt; omega)

theorem goesOnOctal_iff : goesOnOctal cs ↔ ∃ d ds n, cs = d :: ds ∧ digitOf 8 d = some n := by
  unfold goesOnOctal
  cases cs with
  | nil => simp
  | cons d ds =>
    rw [List.head?_cons, Option.any_some, isOctal, Option.isSome_iff_exists]
    constructor
    · rintro ⟨n, hn⟩
      exact ⟨d, ds, n, rfl, hn⟩
    · rintro ⟨_, _, n, ⟨⟩, hn⟩
      exact ⟨n, hn⟩

theorem takeWhile_isOctal_of_not (h : ¬goesOnOctal cs) {k : Nat} :
    (cs.take k).takeWhile isOctal = [] := by
  cases cs with
  | nil => rw [List.take_nil, List.takeWhile_nil]
  | cons d ds =>
    have hd : ¬isOctal d := h
    cases k with
    | zero => rfl
    | succ k => rw [List.take_succ_cons, List.takeWhile_cons, if_neg hd]

theorem takeWhile_isOctal_cons {n : Nat} (h : digitOf 8 c = some n) {k : Nat} :
    ((c :: cs).take (k + 1)).takeWhile isOctal = c :: (cs.take k).takeWhile isOctal := by
  rw [List.take_succ_cons, List.takeWhile_cons, if_pos (isOctal_of_digitOf h)]

/-- One octal digit, and no more, is an escape, unless it is a zero that no digit follows. -/
theorem LegacyOctal.of_single {d : Nat} (hd : digitOf 8 c = some d) (hmore : ¬goesOnOctal cs)
    (hnull : c = '0' → cs.head?.any isDecimal) : LegacyOctal (c :: cs) d cs := by
  by_cases hzero : d = 0
  case neg => exact .nonZero hd hzero hmore
  case pos =>
    -- A zero that no octal digit follows is followed by `8` or `9`.
    subst hzero
    obtain rfl : c = '0' := Char.toNat_inj.1 (toNat_of_digitOf (by omega) hd)
    cases cs with
    | nil => cases hnull rfl
    | cons b cs => exact .zero (isDecimal_and_not_isOctal.1 ⟨hnull rfl, hmore⟩)

/-- The digits that are read as an octal escape are those that belong to it. -/
theorem legacyOctal_of_octalDigits (hoctal : isOctal c) (hnull : c = '0' → cs.head?.any isDecimal)
    (h : numberOf? 8 (octalDigits (c :: cs)) = some point) :
    LegacyOctal (c :: cs) point ((c :: cs).drop (octalDigits (c :: cs)).length) := by
  obtain ⟨d, hd⟩ := Option.isSome_iff_exists.1 hoctal
  have hcode := toNat_of_digitOf (by omega) hd
  have hfirst : c ≤ '3' ↔ d ≤ 3 := by
    rw [Char.le_def, UInt32.le_iff_toNat_le]
    change c.toNat ≤ 51 ↔ d ≤ 3
    omega
  rw [octalDigits_cons hoctal] at h ⊢
  by_cases hmore : goesOnOctal cs
  case neg =>
    rw [takeWhile_isOctal_of_not hmore] at h ⊢
    have hpoint : d = point := by simpa [numberOf?, hd] using h
    exact hpoint ▸ .of_single hd hmore hnull
  obtain ⟨b, cs, e, rfl, he⟩ := goesOnOctal_iff.1 hmore
  by_cases hthree : d ≤ 3
  case neg =>
    rw [if_neg fun hle => hthree (hfirst.1 hle), takeWhile_isOctal_cons he, List.take_zero,
      List.takeWhile_nil] at h ⊢
    have hpoint : d * 8 + e = point := by simpa [numberOf?, hd, he] using h
    exact hpoint ▸ .fourToSeven hd (Nat.lt_of_not_le hthree) he
  rw [if_pos (hfirst.2 hthree), takeWhile_isOctal_cons he] at h ⊢
  by_cases hlast : goesOnOctal cs
  case neg =>
    rw [takeWhile_isOctal_of_not hlast] at h ⊢
    have hpoint : d * 8 + e = point := by simpa [numberOf?, hd, he] using h
    exact hpoint ▸ .zeroToThree hd hthree he hlast
  obtain ⟨a, cs, f, rfl, hf⟩ := goesOnOctal_iff.1 hlast
  rw [takeWhile_isOctal_cons hf, List.take_zero, List.takeWhile_nil] at h ⊢
  have hpoint : d * 64 + e * 8 + f = point := by
    have hsum : (d * 8 + e) * 8 + f = point := by simpa [numberOf?, hd, he, hf] using h
    omega
  exact hpoint ▸ .three hd hthree he hf

/-- A legacy octal escape stands for a small code. -/
theorem LegacyOctal.lt (h : LegacyOctal cs point rest) : point < 0xD800 := by
  cases h with
  | zero => decide
  | nonZero hd => exact Nat.lt_trans (digitOf_lt hd) (by decide)
  | zeroToThree hd _ he | fourToSeven hd _ he =>
    have := digitOf_lt hd
    have := digitOf_lt he
    omega
  | three hd _ he hf =>
    have := digitOf_lt hd
    have := digitOf_lt he
    have := digitOf_lt hf
    omega

/-- What an escape without a letter is read as is a round. -/
theorem round_of_other
    (hc : c ∉ ['n', 'r', 't', 'b', 'f', 'v', 'x', 'u', '\r', '\n', '\u2028', '\u2029'])
    (h : escape quote (c :: cs) = some (value, taken)) :
    Round quote ('\\' :: c :: cs) value ((c :: cs).drop taken) := by
  rw [escape_other hc] at h
  split at h
  case isTrue hnull =>
    obtain ⟨rfl, hnext⟩ := hnull
    cases h
    exact .of_sequence (.null (by simpa using hnext)) (by decide)
  case isFalse hnull =>
    split at h
    case isFalse hdecimal =>
      cases h
      refine .of_char (.escape (.itself ?_))
      simp only [List.mem_cons, List.not_mem_nil, or_false, not_or] at hc
      simp [standsForItself, controls, hc, hdecimal]
    case isTrue hdecimal =>
      cases quote with
      | template => cases h
      | string =>
        dsimp only at h
        split at h
        case isFalse hoctal =>
          cases h
          exact .of_char (.escape (.nonOctal (isDecimal_and_not_isOctal.1 ⟨hdecimal, hoctal⟩)))
        case isTrue hoctal =>
          obtain ⟨n, hn, h⟩ := Option.map_eq_some_iff.1 h
          cases h
          have hlegacy := legacyOctal_of_octalDigits hoctal (by simpa using hnull) hn
          exact .of_sequence (.octal hlegacy) hlegacy.lt

/-- What an escape is read as is a round. -/
theorem round_of_escape (h : escape quote cs = some (value, taken)) :
    Round quote ('\\' :: cs) value (cs.drop taken) := by
  have hescape := h
  unfold escape at h
  split at h
  case h_1 => cases h
  case h_8 rest => exact round_of_hex h
  case h_9 rest =>
    obtain ⟨⟨c, more⟩, hunicode, h⟩ := Option.map_eq_some_iff.1 h
    cases h
    exact .of_unicode hunicode
  case h_10 =>
    cases h
    exact .continuation .carriageReturnLineFeed
  case h_11 rest hfeed =>
    cases h
    refine .continuation (.carriageReturn fun hhead => ?_)
    obtain ⟨tail, htail⟩ := List.head?_eq_some_iff.1 hhead
    exact hfeed tail htail
  case h_12 =>
    cases h
    exact .continuation .lineFeed
  case h_13 =>
    cases h
    exact .continuation .lineSeparator
  case h_14 =>
    cases h
    exact .continuation .paragraphSeparator
  case h_15 c rest _ _ _ _ _ _ _ _ _ _ _ _ _ =>
    exact round_of_other (by simp_all) hescape
  all_goals
    cases h
    exact .of_control (by decide)

/-- Where an escape is not read, it is malformed. -/
theorem malformed_of_escape (hfits : ∀ ds, cs = 'u' :: ds → Fits ds) (h : escape quote cs = none) :
    Malformed quote cs := by
  unfold escape at h
  split at h
  case h_1 => exact .lone
  case h_8 rest =>
    refine .hex ?_
    rintro a b rest n rfl hwrites
    have hpoint : hexPoint? [a, b] = some n := hexPoint?_eq_some_iff.2 ⟨nofun, by simp, hwrites⟩
    simp [hpoint] at h
  case h_9 rest =>
    refine .unicode ?_
    intro point after hpoint
    obtain ⟨taken, hunicode, -⟩ := hpoint.unicode?_eq (hfits _ rfl)
    rw [Option.map_eq_none_iff, unicodeChar?, hunicode] at h
    dsimp only [Option.bind_eq_bind, Option.bind_some] at h
    split at h
    · split at h <;> cases h
    · cases h
  case h_15 c rest _ _ _ _ _ _ _ _ _ _ _ _ _ =>
    split at h
    case isTrue => cases h
    case isFalse hnull =>
      split at h
      case isFalse => cases h
      case isTrue hdecimal =>
        cases quote with
        | template => exact .digit hdecimal (by simpa using hnull)
        | string =>
          dsimp only at h
          split at h
          case isFalse => cases h
          case isTrue =>
            have hdigits : ∀ d ∈ octalDigits (c :: rest), isOctal d :=
              List.all_eq_true.1 List.all_takeWhile
            obtain ⟨n, hwrites⟩ := exists_writes hdigits
            rw [numberOf?_eq_some_iff.2 hwrites] at h
            cases h
  all_goals cases h

/-! ## Texts -/

/-- The texts that are read in the usual way: what stands in braces is short enough, and no line
continuation stands between the halves of a surrogate pair. -/
structure Ordinary (quote : Quote) (raw : List Char) : Prop where
  braces : ∀ units cs, Reads quote raw units ('\\' :: 'u' :: cs) → Fits cs
  pairs : ∀ units cs ds rest last high low,
    Reads quote raw units ('\\' :: 'u' :: cs) → CodePoint cs high rest → IsHigh high →
    Reads quote rest [] ('\\' :: 'u' :: ds) → CodePoint ds low last → IsLow low →
    rest = '\\' :: 'u' :: ds

theorem Ordinary.of_reads (h : Ordinary quote cs) (hr : Reads quote cs units rest) :
    Ordinary quote rest where
  braces _ _ hcs := h.braces _ _ (hr.trans hcs)
  pairs _ _ _ _ _ _ _ hcs := h.pairs _ _ _ _ _ _ _ (hr.trans hcs)

theorem Round.reads (h : Round quote cs value rest) : ∃ units, Reads quote cs units rest := by
  cases h with
  | point h => exact ⟨_, .of_piece h⟩
  | half h => exact ⟨_, .of_piece (.escape (.unicode h))⟩
  | pair h _ h' => exact ⟨_, .next (.escape (.unicode h)) (.of_piece (.escape (.unicode h')))⟩
  | continuation h => exact ⟨_, .of_piece (.continuation h)⟩

theorem not_isLow_utf16Encode (h : low ∈ (utf16Encode c).head?) : ¬IsLow low := by
  obtain ⟨hbound, -, hlow⟩ := @toNat_not_surrogate c
  intro hunit
  exact hlow (eq_of_isLow_first hbound hunit h ▸ hunit)

theorem not_isLow_of_lt (h : low < 0xD800) : ¬IsLow low := by
  unfold IsLow
  omega

/-- The second half of a surrogate pair comes from a Unicode escape. -/
theorem Sequence.codePoint_of_isLow (h : Sequence quote cs units rest) (hhead : low ∈ units.head?)
    (hlow : IsLow low) : ∃ ds, cs = 'u' :: ds ∧ CodePoint ds low rest := by
  cases h with
  | control hc =>
    have hall : ∀ p ∈ controls, p.2 < 0xD800 := by decide
    cases hhead
    exact absurd hlow (not_isLow_of_lt (hall _ hc))
  | itself | nonOctal => exact absurd hlow (not_isLow_utf16Encode hhead)
  | null =>
    cases hhead
    exact absurd hlow (by decide)
  | octal h =>
    cases hhead
    exact absurd hlow (not_isLow_of_lt h.lt)
  | hex hwrites =>
    cases hhead
    have hlt : low < 16 ^ 2 := hwrites.lt
    exact absurd hlow (not_isLow_of_lt (Nat.lt_trans hlt (by decide)))
  | unicode hpoint =>
    obtain rfl := eq_of_isLow_first hpoint.le hlow hhead
    exact ⟨_, rfl, hpoint⟩

theorem Sequence.units_ne_nil (h : Sequence quote cs units rest) : units ≠ [] := by
  cases h with
  | itself | nonOctal | unicode => exact codeUnits_ne_nil
  | control | null | octal | hex => nofun

/-- The second half of a surrogate pair is read from the escape after line continuations. -/
theorem Reads.codePoint_of_isLow (h : Reads quote cs units rest) (hhead : low ∈ units.head?)
    (hlow : IsLow low) :
    ∃ ds last, Reads quote cs [] ('\\' :: 'u' :: ds) ∧ CodePoint ds low last := by
  induction h with
  | here => cases hhead
  | next hpiece _ ih =>
    cases hpiece with
    | plain =>
      rw [utf16Encode_eq, List.head?_append_of_ne_nil _ codeUnits_ne_nil] at hhead
      exact absurd hlow (not_isLow_utf16Encode hhead)
    | carriageReturn | carriageReturnLineFeed =>
      cases hhead
      exact absurd hlow (by decide)
    | escape hsequence =>
      rw [List.head?_append_of_ne_nil _ hsequence.units_ne_nil] at hhead
      obtain ⟨ds, rfl, hcode⟩ := hsequence.codePoint_of_isLow hhead hlow
      exact ⟨ds, _, .here, hcode⟩
    | continuation hline =>
      obtain ⟨ds, last, hreads, hcode⟩ := ih hhead
      exact ⟨ds, last, .next (.continuation hline) hreads, hcode⟩

/-- A text has the value of what a round reads and of what comes after it. -/
theorem Evaluates.of_round {v : Option (List Char)} (h : Round quote cs value rest)
    (ho : Ordinary quote cs) (hv : Evaluates quote rest v) :
    Evaluates quote cs (v.map (value ++ ·)) := by
  cases hv with
  | malformed hreads hbad =>
    obtain ⟨units, hround⟩ := h.reads
    exact .malformed (hround.trans hreads) hbad
  | @value us hreads =>
    rw [Option.map_some]
    cases h with
    | @point _ _ point hpiece hbound hhigh =>
      have hsplit := not_isHigh_last hhigh
      rw [← utf16Decode_codeUnits hbound, ← utf16Decode_append fun a ha _ _ hpair => hsplit a ha hpair.1]
      exact .value (.next hpiece hreads)
    | @half ds _ high hcode hhigh hhalf =>
      have hpiece : Piece quote ('\\' :: 'u' :: ds) [high] rest :=
        hcode.piece_of_lt (Nat.lt_trans hhigh.2 (by decide))
      -- If the other half came next, it would be the escape that follows, which a pair is read with.
      have halone : ∀ low ∈ us.head?, ¬IsLow low := by
        intro low hhead hlow
        obtain ⟨es, last, hgap, hcode'⟩ := hreads.codePoint_of_isLow hhead hlow
        obtain rfl := ho.pairs _ _ _ _ _ _ _ .here hcode hhigh hgap hcode' hlow
        have hfits := ho.braces _ _ (.of_piece hpiece)
        obtain ⟨taken, hunicode, -⟩ := hcode'.unicode?_eq hfits
        have hfound : 0xDC00 ≤ low ∧ low < 0xE000 := hlow
        rw [lowHalf?_cons, hunicode, Option.bind_some, if_pos hfound] at hhalf
        cases hhalf
      have hdecode : utf16Decode ([high] ++ us) = [replacement] ++ utf16Decode us := by
        rw [utf16Decode_append fun _ _ low hlow hpair => halone low hlow hpair.2, utf16Decode,
          charOf_surrogate hhigh]
      rw [← hdecode]
      exact .value (.next hpiece hreads)
    | @pair ds es _ high low hcode hhigh hcode' hlow =>
      have hpiece : Piece quote ('\\' :: 'u' :: ds) [high] ('\\' :: 'u' :: es) :=
        hcode.piece_of_lt (Nat.lt_trans hhigh.2 (by decide))
      have hpiece' : Piece quote ('\\' :: 'u' :: es) [low] rest :=
        hcode'.piece_of_lt (Nat.lt_trans hlow.2 (by decide))
      have hvalue := Evaluates.value (.next hpiece (.next hpiece' hreads))
      rwa [List.singleton_append, List.singleton_append, utf16Decode, if_pos ⟨hhigh, hlow⟩] at hvalue
    | continuation hline => exact .value (.next (.continuation hline) hreads)

/-- A text is read in rounds, up to its end or to an escape that is not read. -/
theorem cook_induction {P : List Char → Option (List Char) → Prop} (nil : P [] (some []))
    (round : ∀ {cs value rest v}, Round quote cs value rest → P rest v → P cs (v.map (value ++ ·)))
    (stuck : ∀ {cs}, escape quote cs = none → P ('\\' :: cs) none) (cs : List Char) :
    P cs (cook quote cs) := by
  fun_induction cook quote cs with
  | case1 => exact nil
  | case2 rest ih => exact round (.of_lineFeed .carriageReturnLineFeed) ih
  | case3 rest hfeed ih =>
    refine round (.of_lineFeed (.carriageReturn fun hhead => ?_)) ih
    obtain ⟨tail, htail⟩ := List.head?_eq_some_iff.1 hhead
    exact hfeed tail htail
  | case4 rest value taken hescape ih => exact round (round_of_escape hescape) ih
  | case5 rest hescape => exact stuck hescape
  | case6 c rest _ hreturn hbackslash ih => exact round (.of_char (.plain hbackslash hreturn)) ih

/-- The value that is read is that of the text. -/
theorem evaluates_cook (h : Ordinary quote cs) : Evaluates quote cs (cook quote cs) := by
  refine cook_induction (P := fun cs v => Ordinary quote cs → Evaluates quote cs v) ?nil ?round ?stuck
    cs h
  case nil => exact fun _ => .value .here
  case round =>
    intro cs value rest v hround ih ho
    obtain ⟨units, hreads⟩ := hround.reads
    exact .of_round hround ho (ih (ho.of_reads hreads))
  case stuck =>
    intro cs hescape ho
    refine .malformed .here (malformed_of_escape ?_ hescape)
    rintro ds rfl
    exact ho.braces _ _ .here

/-- What has a value is read to its end. -/
theorem reads_of_cook {v : List Char} (h : cook quote cs = some v) :
    ∃ units, Reads quote cs units [] := by
  refine cook_induction (P := fun cs v => ∀ u, v = some u → ∃ units, Reads quote cs units []) ?nil
    ?round ?stuck cs v h
  case nil => exact fun _ _ => ⟨_, .here⟩
  case round =>
    intro cs value rest v hround ih u hu
    obtain ⟨tail, rfl, -⟩ := Option.map_eq_some_iff.1 hu
    obtain ⟨_, hfirst⟩ := hround.reads
    obtain ⟨_, hlast⟩ := ih tail rfl
    exact ⟨_, hfirst.trans hlast⟩
  case stuck =>
    intro cs _ u hu
    cases hu

end Escape

open Escape

/-- **Escapes have the values that ECMAScript gives them**: the value that is read of an ordinary text
is the one it has, and none is read exactly if an escape of the text is malformed. -/
theorem cook_eq_iff {quote : Quote} {raw : List Char} (h : Ordinary quote raw) :
    (∀ v, cook quote raw = v ↔ Evaluates quote raw v) ∧
    (cook quote raw = none ↔
      ∃ units cs, Reads quote raw units ('\\' :: cs) ∧ Malformed quote cs) := by
  have hvalue := evaluates_cook h
  have hiff (v : Option (List Char)) : cook quote raw = v ↔ Evaluates quote raw v := by
    constructor
    · rintro rfl
      exact hvalue
    · exact hvalue.unique
  refine ⟨hiff, (hiff none).trans ⟨?_, ?_⟩⟩
  · intro hnone
    cases hnone with
    | malformed hreads hbad => exact ⟨_, _, hreads, hbad⟩
  · rintro ⟨units, cs, hreads, hbad⟩
    exact .malformed hreads hbad

/-- Two escapes that are the halves of a surrogate pair. -/
def pairEscapes : List Char := ['\\', 'u', 'D', '8', '3', 'D', '\\', 'u', 'D', 'E', '0', '0']

theorem ordinary_pairEscapes : Ordinary .string pairEscapes := by
  have hhigh : CodePoint (pairEscapes.drop 2) 0xD83D (pairEscapes.drop 6) :=
    codePoint_of_unicode? (by decide : unicode? (pairEscapes.drop 2) = some (0xD83D, 4))
  have hlow : CodePoint (pairEscapes.drop 8) 0xDE00 [] :=
    codePoint_of_unicode? (by decide : unicode? (pairEscapes.drop 8) = some (0xDE00, 4))
  have hfirst : Piece .string pairEscapes [0xD83D] (pairEscapes.drop 6) :=
    hhigh.piece_of_lt (by decide)
  have hsecond : Piece .string (pairEscapes.drop 6) [0xDE00] [] := hlow.piece_of_lt (by decide)
  have reached (units : List Nat) (cs : List Char)
      (h : Reads .string pairEscapes units ('\\' :: 'u' :: cs)) :
      cs = pairEscapes.drop 2 ∨ cs = pairEscapes.drop 8 := by
    generalize hlast : '\\' :: 'u' :: cs = last at h
    cases h with
    | here => exact .inl (List.cons.inj (List.cons.inj hlast).2).2
    | next hpiece h =>
      obtain ⟨-, rfl⟩ := hpiece.unique hfirst
      cases h with
      | here => exact .inr (List.cons.inj (List.cons.inj hlast).2).2
      | next hpiece h =>
        obtain ⟨-, rfl⟩ := hpiece.unique hsecond
        cases h with
        | here => cases hlast
        | next hpiece => exact absurd hpiece not_piece_nil
  constructor
  case braces =>
    intro units cs h digits rest hcs
    rcases reached units cs h with rfl | rfl <;> cases hcs
  case pairs =>
    intro units cs ds rest last high low h hcode hunit hgap _ _
    rcases reached units cs h with rfl | rfl
    · obtain ⟨-, rfl⟩ := hcode.unique hhigh
      generalize hnil : ([] : List Nat) = units' at hgap
      cases hgap with
      | here => rfl
      | next hpiece =>
        obtain ⟨rfl, -⟩ := hpiece.unique hsecond
        cases hnil
    · obtain ⟨rfl, -⟩ := hcode.unique hlow
      exact absurd hunit (by decide)

theorem pairEscapes_evaluates :
    Ordinary .string pairEscapes ∧ Evaluates .string pairEscapes (some ['😀']) :=
  ⟨ordinary_pairEscapes,
    ((cook_eq_iff ordinary_pairEscapes).1 (some ['😀'])).1 (by decide +kernel)⟩

end Estree
