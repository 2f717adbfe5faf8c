import Estree.Proofs.Checked.Basic
import Estree.Proofs.Escape.Basic

/-!
# The steps of reading escapes

The value of the text of a string or a template is read with an index into its characters, and
escapes are computed in words of 32 bits. No step of this fails, and the value is that of `cook`
(`Checked.cook_eq`): slices begin no later than the text ends, because tests before them have seen the
characters in front; at most eight hexadecimal digits, or three octal ones, fit a word; and halves of
a surrogate pair are subtracted from after they have been compared.
-/

namespace Estree.Checked

/-- The character of a code point, if it is one. -/
def charOf? (point : Nat) : Option Char := if point.isValidChar then some (Char.ofNat point) else none

/-! ## Numbers -/

/-- The number that hexadecimal digits go on with. -/
def hexFrom : List Char → (acc : Nat) → Checked (Option Nat)
  | [], acc => return some acc
  | c :: cs, acc => do
    let product ← mul maxU32 acc 16
    match digitOf 16 c with
    | none => return none
    | some digit => hexFrom cs (← add maxU32 product digit)

/-- The number that at most eight hexadecimal digits write. -/
def hexValue (digits : List Char) : Checked (Option Nat) :=
  if digits.isEmpty || 8 < digits.length then return none else hexFrom digits 0

/-- Reads at most the given number of further octal digits. -/
def octalLoop (chars : List Char) : (more value i : Nat) → Checked (Nat × Nat)
  | 0, value, i => return (value, i)
  | more + 1, value, i =>
    match (chars[i]?).bind (digitOf 8) with
    | none => return (value, i)
    | some digit => do
      octalLoop chars more (← add maxU32 (← mul maxU32 value 8) digit) (← advance chars i 1)

/-! ## Escapes -/

/-- The code point written after `\u`, and how many characters it takes. -/
def unicodeEscape (chars : List Char) : Checked (Option (Nat × Nat)) := do
  if chars.head? = some '{' then
    match chars.idxOf? '}' with
    | none => return none
    | some close =>
      match ← hexValue (← slice chars 1 close) with
      | none => return none
      | some value =>
        if 0x10FFFF < value then return none else return some (value, ← advance chars close 1)
  else if 4 ≤ chars.length then
    match ← hexValue (chars.take 4) with
    | none => return none
    | some value => return some (value, 4)
  else return none

/-- The second half of a surrogate pair that is written after the first. -/
def lowHalf (chars : List Char) (unit i : Nat) : Checked (Option (Nat × Nat)) := do
  if 0xD800 ≤ unit ∧ unit < 0xDC00 ∧ chars[i]? = some '\\' then
    if chars[← advance chars i 1]? = some 'u' then
      match ← unicodeEscape (← sliceFrom chars (← advance chars i 2)) with
      | none => return none
      | some (low, taken) =>
        if 0xDC00 ≤ low ∧ low < 0xE000 then return some (low, taken) else return none
    else return none
  else return none

/-- The character of the two halves of a surrogate pair. -/
def combine (unit low : Nat) : Checked Nat := do
  let high := shiftLeft (← sub unit 0xD800) 10
  add maxU32 (← add maxU32 0x10000 high) (← sub low 0xDC00)

/-- What a step yields: some characters and the index after them, or that the text has no value. -/
abbrev Step := Checked (Option (List Char × Nat))

/-- The character of a `\u` escape, from the index after the `u`. -/
def unicodeStep (chars : List Char) (i : Nat) : Step := do
  match ← unicodeEscape (← sliceFrom chars i) with
  | none => return none
  | some (unit, taken) =>
    let i ← advance chars i taken
    match ← lowHalf chars unit i with
    | none => return some ([(charOf? unit).getD Escape.replacement], i)
    | some (low, taken) =>
      let i ← advance chars i (← advance chars 2 taken)
      return (charOf? (← combine unit low)).map fun c => ([c], i)

/-- The character of an octal escape, from the index after its first digit. -/
def octalStep (chars : List Char) (first : Char) (i : Nat) : Step :=
  match digitOf 8 first with
  | none => return none
  | some digit => do
    let (value, i) ← octalLoop chars (if first ≤ '3' then 2 else 1) digit i
    return (charOf? value).map fun c => ([c], i)

/-- The character of a `\x` escape, from the index after the `x`. -/
def hexStep (chars : List Char) (i : Nat) : Step := do
  let stop ← advance chars i 2
  if stop ≤ chars.length then
    match ← hexValue ((chars.take stop).drop i) with
    | none => return none
    | some value => return (charOf? value).map fun c => ([c], stop)
  else return none

/-- What an escape stands for, from its first character after the backslash and the index after
that. -/
def escapeStep (quote : Quote) (chars : List Char) (first : Char) (i : Nat) : Step :=
  match first with
  | 'n' => return some (['\n'], i)
  | 'r' => return some (['\r'], i)
  | 't' => return some (['\t'], i)
  | 'b' => return some (['\x08'], i)
  | 'f' => return some (['\x0c'], i)
  | 'v' => return some (['\x0b'], i)
  | 'x' => hexStep chars i
  | 'u' => unicodeStep chars i
  | '\r' =>
    if chars[i]? = some '\n' then do return some ([], ← advance chars i 1) else return some ([], i)
  | '\n' | '\u2028' | '\u2029' => return some ([], i)
  | _ =>
    if first = '0' ∧ !(chars[i]?).any isDecimal then return some (['\x00'], i)
    else if '0' ≤ first ∧ first ≤ '7' ∧ quote = .string then octalStep chars first i
    else if (first = '8' ∨ first = '9') ∧ quote = .string then return some ([first], i)
    else if '0' ≤ first ∧ first ≤ '9' then return none
    else return some ([first], i)

/-! ## Texts -/

/-- One round of reading a text, from an index in it. -/
def cookStep (quote : Quote) (chars : List Char) (i : Nat) : Step := do
  let c ← index chars i
  let i ← advance chars i 1
  if c = '\r' then
    if chars[i]? = some '\n' then return some (['\n'], ← advance chars i 1)
    else return some (['\n'], i)
  else if c = '\\' then
    match chars[i]? with
    | none => return none
    | some first => escapeStep quote chars first (← advance chars i 1)
  else return some ([c], i)

/-- Reads a text from an index on, after what has been read before. -/
def cookLoop (quote : Quote) (chars : List Char) :
    (rounds i : Nat) → List Char → Checked (Option (List Char))
  | 0, _, _ => .error .endless
  | rounds + 1, i, out =>
    if i < chars.length then do
      match ← cookStep quote chars i with
      | none => return none
      | some (cs, i) => cookLoop quote chars rounds i (out ++ cs)
    else return some out

/-- The value of the text of a string or a template. -/
def cook (quote : Quote) (chars : List Char) : Checked (Option (List Char)) :=
  cookLoop quote chars (chars.length + 1) 0 []

/-! ## No step fails -/

theorem maxU32_eq : maxU32 = 4294967295 := rfl

/-- What is still to be read of a number leaves room for one more digit. -/
theorem room_next {radix acc digit more : Nat} (hroom : (acc + 1) * radix ^ (more + 1) ≤ 2 ^ 32)
    (hradix : 0 < radix) (hdigit : digit < radix) :
    acc * radix + digit ≤ maxU32 ∧ (acc * radix + digit + 1) * radix ^ more ≤ 2 ^ 32 := by
  have hdigits : acc * radix + digit + 1 ≤ (acc + 1) * radix := by
    rw [Nat.add_mul, Nat.one_mul]
    omega
  have hnext : (acc * radix + digit + 1) * radix ^ more ≤ 2 ^ 32 := by
    refine Nat.le_trans (Nat.mul_le_mul_right _ hdigits) ?_
    rwa [Nat.mul_assoc, ← Nat.pow_succ']
  have hpos : 0 < radix ^ more := Nat.pow_pos hradix
  have hone := Nat.le_mul_of_pos_right (acc * radix + digit + 1) hpos
  refine ⟨?_, hnext⟩
  rw [maxU32_eq]
  omega

theorem hexFrom_eq {digits : List Char} {acc : Nat}
    (hroom : (acc + 1) * 16 ^ digits.length ≤ 2 ^ 32) :
    hexFrom digits acc = .ok (numberFrom? 16 acc digits) := by
  induction digits generalizing acc with
  | nil => rfl
  | cons c cs ih =>
    have hproduct : acc * 16 ≤ maxU32 := (room_next hroom (by omega) (by omega : 0 < 16)).1
    rw [hexFrom, mul_eq hproduct, ok_bind, numberFrom?_cons]
    cases hc : digitOf 16 c with
    | none => rfl
    | some digit =>
      obtain ⟨hsum, hnext⟩ := room_next hroom (by omega) (digitOf_lt hc)
      simp only [add_eq hsum, ok_bind, ih hnext, Option.bind_some]

theorem hexValue_eq {digits : List Char} : hexValue digits = .ok (Escape.hexPoint? digits) := by
  unfold hexValue Escape.hexPoint?
  split
  case isTrue => rfl
  case isFalse h =>
    have hlength : digits.length ≤ 8 := by
      simp only [Bool.or_eq_true, decide_eq_true_eq, not_or, Nat.not_lt] at h
      exact h.2
    refine hexFrom_eq ?_
    rw [Nat.zero_add, Nat.one_mul]
    exact Nat.pow_le_pow_right (by omega) hlength

theorem octalLoop_eq {chars : List Char} {more value i : Nat} (hi : i ≤ chars.length)
    (hroom : (value + 1) * 8 ^ more ≤ 2 ^ 32) :
    let digits := ((chars.drop i).take more).takeWhile isOctal
    ∃ number, octalLoop chars more value i = .ok (number, i + digits.length) ∧
      numberFrom? 8 value digits = some number := by
  induction more generalizing value i with
  | zero => exact ⟨value, rfl, rfl⟩
  | succ more ih =>
    rw [octalLoop]
    cases hc : (chars[i]?).bind (digitOf 8) with
    | none =>
      have hstop : ((chars.drop i).take (more + 1)).takeWhile isOctal = [] := by
        rw [← Nat.add_zero i, ← List.getElem?_drop] at hc
        cases hdrop : chars.drop i with
        | nil => rfl
        | cons c cs =>
          rw [hdrop, List.getElem?_cons_zero, Option.bind_some] at hc
          rw [List.take_succ_cons, List.takeWhile_cons, isOctal, hc]
          rfl
      rw [hstop]
      exact ⟨value, rfl, rfl⟩
    | some digit =>
      obtain ⟨c, hget, hdigit⟩ := Option.bind_eq_some_iff.1 hc
      obtain ⟨hlt, hget⟩ := List.getElem?_eq_some_iff.1 hget
      obtain ⟨hsum, hnext⟩ := room_next hroom (by omega) (digitOf_lt hdigit)
      obtain ⟨number, hloop, hnumber⟩ := ih (i := i + 1) hlt hnext
      have hgo : ((chars.drop i).take (more + 1)).takeWhile isOctal
          = c :: ((chars.drop (i + 1)).take more).takeWhile isOctal := by
        rw [List.drop_eq_getElem_cons hlt, hget, List.take_succ_cons, List.takeWhile_cons,
          if_pos (by rw [isOctal, hdigit]; rfl)]
      refine ⟨number, ?_, ?_⟩
      · simp only [mul_eq (Nat.le_trans (Nat.le_add_right ..) hsum), add_eq hsum,
          advance_eq (show i + 1 ≤ chars.length + 2 by omega), ok_bind, hloop, hgo,
          List.length_cons]
        rw [Nat.add_assoc, Nat.add_comm 1]
      · rw [hgo, numberFrom?_cons, hdigit, Option.bind_some, hnumber]

theorem unicodeEscape_eq {chars : List Char} :
    unicodeEscape chars = .ok (Escape.unicode? chars) := by
  unfold unicodeEscape Escape.unicode?
  split
  case isTrue hopen =>
    cases hclose : chars.idxOf? '}' with
    | none => rfl
    | some close =>
      obtain ⟨hpos, hlt⟩ := Escape.close_bounds hopen hclose
      have hnext : advance chars close 1 = .ok (close + 1) := advance_eq (by omega)
      simp only [slice_eq hpos (Nat.le_of_lt hlt), hexValue_eq, ok_bind, hnext,
        Option.bind_eq_bind, Option.bind_some]
      cases Escape.hexPoint? ((chars.take close).drop 1) with
      | none => rfl
      | some point =>
        change (if 0x10FFFF < point then pure none else pure (some (point, close + 1)))
          = Except.ok (if point ≤ 0x10FFFF then some (point, close + 1) else none)
        by_cases hbound : point ≤ 0x10FFFF
        · rw [if_pos hbound, if_neg (Nat.not_lt.2 hbound)]
          rfl
        · rw [if_neg hbound, if_pos (Nat.lt_of_not_le hbound)]
          rfl
  case isFalse =>
    have hlength : 4 ≤ chars.length ↔ (chars.take 4).length = 4 := by
      rw [List.length_take]
      omega
    simp only [hlength, hexValue_eq, ok_bind]
    split
    · cases Escape.hexPoint? (chars.take 4) <;> rfl
    · rfl

/-- The second half of a surrogate pair is looked for behind characters that have been seen. -/
theorem lowHalf_eq {chars : List Char} {unit i : Nat} (hunit : 0xD800 ≤ unit ∧ unit < 0xDC00) :
    lowHalf chars unit i
      = .ok ((Escape.lowHalf? (chars.drop i)).map fun p => (p.1, p.2 - 2)) := by
  have hzero : (chars.drop i)[0]? = chars[i]? := List.getElem?_drop
  have hone : (chars.drop i)[1]? = chars[i + 1]? := List.getElem?_drop
  unfold lowHalf
  split
  case isFalse h =>
    rw [Escape.lowHalf?_eq_none fun hbackslash => absurd ⟨hunit.1, hunit.2, hzero ▸ hbackslash⟩ h]
    rfl
  case isTrue h =>
    obtain ⟨hlt, hbackslash⟩ := List.getElem?_eq_some_iff.1 h.2.2
    have hnext : advance chars i 1 = .ok (i + 1) := advance_eq (by omega)
    rw [hnext, ok_bind]
    split
    case isFalse hu =>
      rw [Escape.lowHalf?_eq_none fun _ => hone ▸ hu]
      rfl
    case isTrue hu =>
      obtain ⟨hlt', hu⟩ := List.getElem?_eq_some_iff.1 hu
      have hnext' : advance chars i 2 = .ok (i + 2) := advance_eq (by omega)
      have hdrop : chars.drop i = '\\' :: 'u' :: chars.drop (i + 2) := by
        rw [List.drop_eq_getElem_cons hlt, hbackslash, List.drop_eq_getElem_cons hlt', hu]
      rw [hnext', ok_bind, sliceFrom_eq (by omega), ok_bind, unicodeEscape_eq, ok_bind, hdrop,
        Escape.lowHalf?_cons]
      cases Escape.unicode? (chars.drop (i + 2)) with
      | none => rfl
      | some p =>
        change (if 0xDC00 ≤ p.1 ∧ p.1 < 0xE000 then pure (some (p.1, p.2)) else pure none)
          = Except.ok ((if 0xDC00 ≤ p.1 ∧ p.1 < 0xE000 then some (p.1, p.2 + 2) else none).map
              fun p => (p.1, p.2 - 2))
        split <;> rfl

/-! ## The characters of escapes -/

theorem charOf?_eq {point : Nat} (h : point.isValidChar) : charOf? point = some (Char.ofNat point) :=
  if_pos h

theorem charOf?_getD (point : Nat) :
    (charOf? point).getD Escape.replacement = Escape.charOf point := by
  unfold charOf? Escape.charOf
  split <;> rfl

theorem combine_eq {unit low : Nat} (hunit : 0xD800 ≤ unit ∧ unit < 0xDC00)
    (hlow : 0xDC00 ≤ low ∧ low < 0xE000) :
    combine unit low = .ok (0x10000 + (unit - 0xD800) * 0x400 + (low - 0xDC00)) := by
  obtain ⟨h, rfl⟩ := Nat.exists_eq_add_of_le hunit.1
  obtain ⟨l, rfl⟩ := Nat.exists_eq_add_of_le hlow.1
  have hh : 0xD800 + h - 0xD800 = h := Nat.add_sub_cancel_left ..
  have hl : 0xDC00 + l - 0xDC00 = l := Nat.add_sub_cancel_left ..
  have hhigh : shiftLeft h 10 = h * 0x400 := by
    have hpow : 2 ^ 10 = 0x400 := rfl
    rw [shiftLeft, hpow, Nat.mod_eq_of_lt (by omega)]
  have hfirst : add maxU32 0x10000 (h * 0x400) = .ok (0x10000 + h * 0x400) := by
    refine add_eq ?_
    rw [maxU32_eq]
    omega
  have hsum : add maxU32 (0x10000 + h * 0x400) l = .ok (0x10000 + h * 0x400 + l) := by
    refine add_eq ?_
    rw [maxU32_eq]
    omega
  rw [combine, sub_eq hunit.1, sub_eq hlow.1, hh, hl, ok_bind, hhigh]
  simp only [hfirst, ok_bind, hsum]

theorem lowHalf_eq_none {chars : List Char} {unit i : Nat}
    (hunit : ¬(0xD800 ≤ unit ∧ unit < 0xDC00)) : lowHalf chars unit i = .ok none :=
  if_neg fun h => hunit ⟨h.1, h.2.1⟩

theorem unicodeStep_eq {chars : List Char} {i : Nat} (hi : i ≤ chars.length) :
    unicodeStep chars i
      = .ok ((Escape.unicodeChar? (chars.drop i)).map fun p => ([p.1], i + p.2)) := by
  unfold unicodeStep Escape.unicodeChar?
  rw [sliceFrom_eq hi, ok_bind, unicodeEscape_eq, ok_bind]
  cases hunicode : Escape.unicode? (chars.drop i) with
  | none => rfl
  | some p =>
    obtain ⟨unit, taken⟩ := p
    obtain ⟨-, htaken⟩ := Escape.unicode?_taken hunicode
    rw [List.length_drop] at htaken
    have hnext : advance chars i taken = .ok (i + taken) := advance_eq (by omega)
    simp only [hnext, ok_bind, Option.bind_eq_bind, Option.bind_some, List.drop_drop]
    by_cases hunit : 0xD800 ≤ unit ∧ unit < 0xDC00
    · rw [if_pos hunit, lowHalf_eq hunit, ok_bind]
      cases hhalf : Escape.lowHalf? (chars.drop (i + taken)) with
      | none =>
        simp only [Option.map_none, charOf?_getD, Escape.charOf_surrogate hunit]
        rfl
      | some q =>
        obtain ⟨low, more⟩ := q
        obtain ⟨hlow, hlow', htwo, hmore⟩ := Escape.lowHalf?_bounds hhalf
        rw [List.length_drop] at hmore
        have hskip : advance chars 2 (more - 2) = .ok more := by
          rw [advance_eq (by omega), Nat.add_sub_cancel' (Nat.le_of_lt htwo)]
        have hend : advance chars (i + taken) more = .ok (i + taken + more) :=
          advance_eq (by omega)
        have hcombined := combine_eq hunit ⟨hlow, hlow'⟩
        have hvalid := Escape.isValidChar_combined hunit ⟨hlow, hlow'⟩
        simp only [Option.map_some, hskip, hend, hcombined, charOf?_eq hvalid, ok_bind]
        rw [Nat.add_assoc i]
        rfl
    · rw [if_neg hunit, lowHalf_eq_none hunit, ok_bind, charOf?_getD]
      rfl

/-- Numbers that digits below a power of two write are characters if they are small. -/
theorem charOf?_small {point : Nat} (h : point < 0xD800) :
    charOf? point = some (Escape.charOf point) := by
  have hvalid : point.isValidChar := .inl h
  rw [charOf?_eq hvalid, Escape.charOf, if_pos hvalid]

theorem hexStep_eq {quote : Quote} {chars : List Char} {i : Nat} (hi : i ≤ chars.length) :
    hexStep chars i = .ok ((Escape.escape quote ('x' :: chars.drop i)).map
      fun p => (p.1, i + p.2 - 1)) := by
  unfold hexStep Escape.escape
  have hnext : advance chars i 2 = .ok (i + 2) := advance_eq (by omega)
  have htwo : (chars.take (i + 2)).drop i = (chars.drop i).take 2 := by
    rw [List.take_drop, Nat.add_comm i]
  have hlength : i + 2 ≤ chars.length ↔ ((chars.drop i).take 2).length = 2 := by
    rw [List.length_take, List.length_drop]
    omega
  rw [hnext, ok_bind, htwo]
  simp only [hlength]
  split
  case isFalse => rfl
  case isTrue hdigits =>
    rw [hexValue_eq, ok_bind]
    cases hpoint : Escape.hexPoint? ((chars.drop i).take 2) with
    | none => rfl
    | some point =>
      have hsmall : point < 0xD800 := by
        unfold Escape.hexPoint? at hpoint
        split at hpoint
        · cases hpoint
        · have hlt := numberFrom?_lt hpoint
          rw [hdigits] at hlt
          omega
      simp only [charOf?_small hsmall]
      rfl

/-- An octal escape has three digits at most, which write a small number. -/
theorem octalStep_eq {chars : List Char} {first : Char} {i : Nat} (hi : i ≤ chars.length)
    (hfirst : isOctal first) :
    let digits := Escape.octalDigits (first :: chars.drop i)
    octalStep chars first i
      = .ok ((numberOf? 8 digits).map fun point =>
          ([Escape.charOf point], i + digits.length - 1)) := by
  intro digits
  obtain ⟨digit, hdigit⟩ := Option.isSome_iff_exists.1 hfirst
  have hlt := digitOf_lt hdigit
  let more := if first ≤ '3' then 2 else 1
  have hmore : more ≤ 2 := by
    unfold more
    split <;> omega
  have hpow : 8 ^ more ≤ 8 ^ 2 := Nat.pow_le_pow_right (by omega) hmore
  have hroom : (digit + 1) * 8 ^ more ≤ 8 * 8 ^ 2 := Nat.mul_le_mul hlt hpow
  obtain ⟨number, hloop, hnumber⟩ := octalLoop_eq hi (Nat.le_trans hroom (by omega))
  have hdigits : digits = first :: ((chars.drop i).take more).takeWhile isOctal :=
    Escape.octalDigits_cons hfirst
  have hvalue : numberOf? 8 digits = some number := by
    have hwhole : numberOf? 8 digits = numberFrom? 8 0 digits := rfl
    rw [hwhole, hdigits, numberFrom?_cons, hdigit, Option.bind_some, Nat.zero_mul, Nat.zero_add,
      hnumber]
  have hsmall : number < 0xD800 := by
    have hlength : (((chars.drop i).take more).takeWhile isOctal).length ≤ more :=
      Nat.le_trans (List.takeWhile_sublist _).length_le (List.length_take_le ..)
    have hbound := Nat.mul_le_mul_left (digit + 1) (Nat.pow_le_pow_right (by omega : 0 < 8) hlength)
    have := numberFrom?_lt hnumber
    omega
  have hend : i + digits.length - 1 = i + (((chars.drop i).take more).takeWhile isOctal).length := by
    rw [hdigits, List.length_cons]
    omega
  rw [octalStep, hdigit, hvalue, hend]
  simp only [more] at hloop
  simp only [hloop, ok_bind, charOf?_small hsmall]
  rfl

/-- Reading an escape takes no step that fails. -/
theorem escapeStep_eq {quote : Quote} {chars : List Char} {first : Char} {i : Nat}
    (hi : i ≤ chars.length) :
    escapeStep quote chars first i = .ok ((Escape.escape quote (first :: chars.drop i)).map
      fun p => (p.1, i + p.2 - 1)) := by
  have hhead : (chars.drop i).head? = chars[i]? := List.head?_drop
  unfold escapeStep
  split
  case h_7 => exact hexStep_eq hi
  case h_8 =>
    rw [unicodeStep_eq hi]
    have hescape : Escape.escape quote ('u' :: chars.drop i)
        = (Escape.unicodeChar? (chars.drop i)).map fun p => ([p.1], p.2 + 1) := rfl
    rw [hescape, Option.map_map]
    rfl
  case h_9 =>
    rw [Escape.escape_return, hhead]
    split
    case isTrue h =>
      have hnext : advance chars i 1 = .ok (i + 1) := by
        obtain ⟨hlt, -⟩ := List.getElem?_eq_some_iff.1 h
        exact advance_eq (by omega)
      rw [hnext]
      rfl
    case isFalse => rfl
  case h_13 =>
    rw [Escape.escape_other (by simp_all), hhead]
    by_cases hzero : first = '0' ∧ !(chars[i]?).any isDecimal
    · rw [if_pos hzero, if_pos hzero]
      rfl
    have hrange : ('0' ≤ first ∧ first ≤ '7' ∧ quote = .string) ↔ isOctal first ∧ quote = .string := by
      rw [isOctal_iff, and_assoc]
    rw [if_neg hzero, if_neg hzero]
    simp only [hrange, ← isDecimal_and_not_isOctal, ← isDecimal_iff]
    by_cases hdecimal : isDecimal first
    case neg =>
      have hoctal : ¬isOctal first := fun h => hdecimal (isDecimal_of_isOctal h)
      rw [if_neg fun h => hoctal h.1, if_neg fun h => hdecimal h.1.1, if_neg hdecimal,
        if_neg hdecimal]
      rfl
    case pos =>
      rw [if_pos hdecimal, if_pos hdecimal]
      cases quote with
      | template =>
        rw [if_neg nofun, if_neg nofun]
        rfl
      | string =>
        by_cases hoctal : isOctal first
        · rw [if_pos ⟨hoctal, rfl⟩, octalStep_eq hi hoctal]
          dsimp only
          rw [if_pos hoctal, Option.map_map]
          rfl
        · rw [if_neg fun h => hoctal h.1, if_pos ⟨⟨hdecimal, hoctal⟩, rfl⟩]
          dsimp only
          rw [if_neg hoctal]
          rfl
  all_goals rfl

/-! ## Texts -/

/-- A round reads what the text begins with, and goes on behind it. -/
theorem cookStep_eq {quote : Quote} {chars rest : List Char} {c : Char} {i : Nat}
    (h : chars.drop i = c :: rest) :
    ∃ s, cookStep quote chars i = .ok s ∧
      Estree.cook quote (c :: rest)
        = s.bind (fun p => (Estree.cook quote (chars.drop p.2)).map (p.1 ++ ·)) ∧
      ∀ p, s = some p → i < p.2 ∧ p.2 ≤ chars.length := by
  have hlength : chars.length = i + (rest.length + 1) := by
    have := congrArg List.length h
    rw [List.length_drop, List.length_cons] at this
    omega
  have hdrop (k : Nat) : chars.drop (i + (k + 1)) = rest.drop k := by
    rw [← List.drop_drop, h, List.drop_succ_cons]
  have hindex : index chars i = .ok c := by
    apply index_eq
    rw [← Nat.add_zero i, ← List.getElem?_drop, h, List.getElem?_cons_zero]
  have hnext : advance chars i 1 = .ok (i + 1) := advance_eq (by omega)
  have hget : chars[i + 1]? = rest[0]? := by
    rw [← List.getElem?_drop, h, List.getElem?_cons_succ]
  unfold cookStep
  rw [hindex, ok_bind, hnext, ok_bind, hget]
  have hlt : i < i + 1 ∧ i + 1 ≤ chars.length := by omega
  by_cases hreturn : c = '\r'
  · subst hreturn
    rw [if_pos rfl]
    by_cases hfeed : rest[0]? = some '\n'
    · obtain ⟨rest', rfl⟩ : ∃ rest', rest = '\n' :: rest' := by
        cases rest with
        | nil => cases hfeed
        | cons d rest' => exact ⟨rest', by rw [Option.some.inj hfeed]⟩
      rw [List.length_cons] at hlength
      have hnext' : advance chars (i + 1) 1 = .ok (i + 2) := advance_eq (by omega)
      rw [if_pos hfeed, hnext']
      refine ⟨some (['\n'], i + 2), rfl, ?_, ?_⟩
      · rw [Estree.cook, Option.bind_some, hdrop 1]
        rfl
      · rintro _ ⟨⟩
        omega
    · rw [if_neg hfeed]
      refine ⟨some (['\n'], i + 1), rfl, ?_, ?_⟩
      · rw [Estree.cook, Option.bind_some, hdrop 0]
        · rfl
        · rintro rest' rfl
          exact hfeed rfl
      · rintro _ ⟨⟩
        exact hlt
  rw [if_neg hreturn]
  by_cases hbackslash : c = '\\'
  · subst hbackslash
    rw [if_pos rfl, Estree.cook]
    cases rest with
    | nil => exact ⟨none, rfl, rfl, by simp⟩
    | cons first rest =>
      rw [List.length_cons] at hlength
      have hnext' : advance chars (i + 1) 1 = .ok (i + 2) := advance_eq (by omega)
      have hescape : escapeStep quote chars first (i + 2)
          = .ok ((Escape.escape quote (first :: chars.drop (i + 2))).map
            fun p => (p.1, i + 2 + p.2 - 1)) := escapeStep_eq (by omega)
      have hrest : chars.drop (i + 2) = rest := hdrop 1
      rw [hrest] at hescape
      refine ⟨(Escape.escape quote (first :: rest)).map fun p => (p.1, i + 2 + p.2 - 1), ?_, ?_, ?_⟩
      · change (advance chars (i + 1) 1 >>= escapeStep quote chars first) = _
        rw [hnext', ok_bind, hescape]
      · cases hvalue : Escape.escape quote (first :: rest) with
        | none => rfl
        | some p =>
          have hend : i + 2 + p.2 - 1 = i + (p.2 + 1) := by omega
          rw [Option.map_some, Option.bind_some]
          dsimp only
          rw [hend, hdrop]
      · intro p hp
        obtain ⟨q, hq, rfl⟩ := Option.map_eq_some_iff.1 hp
        have htaken := Escape.escape_taken hq
        rw [List.length_cons] at htaken
        dsimp only
        omega
  · rw [if_neg hbackslash]
    refine ⟨some ([c], i + 1), rfl, ?_, ?_⟩
    · rw [Estree.cook, Option.bind_some, hdrop 0]
      · rfl
      all_goals simp_all
    · rintro _ ⟨⟩
      exact hlt

theorem cookLoop_eq {quote : Quote} {chars out : List Char} {rounds i : Nat}
    (hi : i ≤ chars.length) (hr : chars.length - i < rounds) :
    cookLoop quote chars rounds i out
      = .ok ((Estree.cook quote (chars.drop i)).map (out ++ ·)) := by
  induction rounds generalizing i out with
  | zero => omega
  | succ rounds ih =>
    rw [cookLoop]
    cases h : chars.drop i with
    | nil =>
      have hlength := List.drop_eq_nil_iff.1 h
      rw [if_neg (by omega), Estree.cook, Option.map_some, List.append_nil]
      rfl
    | cons c rest =>
      have hlt : i < chars.length := by
        have := congrArg List.length h
        rw [List.length_drop, List.length_cons] at this
        omega
      obtain ⟨s, hstep, hcook, hbounds⟩ := @cookStep_eq quote _ _ _ _ h
      rw [if_pos hlt, hstep, ok_bind, hcook]
      cases s with
      | none => rfl
      | some p =>
        obtain ⟨cs, j⟩ := p
        obtain ⟨hij, hj⟩ := hbounds _ rfl
        dsimp only at hij hj ⊢
        rw [ih hj (by omega), Option.bind_some, Option.map_map]
        congr 2
        funext rest
        exact List.append_assoc ..

/-- Reading a text takes no step that fails, and yields its value. -/
theorem cook_eq (quote : Quote) (chars : List Char) :
    cook quote chars = .ok (Estree.cook quote chars) := by
  rw [cook, cookLoop_eq (Nat.zero_le _) (by omega), List.drop_zero]
  cases Estree.cook quote chars <;> rfl

end Estree.Checked
