import Estree.Proofs.Digit
import Estree.Proofs.Source
import Estree.Text.Escape

/-!
# The values of texts with escapes

ECMAScript gives the text of a string or a template a value in UTF-16 units, piece by piece: a piece is
a character, a line terminator, a line continuation or an escape (`Escape.Piece`), and a text is read
as one piece after the other (`Escape.Reads`). The units are then taken for characters, where half of a
surrogate pair that stands alone gives U+FFFD (`utf16Decode`). A text in which some escape is malformed
has no value.

`Escape.Evaluates` says so as a relation. A text begins with one piece at most (`Escape.Piece.unique`),
and with none where an escape is malformed (`Escape.Malformed.not_piece`), so it has one value at most
(`Escape.Evaluates.unique`).
-/

namespace Estree

/-! ## UTF-16 -/

/-- The first half of a surrogate pair. -/
def IsHigh (unit : Nat) : Prop := 0xD800 ≤ unit ∧ unit < 0xDC00

/-- The second half of a surrogate pair. -/
def IsLow (unit : Nat) : Prop := 0xDC00 ≤ unit ∧ unit < 0xE000

instance : DecidablePred IsHigh := fun unit => inferInstanceAs (Decidable (_ ∧ unit < 0xDC00))

instance : DecidablePred IsLow := fun unit => inferInstanceAs (Decidable (_ ∧ unit < 0xE000))

/-- The UTF-16 units of a code point, which may be a surrogate. -/
def codeUnits (point : Nat) : List Nat :=
  if point < 0x10000 then [point]
  else [0xD800 + (point - 0x10000) / 0x400, 0xDC00 + (point - 0x10000) % 0x400]

/-- The characters that UTF-16 units stand for. Half of a surrogate pair that stands alone is read as
U+FFFD. -/
def utf16Decode : List Nat → List Char
  | [] => []
  | [unit] => [Escape.charOf unit]
  | high :: low :: rest =>
    if IsHigh high ∧ IsLow low then
      Char.ofNat (0x10000 + (high - 0xD800) * 0x400 + (low - 0xDC00)) :: utf16Decode rest
    else Escape.charOf high :: utf16Decode (low :: rest)

namespace Escape

/-! ## The grammar of escapes -/

/-- What follows `\u`: four hexadecimal digits, or a code point in braces. -/
inductive CodePoint : List Char → Nat → List Char → Prop
  | four {digits rest : List Char} {point : Nat} : digits.length = 4 → Writes 16 digits point →
    CodePoint (digits ++ rest) point rest
  | braced {digits rest : List Char} {point : Nat} : digits ≠ [] → Writes 16 digits point →
    point ≤ 0x10FFFF → CodePoint ('{' :: (digits ++ '}' :: rest)) point rest

/-- What ends a line. -/
inductive LineTerminator : List Char → List Char → Prop
  | lineFeed {rest : List Char} : LineTerminator ('\n' :: rest) rest
  | carriageReturn {rest : List Char} : rest.head? ≠ some '\n' → LineTerminator ('\r' :: rest) rest
  | carriageReturnLineFeed {rest : List Char} : LineTerminator ('\r' :: '\n' :: rest) rest
  | lineSeparator {rest : List Char} : LineTerminator ('\u2028' :: rest) rest
  | paragraphSeparator {rest : List Char} : LineTerminator ('\u2029' :: rest) rest

/-- Whether a text goes on with an octal digit. -/
def goesOnOctal (rest : List Char) : Prop := rest.head?.any isOctal

/-- Legacy octal escapes, which strings alone may have. -/
inductive LegacyOctal : List Char → Nat → List Char → Prop
  | zero {c : Char} {rest : List Char} : c = '8' ∨ c = '9' → LegacyOctal ('0' :: c :: rest) 0 (c :: rest)
  | nonZero {a : Char} {d : Nat} {rest : List Char} : digitOf 8 a = some d → d ≠ 0 →
    ¬goesOnOctal rest → LegacyOctal (a :: rest) d rest
  | zeroToThree {a b : Char} {d e : Nat} {rest : List Char} : digitOf 8 a = some d → d ≤ 3 →
    digitOf 8 b = some e → ¬goesOnOctal rest → LegacyOctal (a :: b :: rest) (d * 8 + e) rest
  | fourToSeven {a b : Char} {d e : Nat} {rest : List Char} : digitOf 8 a = some d → 4 ≤ d →
    digitOf 8 b = some e → LegacyOctal (a :: b :: rest) (d * 8 + e) rest
  | three {a b c : Char} {d e f : Nat} {rest : List Char} : digitOf 8 a = some d → d ≤ 3 →
    digitOf 8 b = some e → digitOf 8 c = some f →
    LegacyOctal (a :: b :: c :: rest) (d * 64 + e * 8 + f) rest

/-- The letters that stand for a control character, with its code. -/
def controls : List (Char × Nat) :=
  [('b', 0x08), ('t', 0x09), ('n', 0x0A), ('v', 0x0B), ('f', 0x0C), ('r', 0x0D)]

/-- Whether a character after a backslash stands for itself: it is no letter with a meaning of its own,
no digit, and ends no line. -/
def standsForItself (c : Char) : Prop :=
  c ∉ controls.map Prod.fst ∧ c ≠ 'x' ∧ c ≠ 'u' ∧ ¬isDecimal c ∧
    c ∉ ['\n', '\r', '\u2028', '\u2029']

/-- The escapes, from the character after the backslash, with their UTF-16 units. -/
inductive Sequence : Quote → List Char → List Nat → List Char → Prop
  | control {quote : Quote} {c : Char} {unit : Nat} {rest : List Char} : (c, unit) ∈ controls →
    Sequence quote (c :: rest) [unit] rest
  | itself {quote : Quote} {c : Char} {rest : List Char} : standsForItself c →
    Sequence quote (c :: rest) (utf16Encode c) rest
  | null {quote : Quote} {rest : List Char} : ¬rest.head?.any isDecimal →
    Sequence quote ('0' :: rest) [0] rest
  | octal {cs rest : List Char} {value : Nat} : LegacyOctal cs value rest →
    Sequence .string cs [value] rest
  | nonOctal {c : Char} {rest : List Char} : c = '8' ∨ c = '9' →
    Sequence .string (c :: rest) (utf16Encode c) rest
  | hex {quote : Quote} {a b : Char} {value : Nat} {rest : List Char} : Writes 16 [a, b] value →
    Sequence quote ('x' :: a :: b :: rest) [value] rest
  | unicode {quote : Quote} {cs rest : List Char} {point : Nat} : CodePoint cs point rest →
    Sequence quote ('u' :: cs) (codeUnits point) rest

/-! ## Texts -/

/-- What a text begins with, its UTF-16 units, and the text after it. CR and CR LF are read as LF, and
line continuations give nothing. -/
inductive Piece (quote : Quote) : List Char → List Nat → List Char → Prop
  | plain {c : Char} {rest : List Char} : c ≠ '\\' → c ≠ '\r' →
    Piece quote (c :: rest) (utf16Encode c) rest
  | carriageReturn {rest : List Char} : rest.head? ≠ some '\n' → Piece quote ('\r' :: rest) [0x0A] rest
  | carriageReturnLineFeed {rest : List Char} : Piece quote ('\r' :: '\n' :: rest) [0x0A] rest
  | escape {cs rest : List Char} {units : List Nat} : Sequence quote cs units rest →
    Piece quote ('\\' :: cs) units rest
  | continuation {cs rest : List Char} : LineTerminator cs rest → Piece quote ('\\' :: cs) [] rest

/-- A text begins with some pieces, which have UTF-16 units, and goes on with another text. -/
inductive Reads (quote : Quote) : List Char → List Nat → List Char → Prop
  | here {cs : List Char} : Reads quote cs [] cs
  | next {cs rest last : List Char} {units more : List Nat} : Piece quote cs units rest →
    Reads quote rest more last → Reads quote cs (units ++ more) last

/-- What follows the backslash of a malformed escape: nothing, digits that are missing or too large, or
a digit in a template other than a lone `0`. -/
inductive Malformed : Quote → List Char → Prop
  | lone {quote : Quote} : Malformed quote []
  | hex {quote : Quote} {cs : List Char} :
    (∀ a b rest value, cs = a :: b :: rest → ¬Writes 16 [a, b] value) → Malformed quote ('x' :: cs)
  | unicode {quote : Quote} {cs : List Char} : (∀ point rest, ¬CodePoint cs point rest) →
    Malformed quote ('u' :: cs)
  | digit {c : Char} {rest : List Char} : isDecimal c → (c = '0' → rest.head?.any isDecimal) →
    Malformed .template (c :: rest)

/-- The value of a text: the characters of its units, or none if some escape is malformed. -/
inductive Evaluates (quote : Quote) (raw : List Char) : Option (List Char) → Prop
  | value {units : List Nat} : Reads quote raw units [] → Evaluates quote raw (some (utf16Decode units))
  | malformed {units : List Nat} {cs : List Char} : Reads quote raw units ('\\' :: cs) →
    Malformed quote cs → Evaluates quote raw none

/-! ## Digits -/

theorem isHex_of_writes {digits : List Char} {n : Nat} (h : Writes 16 digits n) :
    ∀ c ∈ digits, isHex c := h.isSome_digitOf

/-- Hexadecimal digits do not begin with a brace. -/
theorem head?_ne_brace {digits rest : List Char} (h : ∀ c ∈ digits, isHex c) (hne : digits ≠ []) :
    (digits ++ rest).head? ≠ some '{' := by
  cases digits with
  | nil => exact absurd rfl hne
  | cons d ds =>
    intro heq
    cases heq
    exact absurd (h _ List.mem_cons_self) (by decide)

/-- Hexadecimal digits end where their braces close. -/
theorem idxOf?_close {digits rest : List Char} (h : ∀ c ∈ digits, isHex c) :
    (digits ++ '}' :: rest).idxOf? '}' = some digits.length := by
  induction digits with
  | nil => rfl
  | cons d ds ih =>
    have hd : d ≠ '}' := by
      rintro rfl
      exact absurd (h _ List.mem_cons_self) (by decide)
    rw [List.cons_append, List.idxOf?_cons, if_neg (by simpa using hd),
      ih fun c hc => h c (List.mem_cons_of_mem _ hc)]
    rfl

/-! ## Escapes are read in one way -/

section

variable {quote : Quote} {c : Char} {cs rest rest' : List Char} {point point' unit unit' : Nat}
  {units units' : List Nat}

theorem CodePoint.unique (h : CodePoint cs point rest) (h' : CodePoint cs point' rest') :
    point = point' ∧ rest = rest' := by
  -- No brace is a digit, so both are of one form, and the digits end at the first brace that closes.
  have four_ne_braced {digits digits' rest : List Char} {n : Nat} (hlength : digits.length = 4)
      (h : Writes 16 digits n) : digits ++ rest ≠ '{' :: digits' := by
    have hne : digits ≠ [] := List.ne_nil_of_length_pos (by omega)
    intro heq
    exact head?_ne_brace (isHex_of_writes h) hne (congrArg List.head? heq)
  generalize hcs : cs = ds at h'
  cases h with
  | four hlength hwrites =>
    cases h' with
    | four hlength' hwrites' =>
      obtain ⟨rfl, rfl⟩ := List.append_inj hcs (hlength.trans hlength'.symm)
      exact ⟨hwrites.unique hwrites', rfl⟩
    | braced => exact absurd hcs (four_ne_braced hlength hwrites)
  | braced _ hwrites =>
    cases h' with
    | four hlength' hwrites' => exact absurd hcs.symm (four_ne_braced hlength' hwrites')
    | braced _ hwrites' =>
      have hinner := (List.cons.inj hcs).2
      have hlength := congrArg (List.idxOf? '}') hinner
      rw [idxOf?_close (isHex_of_writes hwrites), idxOf?_close (isHex_of_writes hwrites')] at hlength
      obtain ⟨rfl, hrest⟩ := List.append_inj hinner (Option.some.inj hlength)
      exact ⟨hwrites.unique hwrites', (List.cons.inj hrest).2⟩

theorem LineTerminator.unique (h : LineTerminator cs rest) (h' : LineTerminator cs rest') :
    rest = rest' := by
  cases h <;> cases h' <;> simp_all

theorem LegacyOctal.isOctal_head (h : LegacyOctal (c :: cs) point rest) : isOctal c := by
  cases h with
  | zero => decide
  | nonZero hd | zeroToThree hd | fourToSeven hd | three hd => exact isOctal_of_digitOf hd

/-- A zero begins a legacy octal escape only before another digit. -/
theorem LegacyOctal.isDecimal_second (h : LegacyOctal ('0' :: cs) point rest) :
    cs.head?.any isDecimal := by
  have hzero : digitOf 8 '0' = some 0 := rfl
  cases h with
  | zero hc => rcases hc with rfl | rfl <;> rfl
  | nonZero hd hne => exact absurd (Option.some.inj (hzero.symm.trans hd)).symm hne
  | fourToSeven hd hge =>
    cases Option.some.inj (hzero.symm.trans hd)
    cases hge
  | zeroToThree _ _ he | three _ _ he => exact isDecimal_of_isOctal (isOctal_of_digitOf he)

theorem LegacyOctal.unique (h : LegacyOctal cs point rest) (h' : LegacyOctal cs point' rest') :
    point = point' ∧ rest = rest' := by
  have hzero : digitOf 8 '0' = some 0 := rfl
  have height : digitOf 8 '8' = none := rfl
  have hnine : digitOf 8 '9' = none := rfl
  cases h <;> cases h' <;> grind [goesOnOctal, isOctal]

theorem not_isDecimal_letters : ¬isDecimal 'x' ∧ ¬isDecimal 'u' := by decide

theorem not_isDecimal_lineEnds :
    ¬isDecimal '\n' ∧ ¬isDecimal '\r' ∧ ¬isDecimal '\u2028' ∧ ¬isDecimal '\u2029' := by decide

/-- A letter that stands for a control character begins no other escape. -/
theorem lead_of_mem_controls (h : (c, unit) ∈ controls) :
    c ≠ 'x' ∧ c ≠ 'u' ∧ ¬isDecimal c ∧ c ∉ ['\n', '\r', '\u2028', '\u2029'] := by
  have hall : ∀ p ∈ controls,
      p.1 ≠ 'x' ∧ p.1 ≠ 'u' ∧ ¬isDecimal p.1 ∧ p.1 ∉ ['\n', '\r', '\u2028', '\u2029'] := by decide
  exact hall _ h

theorem controls_unique (h : (c, unit) ∈ controls) (h' : (c, unit') ∈ controls) : unit = unit' := by
  have hall : ∀ p ∈ controls, ∀ q ∈ controls, p.1 = q.1 → p.2 = q.2 := by decide
  exact hall _ h _ h' rfl

theorem Sequence.unique (h : Sequence quote cs units rest) (h' : Sequence quote cs units' rest') :
    units = units' ∧ rest = rest' := by
  -- What begins one form of escape begins no other, by its first character and the second after `0`.
  have hzero : isDecimal '0' := rfl
  have hlarge : isDecimal '8' ∧ ¬isOctal '8' ∧ isDecimal '9' ∧ ¬isOctal '9' := by decide
  have hletters := not_isDecimal_letters
  cases h <;> cases h' <;>
    grind [standsForItself, → lead_of_mem_controls, → controls_unique, → isDecimal_of_isOctal,
      → LegacyOctal.isOctal_head, → LegacyOctal.isDecimal_second, → LegacyOctal.unique,
      → Writes.unique, → CodePoint.unique]

/-- No escape is a line continuation. -/
theorem Sequence.not_lineTerminator (h : Sequence quote cs units rest) : ¬LineTerminator cs rest' := by
  have hends := not_isDecimal_lineEnds
  intro h'
  cases h <;> cases h' <;>
    grind [standsForItself, → lead_of_mem_controls, → isDecimal_of_isOctal,
      → LegacyOctal.isOctal_head]

/-- A text begins with one piece. -/
theorem Piece.unique (h : Piece quote cs units rest) (h' : Piece quote cs units' rest') :
    units = units' ∧ rest = rest' := by
  cases h with
  | plain => cases h' <;> simp_all
  | carriageReturn => cases h' <;> simp_all
  | carriageReturnLineFeed => cases h' <;> simp_all
  | escape h =>
    cases h' with
    | plain hbackslash => exact absurd rfl hbackslash
    | escape h' => exact h.unique h'
    | continuation h' => exact absurd h' h.not_lineTerminator
  | continuation h =>
    cases h' with
    | plain hbackslash => exact absurd rfl hbackslash
    | escape h' => exact absurd h h'.not_lineTerminator
    | continuation h' => exact ⟨rfl, h.unique h'⟩

theorem Malformed.not_sequence (h : Malformed quote cs) : ¬Sequence quote cs units rest := by
  have hletters := not_isDecimal_letters
  intro h'
  cases h with
  | lone =>
    cases h' with
    | octal h' => cases h'
  | hex | unicode | digit =>
    cases h' <;>
      grind [standsForItself, → lead_of_mem_controls, → isDecimal_of_isOctal,
        → LegacyOctal.isOctal_head]

theorem Malformed.not_lineTerminator (h : Malformed quote cs) : ¬LineTerminator cs rest := by
  have hends := not_isDecimal_lineEnds
  intro h'
  cases h <;> cases h' <;> simp_all

/-- No piece begins with the backslash of a malformed escape. -/
theorem Malformed.not_piece (h : Malformed quote cs) : ¬Piece quote ('\\' :: cs) units rest
  | .plain hbackslash _ => hbackslash rfl
  | .escape h' => h.not_sequence h'
  | .continuation h' => h.not_lineTerminator h'

namespace Reads

theorem trans (h : Reads quote cs units rest) (h' : Reads quote rest units' rest') :
    Reads quote cs (units ++ units') rest' := by
  induction h with
  | here => exact h'
  | next hpiece _ ih =>
    rw [List.append_assoc]
    exact .next hpiece (ih h')

theorem of_piece (h : Piece quote cs units rest) : Reads quote cs units rest := by
  have hreads := next h here
  rwa [List.append_nil] at hreads

/-- Where no piece begins, reading ends, and it ends there whatever is read. -/
theorem suffix (h : Reads quote cs units rest) (h' : Reads quote cs units' rest')
    (hend : ∀ us last, ¬Piece quote rest' us last) :
    ∃ more, units' = units ++ more ∧ Reads quote rest more rest' := by
  induction h generalizing units' with
  | here => exact ⟨units', rfl, h'⟩
  | next hpiece _ ih =>
    cases h' with
    | here => exact absurd hpiece (hend _ _)
    | next hpiece' h' =>
      obtain ⟨rfl, rfl⟩ := hpiece.unique hpiece'
      obtain ⟨more, rfl, hmore⟩ := ih h'
      exact ⟨more, (List.append_assoc ..).symm, hmore⟩

theorem of_end (h : Reads quote cs units rest) (hend : ∀ us last, ¬Piece quote cs us last) :
    units = [] ∧ rest = cs := by
  cases h with
  | here => exact ⟨rfl, rfl⟩
  | next hpiece => exact absurd hpiece (hend _ _)

/-- Two readings to where no piece begins are one. -/
theorem unique (h : Reads quote cs units rest) (h' : Reads quote cs units' rest')
    (hend : ∀ us last, ¬Piece quote rest us last) (hend' : ∀ us last, ¬Piece quote rest' us last) :
    units = units' ∧ rest = rest' := by
  obtain ⟨more, rfl, hmore⟩ := h.suffix h' hend'
  obtain ⟨rfl, rfl⟩ := hmore.of_end hend
  exact ⟨(List.append_nil _).symm, rfl⟩

end Reads

theorem not_piece_nil : ¬Piece quote [] units rest := nofun

/-- A text has one value. -/
theorem Evaluates.unique {v v' : Option (List Char)} (h : Evaluates quote cs v)
    (h' : Evaluates quote cs v') : v = v' := by
  have hnil : ∀ us last, ¬Piece quote [] us last := fun _ _ => not_piece_nil
  cases h with
  | value h =>
    cases h' with
    | value h' => rw [(h.unique h' hnil hnil).1]
    | malformed h' hbad =>
      exact nomatch (h.unique h' hnil fun _ _ => hbad.not_piece).2
  | malformed h hbad =>
    cases h' with
    | value h' => exact nomatch (h.unique h' (fun _ _ => hbad.not_piece) hnil).2
    | malformed => rfl

end

end Escape

end Estree
