import Estree.Proofs.Escape.Value

/-!
# Strings and templates

A template may not have every escape of a string: a digit after a backslash is an error unless it is a
zero that no other digit follows (`Escape.IsDigitEscape`). All other escapes are the same in both
(`Escape.escape_template`), so a text that has a value as a template has it as a string, and of the
texts that have a value as a string those with such a digit have none as a template.
-/

namespace Estree

namespace Escape

variable {quote : Quote} {cs rest rest' raw v w : List Char} {units units' : List Nat}

/-! ## Escapes of digits -/

/-- What follows a backslash is a decimal digit, other than a zero that no decimal digit follows. -/
def IsDigitEscape : List Char → Prop
  | [] => False
  | c :: rest => isDecimal c ∧ (c = '0' → rest.head?.any isDecimal)

instance : DecidablePred IsDigitEscape
  | [] => inferInstanceAs (Decidable False)
  | c :: rest => inferInstanceAs (Decidable (isDecimal c ∧ (c = '0' → rest.head?.any isDecimal)))

theorem IsDigitEscape.malformed (h : IsDigitEscape cs) : Malformed .template cs := by
  cases cs with
  | nil => cases h
  | cons c rest => exact .digit h.1 h.2

/-- The escapes of a template are those of a string, except for digits. -/
theorem escape_template :
    escape .template cs = if IsDigitEscape cs then none else escape .string cs := by
  cases cs with
  | nil => rfl
  | cons c rest =>
    by_cases hc : c ∈ ['n', 'r', 't', 'b', 'f', 'v', 'x', 'u', '\r', '\n', '\u2028', '\u2029']
    case pos =>
      have hall : ['n', 'r', 't', 'b', 'f', 'v', 'x', 'u', '\r', '\n', '\u2028', '\u2029'].all
          (!isDecimal ·) := by decide
      have hdecimal : ¬isDecimal c := by simpa using List.all_eq_true.1 hall c hc
      rw [if_neg fun h => hdecimal h.1]
      simp only [List.mem_cons, List.not_mem_nil, or_false] at hc
      rcases hc with rfl | rfl | rfl | rfl | rfl | rfl | rfl | rfl | rfl | rfl | rfl | rfl
      case inr.inr.inr.inr.inr.inr.inr.inr.inl => rw [escape_return, escape_return]
      all_goals rfl
    case neg =>
      rw [escape_other hc, escape_other hc]
      by_cases hnull : c = '0' ∧ !rest.head?.any isDecimal
      · have hdigit : ¬IsDigitEscape (c :: rest) := fun h => by simp [h.2 hnull.1] at hnull
        rw [if_neg hdigit, if_pos hnull, if_pos hnull]
      · rw [if_neg hnull, if_neg hnull]
        by_cases hdecimal : isDecimal c
        · have hdigit : IsDigitEscape (c :: rest) := ⟨hdecimal, by simpa using hnull⟩
          rw [if_pos hdigit, if_pos hdecimal]
        · have hdigit : ¬IsDigitEscape (c :: rest) := fun h => hdecimal h.1
          rw [if_neg hdecimal, if_neg hdecimal, if_neg hdigit]

/-! ## Readings -/

/-- The escapes of a template are escapes of a string. -/
theorem Sequence.of_template (h : Sequence .template cs units rest) :
    Sequence .string cs units rest := by
  generalize hquote : Quote.template = quote at h
  cases h with
  | control hc => exact .control hc
  | itself hc => exact .itself hc
  | null hrest => exact .null hrest
  | octal | nonOctal => cases hquote
  | hex hwrites => exact .hex hwrites
  | unicode hcode => exact .unicode hcode

theorem Piece.of_template (h : Piece .template cs units rest) : Piece .string cs units rest := by
  cases h with
  | plain hbackslash hreturn => exact .plain hbackslash hreturn
  | carriageReturn hfeed => exact .carriageReturn hfeed
  | carriageReturnLineFeed => exact .carriageReturnLineFeed
  | escape hsequence => exact .escape hsequence.of_template
  | continuation hline => exact .continuation hline

/-- A template that is read to its end is read from every place where a string may be read to. -/
theorem Reads.template_of_string (h : Reads .template cs units []) (h' : Reads .string cs units' rest) :
    ∃ more, Reads .template rest more [] := by
  generalize hnil : ([] : List Char) = last at h
  induction h generalizing units' with
  | here =>
    subst hnil
    cases h' with
    | here => exact ⟨_, .here⟩
    | next hpiece => exact absurd hpiece not_piece_nil
  | next hpiece hreads ih =>
    subst hnil
    cases h' with
    | here => exact ⟨_, .next hpiece hreads⟩
    | next hpiece' h' =>
      obtain ⟨-, rfl⟩ := hpiece.of_template.unique hpiece'
      exact ih h' rfl

/-! ## Values -/

/-- Reading a string and reading a template come to the same, unless the string comes to a digit that
the template may not have. -/
theorem cook_template_or (raw : List Char) :
    cook .template raw = cook .string raw ∨
    cook .template raw = none ∧
      ∃ units cs, Reads .string raw units ('\\' :: cs) ∧ IsDigitEscape cs := by
  -- Both go on in the same way after a round, until the escape at which only the template stops.
  have step {cs value rest : List Char} (hround : Round .string cs value rest)
      (htemplate : cook .template cs = (cook .template rest).map (value ++ ·))
      (ih : cook .template rest = cook .string rest ∨ cook .template rest = none ∧
        ∃ units ds, Reads .string rest units ('\\' :: ds) ∧ IsDigitEscape ds) :
      cook .template cs = (cook .string rest).map (value ++ ·) ∨ cook .template cs = none ∧
        ∃ units ds, Reads .string cs units ('\\' :: ds) ∧ IsDigitEscape ds := by
    rcases ih with heq | ⟨hnone, units, ds, hreads, hdigit⟩
    · exact .inl (by rw [htemplate, heq])
    · obtain ⟨units', hfirst⟩ := hround.reads
      rw [hnone] at htemplate
      exact .inr ⟨htemplate, _, ds, hfirst.trans hreads, hdigit⟩
  fun_induction cook .string raw with
  | case1 => exact .inl (by rw [cook])
  | case2 rest ih => exact step (.of_lineFeed .carriageReturnLineFeed) (by rw [cook]; rfl) ih
  | case3 rest hfeed ih =>
    have hhead : rest.head? ≠ some '\n' := fun hhead => by
      obtain ⟨tail, htail⟩ := List.head?_eq_some_iff.1 hhead
      exact hfeed tail htail
    exact step (.of_lineFeed (.carriageReturn hhead)) (by rw [cook.eq_3 _ _ hfeed]; rfl) ih
  | case4 rest value taken hescape ih =>
    by_cases hdigit : IsDigitEscape rest
    case pos =>
      refine .inr ⟨?_, [], rest, .here, hdigit⟩
      rw [cook, escape_template, if_pos hdigit]
    case neg =>
      refine step (round_of_escape hescape) ?_ ih
      rw [cook, escape_template, if_neg hdigit, hescape]
  | case5 rest hescape =>
    refine .inl ?_
    rw [cook, escape_template, hescape, ite_self]
  | case6 c rest hpair hreturn hbackslash ih =>
    exact step (.of_char (.plain hbackslash hreturn))
      (by rw [cook.eq_5 _ _ _ hpair hreturn hbackslash]; rfl) ih

end Escape

open Escape

/-- **Templates have the values of strings.** A text that has a value as a template has the same value as
a string. A text that has a value as a string has none as a template exactly if it has an escape of a
digit, other than a zero that no digit follows. -/
theorem cook_template_refines (raw : List Char) :
    (∀ v, cook .template raw = some v → cook .string raw = some v) ∧
    ∀ w, cook .string raw = some w →
      (cook .template raw = none ↔
        ∃ units cs, Reads .string raw units ('\\' :: cs) ∧ IsDigitEscape cs) := by
  refine ⟨fun v hv => ?_, fun w hw => ⟨fun hnone => ?_, ?_⟩⟩
  · rcases cook_template_or raw with heq | ⟨hnone, -⟩
    · exact heq ▸ hv
    · cases hnone ▸ hv
  · rcases cook_template_or raw with heq | ⟨-, hdigit⟩
    · cases (hnone.symm.trans heq).trans hw
    · exact hdigit
  · rintro ⟨units, cs, hreads, hdigit⟩
    by_contra hsome
    obtain ⟨v, hv⟩ := Option.ne_none_iff_exists'.1 hsome
    obtain ⟨units', htemplate⟩ := reads_of_cook hv
    obtain ⟨more, hmore⟩ := htemplate.template_of_string hreads
    cases hmore with
    | next hpiece => exact hdigit.malformed.not_piece hpiece

/-- A text with a lone zero and a line continuation. -/
def nullEscape : List Char := "\\0a\\\n".toList

/-- A text with an octal escape behind a lone zero. -/
def octalEscape : List Char := "\\0\\101".toList

theorem nullEscape_refines :
    (cook .template nullEscape = some ['\x00', 'a'] ∧ cook .string nullEscape = some ['\x00', 'a']) ∧
    cook .string octalEscape = some ['\x00', 'A'] ∧ cook .template octalEscape = none ∧
    ∃ units cs, Reads .string octalEscape units ('\\' :: cs) ∧ IsDigitEscape cs := by
  have hvalue : cook .template nullEscape = some ['\x00', 'a'] := by decide +kernel
  have hstring : cook .string octalEscape = some ['\x00', 'A'] := by decide +kernel
  have hnone : cook .template octalEscape = none := by decide +kernel
  exact ⟨⟨hvalue, (cook_template_refines nullEscape).1 _ hvalue⟩, hstring, hnone,
    ((cook_template_refines octalEscape).2 _ hstring).1 hnone⟩

end Estree
