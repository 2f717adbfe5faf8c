import Estree.Convert.Program
import Estree.Proofs.Escape.Value
import Estree.Proofs.Outcome
import Estree.Proofs.Spans

/-!
# Templates lose no text

The text between the backticks of a template is cut at its substitutions (`Template.Cuts`): the parts of
the result and the texts of the substitutions, in turn, are that text, and every part has the range of
its own. The parts depend on the span of the template and on its substitutions alone
(`Convert.template_congr`).

A part has the value of its text where that is ordinary. Elsewhere the value may be missing although
the text has one: a code point of nine digits is not read (`longBrace_uncooked`).
-/

namespace Estree

/-- A node is the part of a template that has a text from an offset on. -/
structure Node.IsQuasi (q : Node) (offset : Nat) (raw : List Char) (tail : Bool) : Prop where
  range : q.mark.range = ⟨offset, offset + utf16Length raw⟩
  shape : ∃ cooked,
    q.shape = .templateElement ⟨cooked.map String.ofList, String.ofList raw⟩ tail ∧
    cooked = cook .template raw ∧
    (Escape.Ordinary .template raw → Escape.Evaluates .template raw cooked)

/-- The text from an offset in UTF-16 units on is that of parts of a template, with the texts of its
substitutions between them. The last part is the tail. -/
inductive Template.Cuts (source : Source) : Nat → List Char → List Node → List Cst → Prop
  | last {offset : Nat} {raw : List Char} {q : Node} : q.IsQuasi offset raw true →
    Cuts source offset raw [q] []
  | next {offset : Nat} {raw text rest : List Char} {q : Node} {quasis : List Node} {c : Cst}
    {cs : List Cst} : q.IsQuasi offset raw false → source.slice c.head.start c.head.stop = text →
    Cuts source (offset + utf16Length raw + utf16Length text) rest quasis cs →
    Cuts source offset (raw ++ text ++ rest) (q :: quasis) (c :: cs)

theorem Template.Cuts.length_eq {source : Source} {offset : Nat} {text : List Char}
    {quasis : List Node} {cs : List Cst} (h : Cuts source offset text quasis cs) :
    quasis.length = cs.length + 1 := by
  induction h with
  | last => rfl
  | next _ _ _ ih => exact congrArg (· + 1) ih

/-! ## Backticks -/

namespace Cst

/-- A node begins and ends with a backtick of a text, and the spans of its children follow each other
on character boundaries. -/
structure Backquoted (source : Source) (n : Cst) : Prop extends Nests n, Quoted n where
  runs : ∀ c ∈ n.children, c.head.start ≤ c.head.stop
  boundaries : ∀ c ∈ n.children,
    source.isBoundary c.head.start ∧ source.isBoundary c.head.stop
  opens : ∀ c ∈ n.parts.head?, source.slice c.head.start c.head.stop = ['`']
  closes : ∀ c ∈ n.parts.getLast?, source.slice c.head.start c.head.stop = ['`']
  two : 1 < n.parts.length

instance (source : Source) : DecidablePred (Backquoted source) := fun n =>
  decidable_of_iff (n.Nests ∧ n.Quoted ∧ (∀ c ∈ n.children, c.head.start ≤ c.head.stop) ∧
      (∀ c ∈ n.children, source.isBoundary c.head.start ∧ source.isBoundary c.head.stop) ∧
      (∀ c ∈ n.parts.head?, source.slice c.head.start c.head.stop = ['`']) ∧
      (∀ c ∈ n.parts.getLast?, source.slice c.head.start c.head.stop = ['`']) ∧
      1 < n.parts.length)
    ⟨fun ⟨nests, quoted, runs, boundaries, opens, closes, two⟩ =>
        { nests, quoted with runs, boundaries, opens, closes, two },
      fun h => ⟨h.toNests, h.toQuoted, h.runs, h.boundaries, h.opens, h.closes, h.two⟩⟩

variable {source : Source} {n : Cst}

/-- The text of a node between backticks. -/
theorem Backquoted.slice_eq (h : n.Backquoted source) :
    n.head.start + 1 ≤ n.head.stop - 1 ∧
    source.isBoundary (n.head.start + 1) ∧ source.isBoundary (n.head.stop - 1) ∧
    source.units (n.head.start + 1) = source.units n.head.start + 1 ∧
    source.slice n.head.start n.head.stop
      = '`' :: source.slice (n.head.start + 1) (n.head.stop - 1) ++ ['`'] := by
  obtain ⟨opening, hopening, -, hstart, hopen⟩ := h.opening
  obtain ⟨closing, hclosing, -, hstop, hclose⟩ := h.closing
  have hmem := List.mem_of_head? hopening
  have hmem' := List.mem_of_getLast? hclosing
  have hend : closing.head.start = n.head.stop - 1 := by omega
  have hfollow := h.toNests.stop_le_start h.two hopening hclosing
  obtain ⟨ha, hb⟩ := h.boundaries _ (mem_children_of_mem_parts hmem)
  obtain ⟨hc, hd⟩ := h.boundaries _ (mem_children_of_mem_parts hmem')
  have htick := h.opens opening hopening
  have htick' := h.closes closing hclosing
  rw [hstart, hopen] at htick
  rw [hstop, hend] at htick'
  rw [hstart] at ha
  rw [hopen] at hb hfollow
  rw [hend] at hc hfollow
  rw [hstop] at hd
  have hunits := Source.units_add_slice ha hb (Nat.le_succ _)
  rw [htick] at hunits
  have hinner := Source.slice_append_slice ha hb (Nat.le_succ _) hc hfollow
  have hwhole := Source.slice_append_slice ha hc (by omega) hd (Nat.sub_le _ 1)
  rw [← hinner, htick, htick'] at hwhole
  exact ⟨hfollow, hb, hc, hunits.symm, hwhole.symm⟩

end Cst

/-! ## Parts -/

namespace Convert

section

variable {μ : Type} (ctx : Context μ) (n : Cst)

/-- The parts of the text of a template between offsets, around substitutions. -/
def templateElements (start stop : Nat) (cs : List Cst) : List (Tree μ) :=
  let gaps := Cst.gapsFrom start stop cs
  gaps.dropLast.map (templateElement ctx n false) ++ gaps.getLast?.toList.map (templateElement ctx n true)

theorem templateElements_nil {start stop : Nat} :
    templateElements ctx n start stop [] = [templateElement ctx n true (start, max stop start)] := rfl

theorem templateElements_cons {start stop : Nat} {c : Cst} {cs : List Cst} :
    templateElements ctx n start stop (c :: cs)
      = templateElement ctx n false (start, c.head.start)
        :: templateElements ctx n c.head.stop stop cs := by
  obtain ⟨gap, gaps, hgaps⟩ : ∃ gap gaps, Cst.gapsFrom c.head.stop stop cs = gap :: gaps := by
    cases cs with
    | nil => exact ⟨_, _, rfl⟩
    | cons d cs => exact ⟨_, _, rfl⟩
  unfold templateElements
  rw [Cst.gapsFrom, hgaps]
  rfl

end

variable {source : Source} {options : Options} {n : Cst}

theorem isQuasi_templateElement {a b : Nat} {tail : Bool} (ha : source.isBoundary a)
    (hb : source.isBoundary b) (hab : a ≤ b) :
    Node.IsQuasi (templateElement (Program.context source options) n tail (a, b)) (source.units a)
      (source.slice a b) tail where
  range := by
    rw [Source.units_add_slice ha hb hab]
    rfl
  shape := ⟨_, rfl, rfl, fun h => Escape.evaluates_cook h⟩

/-- The parts of a template are cut from its text. -/
theorem cuts_templateElements {start stop : Nat} {cs : List Cst} (hstart : source.isBoundary start)
    (hstop : source.isBoundary stop) (hle : start ≤ stop)
    (hcs : ∀ c ∈ cs, start ≤ c.head.start ∧ c.head.start ≤ c.head.stop ∧ c.head.stop ≤ stop ∧
      source.isBoundary c.head.start ∧ source.isBoundary c.head.stop)
    (hfollow : cs.Pairwise fun c d => c.head.stop ≤ d.head.start) :
    Template.Cuts source (source.units start) (source.slice start stop)
      (templateElements (Program.context source options) n start stop cs) cs := by
  induction cs generalizing start with
  | nil =>
    rw [templateElements_nil, Nat.max_eq_left hle]
    exact .last (isQuasi_templateElement hstart hstop hle)
  | cons c cs ih =>
    obtain ⟨⟨hbefore, hforward, hafter, hc, hc'⟩, hcs⟩ := List.forall_mem_cons.1 hcs
    obtain ⟨hnext, hfollow⟩ := List.pairwise_cons.1 hfollow
    have hrest := ih hc' hafter (fun d hd => ⟨hnext d hd, (hcs d hd).2⟩) hfollow
    rw [← Source.units_add_slice hc hc' hforward, ← Source.units_add_slice hstart hc hbefore] at hrest
    have hhead := Source.slice_append_slice hstart hc hbefore hc' hforward
    have hwhole := Source.slice_append_slice hstart hc' (by omega) hstop hafter
    rw [templateElements_cons, ← hwhole, ← hhead]
    exact .next (isQuasi_templateElement hstart hc hbefore) rfl hrest

/-- A template is converted by its span and its substitutions. -/
theorem template_congr {m : Cst} (f : Converter Label) (hhead : m.head = n.head)
    (hsubs : m.substitutions = n.substitutions) :
    Tree.shape <$> template (Program.context source options) f m
      = Tree.shape <$> template (Program.context source options) f n := by
  unfold template Cst.gaps
  rw [hhead, hsubs, map_bind, map_bind]
  refine congrArg _ (funext fun expressions => ?_)
  rw [map_pure, map_pure]
  rfl

end Convert

/-- **Templates lose no text.** The result of a template between backticks has one expression for each
substitution and one part of text more. Its parts are cut from the text between the backticks, in UTF-16
units from behind the first one, with the substitutions between them; and an expression is the conversion
of the first named child of its substitution. Other children are of no account. -/
theorem Program.template_cuts {source : Source} {options : Options} {n : Cst} {t : Node}
    (hn : n.Backquoted source)
    (h : (Convert.template (context source options) (Convert.convert (context source options)) n).result
      = .ok t) :
    (∃ quasis expressions inner,
      t.shape = .templateLiteral quasis expressions ∧
      quasis.length = n.substitutions.length + 1 ∧
      List.Forall₂ (fun c e => ∃ d, c.named.head? = some d ∧
        (Convert.convert (context source options) .expression d).result = .ok e)
        n.substitutions expressions ∧
      source.slice n.head.start n.head.stop = '`' :: inner ++ ['`'] ∧
      Template.Cuts source (source.units n.head.start + 1) inner quasis n.substitutions) ∧
    ∀ m : Cst, m.head = n.head → m.substitutions = n.substitutions →
      Tree.shape <$> Convert.template (context source options)
          (Convert.convert (context source options)) m
        = Tree.shape <$> Convert.template (context source options)
          (Convert.convert (context source options)) n := by
  refine ⟨?_, fun m => Convert.template_congr _⟩
  obtain ⟨expressions, hexpressions, h⟩ := Outcome.result_bind_eq_ok.1 h
  cases h
  obtain ⟨hle, hstart, hstop, hunits, hslice⟩ := hn.slice_eq
  have hcuts := @Convert.cuts_templateElements source options n _ _ n.substitutions hstart hstop hle
    (fun c hc => ?_) ?_
  · rw [hunits] at hcuts
    refine ⟨_, expressions, _, rfl, hcuts.length_eq, ?_, hslice, hcuts⟩
    refine (Outcome.result_mapM_eq_ok.1 hexpressions).imp fun c e hce => ?_
    obtain ⟨d, hd, he⟩ := Outcome.result_bind_eq_ok.1 hce
    exact ⟨d, Context.result_firstNamed.1 hd, he⟩
  · have hmem := Cst.mem_children_of_mem_parts (Cst.mem_parts_of_mem_substitutions hc)
    exact ⟨hn.le_start hn.toNests hc, hn.runs c hmem, hn.stop_le hn.toNests hc, hn.boundaries c hmem⟩
  · exact hn.toNests.parts.sublist (List.filter_sublist.trans List.filter_sublist)

/-- The text of a template with an escape and with a comment in a substitution. -/
def commentedText : Source := .ofString "`é$\x7ba\x7d$\x7b/**/b\x7d\\n`"

/-- The tree of a template over its text. -/
def commentedTemplate : Cst :=
  .node { label := "template_string", isNamed := true, start := 0, stop := 18 } [
    .node { label := "`", start := 0, stop := 1 } [],
    .node { label := "string_fragment", isNamed := true, start := 1, stop := 3 } [],
    .node { label := "template_substitution", isNamed := true, start := 3, stop := 7 } [
      .node { label := "$\x7b", start := 3, stop := 5 } [],
      .node { label := "identifier", isNamed := true, start := 5, stop := 6 } [],
      .node { label := "\x7d", start := 6, stop := 7 } []],
    .node { label := "template_substitution", isNamed := true, start := 7, stop := 15 } [
      .node { label := "$\x7b", start := 7, stop := 9 } [],
      .node { label := "comment", isNamed := true, isExtra := true, start := 9, stop := 13 } [],
      .node { label := "identifier", isNamed := true, start := 13, stop := 14 } [],
      .node { label := "\x7d", start := 14, stop := 15 } []],
    .node { label := "escape_sequence", isNamed := true, start := 15, stop := 17 } [],
    .node { label := "`", start := 17, stop := 18 } []]

theorem commentedTemplate_cuts : commentedTemplate.Backquoted commentedText ∧
    ∃ t quasis expressions inner,
      (Convert.template (Program.context commentedText {})
        (Convert.convert (Program.context commentedText {})) commentedTemplate).result = .ok t ∧
      t.shape = .templateLiteral quasis expressions ∧ quasis.length = 3 ∧
      commentedText.slice 0 18 = '`' :: inner ++ ['`'] ∧
      Template.Cuts commentedText 1 inner quasis commentedTemplate.substitutions := by
  have hquoted : commentedTemplate.Backquoted commentedText := by decide +kernel
  obtain ⟨t, ht⟩ : ∃ t, (Convert.template (Program.context commentedText {})
      (Convert.convert (Program.context commentedText {})) commentedTemplate).result = .ok t := ⟨_, rfl⟩
  obtain ⟨⟨quasis, expressions, inner, hshape, hlength, -, hslice, hcuts⟩, -⟩ :=
    Program.template_cuts hquoted ht
  exact ⟨hquoted, t, quasis, expressions, inner, ht, hshape, hlength, hslice, hcuts⟩

/-- A template that writes `A` with nine digits. -/
def longBraceText : Source := .ofString "`\\u\x7b000000041\x7d`"

/-- The tree of a template over its text. -/
def longBrace : Cst :=
  .node { label := "template_string", isNamed := true, start := 0, stop := 15 } [
    .node { label := "`", start := 0, stop := 1 } [],
    .node { label := "escape_sequence", isNamed := true, start := 1, stop := 14 } [],
    .node { label := "`", start := 14, stop := 15 } []]

/-- A part of a template may have no value though its text has one: code points of nine digits are not
read, even if zeros come first. -/
theorem longBrace_uncooked : longBrace.Backquoted longBraceText ∧
    ∃ t q, (Convert.template (Program.context longBraceText {})
        (Convert.convert (Program.context longBraceText {})) longBrace).result = .ok t ∧
      t.shape = .templateLiteral [q] [] ∧
      q.shape = .templateElement ⟨none, String.ofList (longBraceText.slice 1 14)⟩ true ∧
      Escape.Evaluates .template (longBraceText.slice 1 14) (some ['A']) := by
  have hquoted : longBrace.Backquoted longBraceText := by decide +kernel
  let digits := ['0', '0', '0', '0', '0', '0', '0', '4', '1']
  have hraw : longBraceText.slice 1 14 = '\\' :: 'u' :: '{' :: (digits ++ ['}']) := by decide +kernel
  have hdigits : Writes 16 digits 0x41 := numberOf?_eq_some_iff.1 rfl
  have hcode : Escape.CodePoint ('{' :: (digits ++ ['}'])) 0x41 [] :=
    .braced (List.cons_ne_nil _ _) hdigits (by decide)
  have hpiece : Escape.Piece .template (longBraceText.slice 1 14) [0x41] [] := by
    rw [hraw]
    exact hcode.piece_of_lt (by decide)
  have hcook : cook .template (longBraceText.slice 1 14) = none := by decide +kernel
  have hshape : (Convert.templateElement (Program.context longBraceText {}) longBrace true (1, 14)).shape
      = .templateElement ⟨none, String.ofList (longBraceText.slice 1 14)⟩ true := by
    change Shape.templateElement
      ⟨(cook .template (longBraceText.slice 1 14)).map String.ofList, _⟩ true = _
    rw [hcook]
    rfl
  exact ⟨hquoted, _, _, rfl, rfl, hshape, .value (.of_piece hpiece)⟩

end Estree
