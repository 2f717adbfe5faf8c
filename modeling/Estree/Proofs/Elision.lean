import Estree.Proofs.Outcome
import Estree.Proofs.Simulation.Descent
import Estree.Proofs.Target.Basic

/-!
# Holes of arrays

The commas of an array delimit slots, with one element at most in each (`Cst.Brackets`). By ECMAScript
an empty slot is a hole unless it is the last, so an array with a comma at its end has no hole there.
What an array is converted to keeps to this (`Convert.array_elided`), whether it is an expression, a
pattern that is declared, or one that is assigned to.
-/

namespace Estree

/-! ## Entries of slots -/

/-- What slots hold, in order, with `none` for an empty one. An empty slot at the end does not count. -/
def entriesOf {α : Type} : List (List α) → List (Option α)
  | [] => []
  | [last] => last.map some
  | slot :: next :: slots => slot.head? :: entriesOf (next :: slots)

section

variable {α : Type} {a : α} {slot : List α} {slots : List (List α)}

theorem entriesOf_cons (h : slots ≠ []) : entriesOf (slot :: slots) = slot.head? :: entriesOf slots := by
  cases slots with
  | nil => exact absurd rfl h
  | cons => rfl

/-- An element in the first slot takes the place of a hole, or is one more entry. -/
theorem entriesOf_singleton_cons : entriesOf ([a] :: slots) = some a :: (entriesOf ([] :: slots)).tail := by
  cases slots <;> rfl

theorem length_entriesOf (h : slots ≠ []) :
    (entriesOf slots).length + 1 = slots.length + (slots.getLastD []).length := by
  fun_induction entriesOf slots with
  | case1 => exact absurd rfl h
  | case2 last =>
    rw [List.length_map, List.length_singleton, Nat.add_comm]
    rfl
  | case3 slot next slots ih =>
    have hlast : (slot :: next :: slots).getLastD [] = (next :: slots).getLastD [] := rfl
    rw [hlast, List.length_cons, List.length_cons, ih (List.cons_ne_nil _ _)]
    omega

theorem getElem?_entriesOf (hsingle : ∀ slot ∈ slots, slot.length ≤ 1) {i : Nat}
    (hi : i < (entriesOf slots).length) : (entriesOf slots)[i]? = slots[i]?.map List.head? := by
  fun_induction entriesOf slots generalizing i with
  | case1 => cases hi
  | case2 last =>
    have hlast := hsingle last List.mem_cons_self
    rw [List.length_map] at hi
    obtain rfl : i = 0 := by omega
    cases last with
    | nil => cases hi
    | cons => rfl
  | case3 slot next slots ih =>
    cases i with
    | zero => rfl
    | succ i =>
      rw [List.getElem?_cons_succ, List.getElem?_cons_succ]
      exact ih (fun _ h => hsingle _ (List.mem_cons_of_mem _ h)) (Nat.lt_of_succ_lt_succ hi)

end

namespace Cst

variable {n c : Cst} {body cs slot : List Cst} {slots : List (List Cst)} {empty : Bool} {text : String}

/-! ## Slots -/

/-- What stands in the slots that commas delimit. -/
def delimited (body : List Cst) : List (List Cst) := body.splitOnP (·.isToken ",")

/-- The parts of a node are an opening bracket, named elements and commas, and a closing bracket, and no
slot holds two elements. -/
structure Brackets (n : Cst) (body : List Cst) : Prop where
  parts : ∃ opening closing, n.parts = opening :: (body ++ [closing]) ∧
    opening.isToken "[" ∧ closing.isToken "]"
  items : ∀ c ∈ body, c.head.isNamed ∨ c.isToken ","
  single : ∀ slot ∈ delimited body, slot.length ≤ 1

theorem slotsOf_named (h : c.head.isNamed) : slotsOf empty (c :: cs) = some c :: slotsOf false cs := by
  rw [slotsOf, if_pos h]

theorem slotsOf_comma (h : c.isToken ",") :
    slotsOf empty (c :: cs) = (if empty then [none] else []) ++ slotsOf true cs := by
  rw [slotsOf, if_neg (not_isNamed_of_isToken h), if_pos h]

/-- A token that is no comma does not count. -/
theorem slotsOf_bracket (h : c.isToken text) (hne : text ≠ ",") :
    slotsOf empty (c :: cs) = slotsOf empty cs := by
  rw [slotsOf, if_neg (not_isNamed_of_isToken h), if_neg (isToken_unique h hne)]

theorem slotsOf_append_bracket (h : c.isToken text) (hne : text ≠ ",") :
    slotsOf empty (cs ++ [c]) = slotsOf empty cs := by
  induction cs generalizing empty with
  | nil => exact slotsOf_bracket h hne
  | cons d cs ih => rw [List.cons_append, slotsOf, slotsOf, ih, ih, ih]

theorem delimited_ne_nil : delimited cs ≠ [] := List.splitOnP_ne_nil _ _

theorem delimited_comma (h : c.isToken ",") : delimited (c :: cs) = [] :: delimited cs := by
  rw [delimited, List.splitOnP_cons_eq_if_modifyHead, if_pos h]
  rfl

theorem delimited_named (h : c.head.isNamed) (hcs : delimited cs = slot :: slots) :
    delimited (c :: cs) = (c :: slot) :: slots := by
  rw [delimited] at hcs
  rw [delimited, List.splitOnP_cons_eq_if_modifyHead, if_neg fun hcomma => not_isNamed_of_isToken hcomma h, hcs]
  rfl

theorem length_delimited : (delimited cs).length = cs.countP (·.isToken ",") + 1 := by
  induction cs with
  | nil => rfl
  | cons c cs ih =>
    rw [delimited, List.splitOnP_cons_eq_if_modifyHead, List.countP_cons]
    split
    case isTrue => exact congrArg (· + 1) ih
    case isFalse => exact List.length_modifyHead.trans ih

/-- Behind an element the next comma opens a slot without leaving a hole. -/
theorem slotsOf_false (hitems : ∀ c ∈ cs, c.head.isNamed ∨ c.isToken ",")
    (hcs : delimited cs = [] :: slots) : slotsOf false cs = (slotsOf true cs).tail := by
  cases cs with
  | nil => rfl
  | cons c cs =>
    rcases hitems c List.mem_cons_self with hnamed | hcomma
    · obtain ⟨slot, _, hsplit⟩ := List.exists_cons_of_ne_nil (@delimited_ne_nil cs)
      rw [delimited_named hnamed hsplit] at hcs
      cases hcs
    · rw [slotsOf_comma hcomma, slotsOf_comma hcomma]
      rfl

/-- The slots that are read are the entries of the slots that the commas delimit. -/
theorem slotsOf_eq_entriesOf (hitems : ∀ c ∈ cs, c.head.isNamed ∨ c.isToken ",")
    (hsingle : ∀ slot ∈ delimited cs, slot.length ≤ 1) :
    slotsOf true cs = entriesOf (delimited cs) := by
  induction cs with
  | nil => rfl
  | cons c cs ih =>
    have hitems' : ∀ d ∈ cs, d.head.isNamed ∨ d.isToken "," := fun d hd =>
      hitems d (List.mem_cons_of_mem _ hd)
    rcases hitems c List.mem_cons_self with hnamed | hcomma
    · obtain ⟨slot, slots, hsplit⟩ := List.exists_cons_of_ne_nil (@delimited_ne_nil cs)
      rw [delimited_named hnamed hsplit] at hsingle ⊢
      obtain rfl : slot = [] := by
        have hslot := hsingle _ List.mem_cons_self
        rw [List.length_cons] at hslot
        exact List.eq_nil_of_length_eq_zero (by omega)
      have hsingle' : ∀ slot ∈ delimited cs, slot.length ≤ 1 := by
        rw [hsplit]
        intro slot hslot
        rcases List.mem_cons.1 hslot with rfl | hslot
        · exact Nat.zero_le _
        · exact hsingle slot (List.mem_cons_of_mem _ hslot)
      rw [slotsOf_named hnamed, slotsOf_false hitems' hsplit, ih hitems' hsingle', hsplit,
        entriesOf_singleton_cons]
    · rw [delimited_comma hcomma] at hsingle ⊢
      rw [slotsOf_comma hcomma, entriesOf_cons delimited_ne_nil,
        ih hitems' fun slot hslot => hsingle slot (List.mem_cons_of_mem _ hslot)]
      rfl

theorem Brackets.slots_eq (h : n.Brackets body) : n.slots = entriesOf (delimited body) := by
  obtain ⟨opening, closing, hparts, hopening, hclosing⟩ := h.parts
  rw [Cst.slots, hparts, slotsOf_bracket hopening (by decide),
    slotsOf_append_bracket hclosing (by decide), slotsOf_eq_entriesOf h.items h.single]

end Cst

/-! ## Elements -/

/-- What an array is converted to in a role, given its elements. -/
def Role.arrayShape {α : Type} : Role → List (Option α) → Shape α
  | .expression, es => .arrayExpression es
  | _, es => .arrayPattern es

/-- The elements that a list between brackets yields by the rule of ECMAScript for elisions: one for each
slot that a comma ends, and one for the last slot if that is not empty. An empty slot is a hole. -/
structure Elided {α : Type} (f : Cst → Outcome α) (body : List Cst) (es : List (Option α)) : Prop where
  length : es.length = body.countP (·.isToken ",") + ((Cst.delimited body).getLastD []).length
  hole (i : Nat) : i < es.length → (es[i]? = some none ↔ (Cst.delimited body)[i]? = some [])
  element (i : Nat) (e : α) : es[i]? = some (some e) →
    ∃ c, (Cst.delimited body)[i]? = some [c] ∧ (f c).result = .ok e

namespace Convert

variable {μ : Type} {ctx : Context μ} {f : Converter μ} {role : Role} {n : Cst} {body : List Cst}
  {t : Tree μ} {es : List (Option (Tree μ))}

/-- Every element comes from the slot in its place. -/
theorem exists_slot (h : n.Brackets body) (hes : (elements f role n).result = .ok es) {i : Nat}
    (hi : i < es.length) : ∃ slot, (Cst.delimited body)[i]? = some slot ∧
    Option.Rel (fun c e => (f role c).result = .ok e) slot.head? es[i] := by
  have hentries := (Outcome.result_mapM_eq_ok.1 hes).imp fun _ _ => Outcome.result_onSome_eq_ok.1
  rw [h.slots_eq] at hentries
  have hi' : i < (entriesOf (Cst.delimited body)).length := hentries.length_eq ▸ hi
  have hslot := getElem?_entriesOf h.single hi'
  rw [List.getElem?_eq_getElem hi'] at hslot
  obtain ⟨slot, hslot, hhead⟩ := Option.map_eq_some_iff.1 hslot.symm
  refine ⟨slot, hslot, ?_⟩
  rw [hhead]
  exact (List.forall₂_iff_get.1 hentries).2 i hi' hi

/-- The elements of an array keep to the rule for elisions. -/
theorem elements_elided (h : n.Brackets body) (hes : (elements f role n).result = .ok es) :
    Elided (f role) body es := by
  constructor
  case length =>
    have hentries := (Outcome.result_mapM_eq_ok.1 hes).length_eq
    have hlength := length_entriesOf (@Cst.delimited_ne_nil body)
    rw [h.slots_eq] at hentries
    rw [Cst.length_delimited] at hlength
    omega
  case hole =>
    intro i hi
    obtain ⟨slot, hslot, hrel⟩ := exists_slot h hes hi
    rw [List.getElem?_eq_getElem hi, hslot, Option.some.injEq, Option.some.injEq]
    generalize es[i] = o at hrel
    cases slot with
    | nil =>
      cases hrel
      exact iff_of_true rfl rfl
    | cons c slot =>
      cases hrel
      exact iff_of_false nofun nofun
  case element =>
    intro i e he
    obtain ⟨hi, hget⟩ := List.getElem?_eq_some_iff.1 he
    obtain ⟨slot, hslot, hrel⟩ := exists_slot h hes hi
    rw [hget] at hrel
    have hsingle := h.single slot (List.mem_of_getElem? hslot)
    match slot, hrel, hsingle with
    | [c], .some hc, _ => exact ⟨c, hslot, hc⟩

/-- The roles in which an array is read as a list of elements. -/
def arrayRoles : List Role := [.expression, .binding, .target]

/-- An array is read from its elements, or it is unexpected where a role does not take its kind. -/
theorem rule_array (hkind : n.kind = .array ∨ n.kind = .arrayPattern) (hrole : role ∈ arrayRoles) :
    rule ctx f role n = (ctx.node n <| role.arrayShape ·) <$> elements f role n ∨
    rule ctx f role n = ctx.unexpected n := by
  rcases List.mem_cons.1 hrole with rfl | hrole
  case inl =>
    rw [rule, expression]
    rcases hkind with hk | hk
    · rw [hk]
      exact .inl rfl
    · rw [literal, hk]
      exact .inr rfl
  rcases List.mem_cons.1 hrole with rfl | hrole
  case inl =>
    rw [rule, binding]
    rcases hkind with hk | hk
    · rw [hk]
      exact .inr rfl
    · rw [hk]
      exact .inl (Functor.map_map ..)
  case inr =>
    obtain rfl := List.mem_singleton.1 hrole
    rw [rule, target_eq]
    rcases hkind with hk | hk
    · rw [hk]
      exact .inl rfl
    · rw [hk]
      exact .inl rfl

/-- **Holes of arrays are kept in place.** An array with an element at most in each slot, read as an
expression, as a pattern that is declared or as one that is assigned to, yields a node whose elements
keep to the rule for elisions. -/
theorem array_elided (hkind : n.kind = .array ∨ n.kind = .arrayPattern) (hrole : role ∈ arrayRoles)
    (h : n.Brackets body) (ht : (convert ctx role n).result = .ok t) :
    ∃ es, t.shape = role.arrayShape es ∧ Elided (convert ctx role) body es := by
  rw [convert_eq] at ht
  rcases rule_array hkind hrole with hrule | hrule
  · rw [hrule] at ht
    obtain ⟨es, hes, rfl⟩ := Outcome.result_map_eq_ok.1 ht
    exact ⟨es, rfl, elements_elided h hes⟩
  · rw [hrule] at ht
    exact absurd ht Context.result_unexpected_ne

/-- An array with holes at its start and in the middle, and with a comment and a comma at its end. -/
def holedText : Source := .ofString "[,a,,b/**/,]"

/-- What stands between the brackets of `holedText`, without the comment. -/
def holedBody : List Cst := [
  .node { label := ",", start := 1, stop := 2 } [],
  .node { label := "identifier", isNamed := true, start := 2, stop := 3 } [],
  .node { label := ",", start := 3, stop := 4 } [],
  .node { label := ",", start := 4, stop := 5 } [],
  .node { label := "identifier", isNamed := true, start := 5, stop := 6 } [],
  .node { label := ",", start := 10, stop := 11 } []]

/-- The tree of the array over `holedText`. -/
def holedArray : Cst :=
  .node { label := "array", isNamed := true, start := 0, stop := 12 } <|
    .node { label := "[", start := 0, stop := 1 } [] ::
      (holedBody.take 5 ++
        [.node { label := "comment", isNamed := true, isExtra := true, start := 6, stop := 10 } []] ++
        holedBody.drop 5 ++ [.node { label := "]", start := 11, stop := 12 } []])

theorem holedArray_elided : holedArray.Brackets holedBody ∧
    ∃ t es, (convert (Program.context holedText {}) .expression holedArray).result = .ok t ∧
      t.shape = .arrayExpression es ∧
      Elided (convert (Program.context holedText {}) .expression) holedBody es ∧
      es.length = 4 ∧ es[0]? = some none ∧ es[2]? = some none := by
  have hbrackets : holedArray.Brackets holedBody := {
    parts := ⟨_, _, rfl, rfl, rfl⟩
    items := by decide
    single := by decide }
  obtain ⟨t, ht⟩ : ∃ t, (convert (Program.context holedText {}) .expression holedArray).result = .ok t :=
    ⟨_, rfl⟩
  obtain ⟨es, hshape, hes⟩ := array_elided (.inl (by decide)) (by decide) hbrackets ht
  have hlength : es.length = 4 := hes.length.trans (by decide)
  refine ⟨hbrackets, t, es, ht, hshape, hes, hlength, ?_, ?_⟩
  · exact (hes.hole 0 (by omega)).2 (by rfl)
  · exact (hes.hole 2 (by omega)).2 (by rfl)

end Convert

end Estree
