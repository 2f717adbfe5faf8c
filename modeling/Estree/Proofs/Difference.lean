import Estree.Proofs.Json

/-!
# What a comparison with a reference reports

A path leads from a value to a part of it (`Json.at?`). The differences between a tree and a
reference are the mismatches on the paths that both have (`Json.diff_reports`): each is reported
once, in the order of the walk (`Step.Before`), with the two values that stand there. A key that one
side alone has is on no common path, so nothing is reported exactly if the two are structurally equal
once each is left with the keys of the other (`Json.diff_eq_nil_iff`).
-/

namespace Estree

/-- The order in which a walk goes through the parts of a value: members by their keys, items by their
indices, and the length of an array after its items. -/
inductive Step.Before : Step → Step → Prop
  | key {k l : String} : k < l → Before (.key k) (.key l)
  | index {i j : Nat} : i < j → Before (.index i) (.index j)
  | length {i : Nat} : Before (.index i) .length

theorem Step.Before.irrefl (step : Step) : ¬ step.Before step := by
  intro h
  cases h with
  | key h => exact lt_irrefl _ h
  | index h => exact lt_irrefl _ h

namespace Difference

/-- One difference is reported before another: the paths stand in lexicographic order. -/
def Before (d e : Difference) : Prop := List.Lex Step.Before d.path e.path

theorem Before.under {d e : Difference} (h : d.Before e) (step : Step) :
    (d.under step).Before (e.under step) := .cons h

theorem Before.path_ne {d e : Difference} (h : d.Before e) : d.path ≠ e.path := by
  intro heq
  rw [Before, heq] at h
  exact List.lex_irrefl Step.Before.irrefl _ h

/-- The text of a path is `Program`, followed by a point and a component for each step. -/
theorem pathText_eq (d : Difference) :
    d.pathText = d.path.foldl (fun text step => text ++ "." ++ step.text) "Program" := by
  suffices h : ∀ (path : List Step) (text : String),
      String.intercalate "." (text :: path.map Step.text) =
        path.foldl (fun text step => text ++ "." ++ step.text) text from h d.path "Program"
  intro path
  induction path with
  | nil => exact fun text => String.intercalate_singleton
  | cons step path ih =>
    intro text
    rw [List.map_cons, String.intercalate_cons_cons, ← String.intercalate_cons_append, ih]
    rfl

end Difference

namespace Json

/-! ## Paths -/

/-- The part of a value that a step leads to. -/
def part? : Step → Json → Option Json
  | .key name, object members => lookup name members
  | .index i, array items => items[i]?
  | _, _ => none

theorem part?_eq_some {step : Step} {a c : Json} : part? step a = some c ↔
    (∃ name members, step = .key name ∧ a = object members ∧ lookup name members = some c) ∨
    (∃ i items, step = .index i ∧ a = array items ∧ items[i]? = some c) := by
  constructor
  · intro h
    unfold part? at h
    split at h
    · exact .inl ⟨_, _, rfl, rfl, h⟩
    · exact .inr ⟨_, _, rfl, rfl, h⟩
    · cases h
  · rintro (⟨name, members, rfl, rfl, h⟩ | ⟨i, items, rfl, rfl, h⟩)
    · exact h
    · exact h

/-- What holds of a value if it holds of its parts holds of every value. -/
theorem part_induction {P : Json → Prop}
    (part : ∀ j, (∀ step c, part? step j = some c → P c) → P j) (j : Json) : P j := by
  induction j using induction with
  | array items ih =>
    refine part _ fun step c hc => ?_
    obtain ⟨_, _, -, ⟨⟩, -⟩ | ⟨i, _, -, ⟨⟩, hi⟩ := part?_eq_some.1 hc
    exact ih c (List.mem_of_getElem? hi)
  | object members ih =>
    refine part _ fun step c hc => ?_
    obtain ⟨name, _, -, ⟨⟩, hname⟩ | ⟨_, _, -, ⟨⟩, -⟩ := part?_eq_some.1 hc
    exact ih _ (mem_of_lookup hname)
  | _ => exact part _ fun step c hc => by cases step <;> cases hc

theorem Keyed.part {step : Step} {j c : Json} (h : Keyed j) (hc : part? step j = some c) :
    Keyed c := by
  obtain ⟨name, members, -, rfl, hname⟩ | ⟨i, items, -, rfl, hi⟩ := part?_eq_some.1 hc
  · cases h with | object _ hmembers
    exact hmembers _ (mem_of_lookup hname)
  · cases h with | array hitems
    exact hitems _ (List.mem_of_getElem? hi)

/-- What stands at the end of a path. -/
def at? : List Step → Json → Option Json
  | [], j => some j
  | step :: path, j => (part? step j).bind (at? path)

/-- A step does not lead to a position. -/
def Plain (step : Step) : Prop := ∀ name, step = .key name → isPositionKey name = false

/-- A path on which nothing is a position leads to `x` in one tree and to `y` in another. -/
structure Leads (path : List Step) (expected actual x y : Json) : Prop where
  plain : ∀ step ∈ path, Plain step
  expected : expected.at? path = some x
  actual : actual.at? path = some y

/-- What is to be reported of two values that stand at the end of a path: values that are not equal,
unless both are objects or both are arrays, and lengths of arrays that are not equal. -/
inductive Mismatch (path : List Step) : Json → Json → Difference → Prop
  | value {x y : Json} : (∀ xs ys, x = object xs → y = object ys → False) →
    (∀ as bs, x = array as → y = array bs → False) → ¬ Agree x y → Mismatch path x y ⟨path, x, y⟩
  | length {as bs : List Json} : as.length ≠ bs.length →
    Mismatch path (array as) (array bs) ⟨path ++ [.length], nat as.length, nat bs.length⟩

/-- A difference is a mismatch on a path that two trees have. -/
def Reports (expected actual : Json) (d : Difference) : Prop :=
  ∃ path x y, Leads path expected actual x y ∧ Mismatch path x y d

/-- What is to be reported of two values, where `R` tells it of the parts that a step leads to: a
mismatch of the values themselves, or what is to be reported of a part of both. -/
def ByParts (R : Json → Json → Difference → Prop) (a b : Json) (d : Difference) : Prop :=
  Mismatch [] a b d ∨ ∃ step c e f, Plain step ∧ part? step a = some c ∧ part? step b = some e ∧
    R c e f ∧ d = f.under step

section

variable {R : Json → Json → Difference → Prop} {a b x y : Json} {as bs : List Json}
  {xs ys : List (String × Json)} {d : Difference} {step : Step} {path : List Step}

theorem leads_cons : Leads (step :: path) a b x y ↔ Plain step ∧
    ∃ c e, part? step a = some c ∧ part? step b = some e ∧ Leads path c e x y := by
  constructor
  · rintro ⟨hplain, ha, hb⟩
    obtain ⟨c, hc, hx⟩ := Option.bind_eq_some_iff.1 ha
    obtain ⟨e, he, hy⟩ := Option.bind_eq_some_iff.1 hb
    obtain ⟨hstep, hpath⟩ := List.forall_mem_cons.1 hplain
    exact ⟨hstep, c, e, hc, he, hpath, hx, hy⟩
  · rintro ⟨hstep, c, e, hc, he, hpath, hx, hy⟩
    exact ⟨List.forall_mem_cons.2 ⟨hstep, hpath⟩, Option.bind_eq_some_iff.2 ⟨c, hc, hx⟩,
      Option.bind_eq_some_iff.2 ⟨e, he, hy⟩⟩

theorem mismatch_cons :
    Mismatch (step :: path) x y d ↔ ∃ e, Mismatch path x y e ∧ d = e.under step := by
  constructor
  · rintro (⟨hobject, harray, hne⟩ | hlen)
    · exact ⟨_, .value hobject harray hne, rfl⟩
    · exact ⟨_, .length hlen, rfl⟩
  · rintro ⟨e, ⟨hobject, harray, hne⟩ | hlen, rfl⟩
    · exact .value hobject harray hne
    · exact .length hlen

/-- A report is a mismatch at the end of the empty path, or one further down. -/
theorem reports_iff : Reports a b d ↔ ByParts Reports a b d := by
  constructor
  · rintro ⟨path, x, y, hleads, hmismatch⟩
    cases path with
    | nil =>
      obtain ⟨-, ha, hb⟩ := hleads
      cases ha
      cases hb
      exact .inl hmismatch
    | cons step path =>
      obtain ⟨hstep, c, e, hc, he, hleads⟩ := leads_cons.1 hleads
      obtain ⟨f, hf, rfl⟩ := mismatch_cons.1 hmismatch
      exact .inr ⟨step, c, e, f, hstep, hc, he, ⟨path, x, y, hleads, hf⟩, rfl⟩
  · rintro (hmismatch | ⟨step, c, e, f, hstep, hc, he, ⟨path, x, y, hleads, hf⟩, rfl⟩)
    · exact ⟨[], a, b, ⟨nofun, rfl, rfl⟩, hmismatch⟩
    · exact ⟨step :: path, x, y, leads_cons.2 ⟨hstep, c, e, hc, he, hleads⟩,
        mismatch_cons.2 ⟨f, hf, rfl⟩⟩

theorem byParts_object : ByParts R (object xs) (object ys) d ↔ ∃ key v w e,
    isPositionKey key = false ∧ lookup key xs = some v ∧ lookup key ys = some w ∧ R v w e ∧
      d = e.under (.key key) := by
  constructor
  · rintro (h | ⟨step, c, e, f, hstep, hc, he, hf, rfl⟩)
    · cases h with
      | value hobject => exact (hobject xs ys rfl rfl).elim
    · cases step with
      | key name => exact ⟨name, c, e, f, hstep name rfl, hc, he, hf, rfl⟩
      | _ => cases hc
  · rintro ⟨key, v, w, e, hkey, hv, hw, he, rfl⟩
    exact .inr ⟨.key key, v, w, e, fun name h => Step.key.inj h ▸ hkey, hv, hw, he, rfl⟩

theorem byParts_array : ByParts R (array as) (array bs) d ↔
    (∃ i x y e, as[i]? = some x ∧ bs[i]? = some y ∧ R x y e ∧ d = e.under (.index i)) ∨
      as.length ≠ bs.length ∧ d = ⟨[.length], nat as.length, nat bs.length⟩ := by
  constructor
  · rintro (h | ⟨step, c, e, f, -, hc, he, hf, rfl⟩)
    · cases h with
      | value _ harray => exact (harray as bs rfl rfl).elim
      | length hlen => exact .inr ⟨hlen, rfl⟩
    · cases step with
      | index i => exact .inl ⟨i, c, e, f, hc, he, hf, rfl⟩
      | _ => cases hc
  · rintro (⟨i, x, y, e, hx, hy, he, rfl⟩ | ⟨hlen, rfl⟩)
    · exact .inr ⟨.index i, x, y, e, nofun, hx, hy, he, rfl⟩
    · exact .inl (.length hlen)

end

/-! ## What the walk lists -/

section

variable {a b : Json} {as bs : List Json} {xs ys : List (String × Json)} {d : Difference}

section

variable {R : Json → Json → Difference → Prop}
  (hobject : ∀ xs ys, a = object xs → b = object ys → False)
  (harray : ∀ as bs, a = array as → b = array bs → False)
include hobject harray

/-- Values that are not containers of one sort have no parts in common. -/
theorem byParts_leaf : ByParts R a b d ↔ ¬ Agree a b ∧ d = ⟨[], a, b⟩ := by
  constructor
  · rintro (h | ⟨step, c, e, f, -, hc, he, -, rfl⟩)
    · cases h with
      | value _ _ hne => exact ⟨hne, rfl⟩
      | length => exact (harray _ _ rfl rfl).elim
    · cases step <;> cases a <;> cases b <;> simp_all [part?]
  · rintro ⟨hne, rfl⟩
    exact .inl (.value hobject harray hne)

theorem sameLeaf_iff : sameLeaf a b ↔ Agree a b := by
  constructor
  · intro h
    cases a <;> cases b <;> simp_all [sameLeaf, Agree.null]
  · intro h
    cases h with
    | null => rfl
    | bool => exact beq_self_eq_true _
    | number h => exact h
    | string => exact beq_self_eq_true _
    | array => exact (harray _ _ rfl rfl).elim
    | object => exact (hobject _ _ rfl rfl).elim

theorem mem_leaf_differences : d ∈ differences .reference a b ↔ ByParts R a b d := by
  rw [byParts_leaf hobject harray, ← sameLeaf_iff hobject harray,
    differences.eq_3 _ _ _ hobject harray]
  cases sameLeaf a b <;> simp

theorem pairwise_leaf_differences : (differences .reference a b).Pairwise Difference.Before := by
  rw [differences.eq_3 _ _ _ hobject harray]
  split
  · exact .nil
  · exact List.pairwise_singleton ..

end

theorem mem_itemDifferences {rule : KeyRule} (n : Nat) : d ∈ itemDifferences rule n as bs ↔
    ∃ i a b e, as[i]? = some a ∧ bs[i]? = some b ∧ e ∈ differences rule a b ∧
      d = e.under (.index (n + i)) := by
  induction as generalizing bs n with
  | nil => simp [itemDifferences]
  | cons a as ih =>
    cases bs with
    | nil => simp [itemDifferences]
    | cons b bs =>
      rw [itemDifferences, List.mem_append, List.mem_map, ih]
      constructor
      · rintro (⟨e, he, rfl⟩ | ⟨i, x, y, e, hx, hy, he, rfl⟩)
        · exact ⟨0, a, b, e, rfl, rfl, he, rfl⟩
        · exact ⟨i + 1, x, y, e, hx, hy, he, by rw [Nat.add_assoc, Nat.add_comm 1]⟩
      · rintro ⟨i, x, y, e, hx, hy, he, rfl⟩
        cases i with
        | zero =>
          cases hx
          cases hy
          exact .inl ⟨e, he, rfl⟩
        | succ i => exact .inr ⟨i, x, y, e, hx, hy, he, by rw [Nat.add_assoc, Nat.add_comm 1]⟩

theorem mem_memberDifferences : d ∈ memberDifferences .reference xs ys ↔
    ∃ key v w e, (key, v) ∈ xs ∧ isPositionKey key = false ∧ lookup key ys = some w ∧
      e ∈ differences .reference v w ∧ d = e.under (.key key) := by
  induction xs with
  | nil => simp [memberDifferences]
  | cons m xs ih =>
    obtain ⟨k, u⟩ := m
    rw [memberDifferences, List.mem_append, ih]
    constructor
    · rintro (h | ⟨key, v, w, e, hmem, h⟩)
      · cases hk : isPositionKey k with
        | true => simp [hk] at h
        | false =>
          cases hw : lookup k ys with
          | none => simp [hk, hw] at h
          | some w =>
            obtain ⟨e, he, rfl⟩ : ∃ e ∈ differences .reference u w, e.under (.key k) = d := by
              simpa [hk, hw] using h
            exact ⟨k, u, w, e, .head _, hk, hw, he, rfl⟩
      · exact ⟨key, v, w, e, .tail _ hmem, h⟩
    · rintro ⟨key, v, w, e, hmem, hk, hw, he, rfl⟩
      cases hmem with
      | head => exact .inl (by simpa [hk, hw] using ⟨e, he, rfl⟩)
      | tail _ hmem => exact .inr ⟨key, v, w, e, hmem, hk, hw, he, rfl⟩

theorem mem_lengthDifference : d ∈ lengthDifference as bs ↔
    as.length ≠ bs.length ∧ d = ⟨[.length], nat as.length, nat bs.length⟩ := by
  unfold lengthDifference
  split <;> simp_all

/-- The walk lists what is to be reported of two values, where it lists what is of their parts. -/
theorem mem_differences (ha : Keyed a) : d ∈ differences .reference a b ↔
    ByParts (fun c e f => f ∈ differences .reference c e) a b d := by
  cases a with
  | object xs =>
    cases b with
    | object ys =>
      cases ha with | object hx
      rw [byParts_object, differences, if_neg KeyRule.noConfusion, List.append_nil,
        mem_memberDifferences]
      constructor
      · rintro ⟨key, v, w, e, hv, hkey, h⟩
        exact ⟨key, v, w, e, hkey, lookup_of_mem hx hv, h⟩
      · rintro ⟨key, v, w, e, hkey, hv, h⟩
        exact ⟨key, v, w, e, mem_of_lookup hv, hkey, h⟩
    | _ => exact mem_leaf_differences (by simp) (by simp)
  | array as =>
    cases b with
    | array bs =>
      simp only [byParts_array, differences, List.mem_append, mem_itemDifferences,
        mem_lengthDifference, Nat.zero_add]
    | _ => exact mem_leaf_differences (by simp) (by simp)
  | _ => exact mem_leaf_differences (by simp) (by simp)

/-- The walk lists the mismatches on the paths that both values have. -/
theorem mem_differences_iff_reports (ha : Keyed a) :
    d ∈ differences .reference a b ↔ Reports a b d := by
  induction a using part_induction generalizing b d with
  | part a ih =>
    rw [mem_differences ha, reports_iff]
    constructor
    · rintro (h | ⟨step, c, e, f, hstep, hc, he, hf, rfl⟩)
      · exact .inl h
      · exact .inr ⟨step, c, e, f, hstep, hc, he, (ih step c hc (ha.part hc)).1 hf, rfl⟩
    · rintro (h | ⟨step, c, e, f, hstep, hc, he, hf, rfl⟩)
      · exact .inl h
      · exact .inr ⟨step, c, e, f, hstep, hc, he, (ih step c hc (ha.part hc)).2 hf, rfl⟩

/-! ## The order of the walk -/

theorem pairwise_memberDifferences (hxs : InOrder xs)
    (h : ∀ m ∈ xs, ∀ b, (differences .reference m.2 b).Pairwise Difference.Before) :
    (memberDifferences .reference xs ys).Pairwise Difference.Before := by
  induction xs with
  | nil => exact .nil
  | cons m xs ih =>
    obtain ⟨k, v⟩ := m
    obtain ⟨hk, hxs⟩ := List.pairwise_cons.1 hxs
    obtain ⟨hv, hrest⟩ := List.forall_mem_cons.1 h
    rw [memberDifferences]
    cases isPositionKey k with
    | true => exact ih hxs hrest
    | false =>
      cases lookup k ys with
      | none => exact ih hxs hrest
      | some w =>
        refine List.pairwise_append.2 ⟨.map _ (fun _ _ h => h.under _) (hv w), ih hxs hrest, ?_⟩
        -- A difference below the first member begins with a key before those of the others.
        intro d hd e he
        obtain ⟨d, -, rfl⟩ := List.mem_map.1 hd
        obtain ⟨l, u, -, e, hmem, -, -, -, rfl⟩ := mem_memberDifferences.1 he
        exact .rel (.key (hk _ hmem))

theorem pairwise_itemDifferences (n : Nat)
    (h : ∀ a ∈ as, ∀ b, (differences .reference a b).Pairwise Difference.Before) :
    (itemDifferences .reference n as bs).Pairwise Difference.Before := by
  induction as generalizing bs n with
  | nil => exact .nil
  | cons a as ih =>
    obtain ⟨ha, hrest⟩ := List.forall_mem_cons.1 h
    cases bs with
    | nil => exact .nil
    | cons b bs =>
      rw [itemDifferences]
      refine List.pairwise_append.2 ⟨.map _ (fun _ _ h => h.under _) (ha b), ih (n + 1) hrest, ?_⟩
      intro d hd e he
      obtain ⟨d, -, rfl⟩ := List.mem_map.1 hd
      obtain ⟨i, -, -, e, -, -, -, rfl⟩ := (mem_itemDifferences (n + 1)).1 he
      exact .rel (.index (by omega))

/-- The walk lists differences in the order of their paths, if members stand in the order of their
keys. -/
theorem pairwise_differences (ha : Ordered a) :
    (differences .reference a b).Pairwise Difference.Before := by
  induction ha generalizing b with
  | array _ ih =>
    cases b with
    | array bs =>
      rw [differences, lengthDifference]
      refine List.pairwise_append.2 ⟨pairwise_itemDifferences 0 fun a ha b => ih a ha, ?_, ?_⟩
      · split
        · exact .nil
        · exact List.pairwise_singleton ..
      · intro d hd e he
        obtain ⟨i, -, -, d, -, -, -, rfl⟩ := (mem_itemDifferences 0).1 hd
        obtain ⟨-, rfl⟩ := mem_lengthDifference.1 he
        exact .rel .length
    | _ => exact pairwise_leaf_differences (by simp) (by simp)
  | object hmembers _ ih =>
    cases b with
    | object ys =>
      rw [differences, if_neg KeyRule.noConfusion, List.append_nil]
      exact pairwise_memberDifferences hmembers fun m hm b => ih m hm
    | _ => exact pairwise_leaf_differences (by simp) (by simp)
  | _ => exact pairwise_leaf_differences (by simp) (by simp)

end

/-- **A comparison with a reference reports the mismatches on common paths**, and nothing else: each
one once, in the order of the paths, with the values that stand there. The text of a path is
`Program`, followed by a point and a component for each step. -/
theorem diff_reports {expected actual : Json} (h : expected.Ordered) :
    (diff expected actual).Pairwise Difference.Before ∧
    ((diff expected actual).map (·.path)).Nodup ∧
    (∀ d, d ∈ diff expected actual ↔ Reports expected actual d) ∧
    ∀ d ∈ diff expected actual,
      d.pathText = d.path.foldl (fun text step => text ++ "." ++ step.text) "Program" := by
  have hordered : (diff expected actual).Pairwise Difference.Before := pairwise_differences h
  refine ⟨hordered, ?_, fun d => mem_differences_iff_reports h.keyed, fun d _ => d.pathText_eq⟩
  exact List.pairwise_map.2 (hordered.imp fun hbefore => hbefore.path_ne)

/-- A program with one identifier and an empty statement, and a field of another parser. -/
def referenceProgram : Json :=
  .object [("body", .array [.object [("loc", .null), ("name", .string "x")], .object []]),
    ("start", .nat 0), ("type", .string "Program")]

/-- A program with another identifier, and with its location. -/
def renamedProgram : Json :=
  .object [("body", .array [.object [("name", .string "y")]]), ("loc", .string "1:0"),
    ("type", .string "Program")]

theorem referenceProgram_diff_reports :
    referenceProgram.Ordered ∧
      diff referenceProgram renamedProgram =
        [⟨[.key "body", .index 0, .key "name"], .string "x", .string "y"⟩,
          ⟨[.key "body", .length], .nat 2, .nat 1⟩] ∧
      Reports referenceProgram renamedProgram ⟨[.key "body", .length], .nat 2, .nat 1⟩ := by
  have hordered : referenceProgram.Ordered := ordered_sorted referenceProgram
  obtain ⟨-, -, hreports, -⟩ := @diff_reports _ renamedProgram hordered
  have hdiff : diff referenceProgram renamedProgram =
        [⟨[.key "body", .index 0, .key "name"], .string "x", .string "y"⟩,
          ⟨[.key "body", .length], .nat 2, .nat 1⟩] := rfl
  exact ⟨hordered, hdiff, (hreports _).1 (hdiff ▸ .tail _ (.head _))⟩

/-! ## What a comparison with a reference forgives -/

mutual

/-- The value without the keys that the other one lacks, in all objects that stand at one place in
both. -/
def sharedWith : Json → Json → Json
  | object members, object others => object (membersSharedWith members others)
  | array items, array others => array (itemsSharedWith items others)
  | j, _ => j

/-- The members under keys that others have too. -/
def membersSharedWith : List (String × Json) → List (String × Json) → List (String × Json)
  | [], _ => []
  | (key, value) :: rest, others =>
    match lookup key others with
    | some other => (key, value.sharedWith other) :: membersSharedWith rest others
    | none => membersSharedWith rest others

/-- `sharedWith` on every item, as far as both reach. -/
def itemsSharedWith : List Json → List Json → List Json
  | item :: rest, other :: others => item.sharedWith other :: itemsSharedWith rest others
  | items, _ => items

end

section

variable {a b : Json} {as bs : List Json} {xs ys : List (String × Json)}

theorem lookup_membersSharedWith (key : String) : lookup key (membersSharedWith xs ys) =
    (lookup key xs).bind fun v => (lookup key ys).map v.sharedWith := by
  induction xs with
  | nil => rfl
  | cons m xs ih =>
    obtain ⟨k, v⟩ := m
    rw [membersSharedWith, lookup_cons]
    by_cases hk : k = key
    · subst hk
      rw [if_pos rfl]
      cases hlookup : lookup k ys with
      | some w => rw [lookup_cons, if_pos rfl, Option.bind_some, Option.map_some]
      | none => rw [ih, hlookup]; simp
    · rw [if_neg hk, ← ih]
      cases lookup k ys with
      | some w => rw [lookup_cons, if_neg hk]
      | none => rfl

theorem keys_membersSharedWith :
    List.Sublist ((membersSharedWith xs ys).map (·.1)) (xs.map (·.1)) := by
  induction xs with
  | nil => exact .slnil
  | cons m xs ih =>
    obtain ⟨k, v⟩ := m
    rw [membersSharedWith]
    cases lookup k ys with
    | some w => exact ih.cons_cons k
    | none => exact ih.cons k

theorem forall₂_itemsSharedWith {R : Json → Json → Prop} :
    List.Forall₂ R (itemsSharedWith as bs) (itemsSharedWith bs as) ↔
      List.Forall₂ (fun a b => R (a.sharedWith b) (b.sharedWith a)) as bs := by
  induction as generalizing bs with
  | nil => cases bs <;> simp [itemsSharedWith]
  | cons a as ih => cases bs <;> simp [itemsSharedWith, ih]

/-- Two values that are not containers of one sort keep what they have. -/
theorem sharedWith_leaf (hobject : ∀ xs ys, a = object xs → b = object ys → False)
    (harray : ∀ as bs, a = array as → b = array bs → False) : a.sharedWith b = a :=
  sharedWith.eq_3 _ _ hobject harray

theorem leaf_eq_nil_iff {r s : KeyRule}
    (hobject : ∀ xs ys, a = object xs → b = object ys → False)
    (harray : ∀ as bs, a = array as → b = array bs → False) :
    differences r a b = [] ↔ differences s (a.sharedWith b) (b.sharedWith a) = [] := by
  rw [sharedWith_leaf hobject harray,
    sharedWith_leaf (fun xs ys hx hy => hobject ys xs hy hx) fun as bs ha hb => harray bs as hb ha,
    differences.eq_3 _ _ _ hobject harray, differences.eq_3 _ _ _ hobject harray]

/-- The walk against a reference finds nothing in two objects exactly if it finds nothing under the
keys that both have. -/
theorem reference_objects_eq_nil (hx : (xs.map (·.1)).Nodup) :
    differences .reference (object xs) (object ys) = [] ↔ ∀ key, isPositionKey key = false →
      ∀ v ∈ lookup key xs, ∀ w ∈ lookup key ys, differences .reference v w = [] := by
  rw [differences, if_neg KeyRule.noConfusion, List.append_nil]
  constructor
  · intro h key hkey v hv w hw
    refine List.eq_nil_iff_forall_not_mem.2 fun d hd => ?_
    have hmem := mem_memberDifferences.2 ⟨key, v, w, d, mem_of_lookup hv, hkey, hw, hd, rfl⟩
    rw [h] at hmem
    cases hmem
  · intro h
    refine List.eq_nil_iff_forall_not_mem.2 fun d hd => ?_
    obtain ⟨key, v, w, e, hv, hkey, hw, he, -⟩ := mem_memberDifferences.1 hd
    rw [h key hkey v (lookup_of_mem hx hv) w hw] at he
    cases he

/-- The walk against a reference finds nothing exactly if the strict one finds nothing once each side
is left with the keys of the other. -/
theorem reference_eq_nil_iff (ha : Keyed a) (hb : Keyed b) : differences .reference a b = [] ↔
    differences .strict (a.sharedWith b) (b.sharedWith a) = [] := by
  induction a using induction generalizing b with
  | array as ih =>
    cases b with
    | array bs =>
      cases ha with | array ha
      cases hb with | array hb
      rw [sharedWith, sharedWith, arrays_eq_nil, arrays_eq_nil, forall₂_itemsSharedWith]
      simpa using forall₂_map_iff (f := id) fun a ha' b hb' => ih a ha' (ha a ha') (hb b hb')
    | _ => exact leaf_eq_nil_iff nofun nofun
  | object xs ih =>
    cases b with
    | object ys =>
      cases ha with | object hx hxs
      cases hb with | object hy hys
      rw [reference_objects_eq_nil hx, sharedWith, sharedWith,
        objects_eq_nil (hx.sublist keys_membersSharedWith)]
      refine forall₂_congr fun key hkey => ?_
      rw [lookup_membersSharedWith, lookup_membersSharedWith]
      cases hlx : lookup key xs with
      | none => cases lookup key ys <;> simp
      | some v =>
        cases hly : lookup key ys with
        | none => simp
        | some w =>
          have hmem := mem_of_lookup hlx
          simpa using ih _ hmem (hxs _ hmem) (hys _ (mem_of_lookup hly))
    | _ => exact leaf_eq_nil_iff nofun nofun
  | _ => exact leaf_eq_nil_iff nofun nofun

end

/-- **A comparison with a reference forgives the keys that one side alone has**: it finds nothing
exactly if the two are structurally equal once each is left with the keys of the other. -/
theorem diff_eq_nil_iff {expected actual : Json} (he : Keyed expected) (ha : Keyed actual) :
    diff expected actual = [] ↔
      (expected.sharedWith actual).structureEq (actual.sharedWith expected) := by
  rw [diff, reference_eq_nil_iff he ha, structureEq, List.isEmpty_iff]

/-- An identifier with the fields of one parser. -/
def referenceIdentifier : Json := .object [("name", .string "x"), ("start", .nat 0)]

/-- An identifier with the fields of another parser. -/
def rawIdentifier : Json := .object [("name", .string "x"), ("raw", .string "x")]

theorem rawIdentifier_diff_eq_nil :
    referenceIdentifier.Keyed ∧ rawIdentifier.Keyed ∧ diff referenceIdentifier rawIdentifier = [] ∧
      ¬ (referenceIdentifier.sharedWith rawIdentifier).structureEq rawIdentifier := by
  have hreference : referenceIdentifier.Keyed := (ordered_sorted referenceIdentifier).keyed
  have hraw : rawIdentifier.Keyed := (ordered_sorted rawIdentifier).keyed
  exact ⟨hreference, hraw, (diff_eq_nil_iff hreference hraw).2 (by decide +kernel),
    by decide +kernel⟩

/-- A key that the reference lacks is not reported: after deleting the keys of the reference that the
other tree lacks, the two are still not structurally equal. -/
theorem unknownKey_forgiven :
    diff (object []) (object [("a", nat 1)]) = [] ∧
      ¬ ((object []).sharedWith (object [("a", nat 1)])).structureEq (object [("a", nat 1)]) :=
  ⟨rfl, by decide +kernel⟩

end Json

end Estree
