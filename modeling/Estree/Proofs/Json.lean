import Estree.Json.Difference
import Mathlib.Data.List.Forall2
import Mathlib.Data.List.Nodup
import Mathlib.Data.String.Basic

/-!
# Agreement of JSON values

Two JSON values agree (`Json.Agree`) if they are the same value: numbers as doubles, arrays item by
item, and objects key by key, whatever the order of their members. `Json.withoutPositions` deletes
the members that hold positions. The strict walk over two values finds no difference exactly if they
agree without positions (`Json.structureEq_iff`), where each object has a key once (`Json.Keyed`), as
it has after sorting (`Json.keyed_sorted`).
-/

namespace Estree.Json

/-! ## Induction over values -/

section

variable {P : Json → Prop}

/-- What holds of a container if it holds of what it contains holds of every value. -/
theorem induction (null : P null) (bool : ∀ b, P (bool b)) (number : ∀ n, P (number n))
    (string : ∀ s, P (string s)) (array : ∀ items, (∀ item ∈ items, P item) → P (array items))
    (object : ∀ members, (∀ m ∈ members, P m.2) → P (object members)) (j : Json) : P j :=
  @Json.rec P (fun items => ∀ item ∈ items, P item) (fun members => ∀ m ∈ members, P m.2)
    (fun m => P m.2) null bool number string array object nofun
    (fun _ _ hitem hrest => List.forall_mem_cons.2 ⟨hitem, hrest⟩) nofun
    (fun _ _ hm hrest => List.forall_mem_cons.2 ⟨hm, hrest⟩) (fun _ _ hvalue => hvalue) j

end

/-! ## Members by key -/

section

variable {key k : String} {v : Json} {members : List (String × Json)}

@[simp] theorem lookup_nil : lookup key [] = none := rfl

theorem lookup_cons :
    lookup key ((k, v) :: members) = if k = key then some v else lookup key members := by
  unfold lookup
  rw [List.find?_cons]
  split <;> simp_all

theorem mem_of_lookup (h : lookup key members = some v) : (key, v) ∈ members := by
  obtain ⟨⟨k, w⟩, hfind, rfl⟩ := Option.map_eq_some_iff.1 h
  have hkey := List.find?_some hfind
  obtain rfl : k = key := beq_iff_eq.1 hkey
  exact List.mem_of_find?_eq_some hfind

theorem isSome_lookup_of_mem (h : (key, v) ∈ members) : (lookup key members).isSome := by
  rw [lookup, Option.isSome_map, List.find?_isSome]
  exact ⟨_, h, beq_self_eq_true key⟩

/-- Where each key stands once, every member is found. -/
theorem lookup_of_mem (hkeys : (members.map (·.1)).Nodup) (h : (key, v) ∈ members) :
    lookup key members = some v := by
  obtain ⟨w, hw⟩ := Option.isSome_iff_exists.1 (isSome_lookup_of_mem h)
  have heq := List.inj_on_of_nodup_map hkeys h (mem_of_lookup hw) rfl
  rw [hw, (Prod.mk.inj heq).2]

end

/-- Each object of a value has a key once. -/
inductive Keyed : Json → Prop
  | null : Keyed null
  | bool {b : Bool} : Keyed (bool b)
  | number {n : Number} : Keyed (number n)
  | string {s : String} : Keyed (string s)
  | array {items : List Json} : (∀ item ∈ items, Keyed item) → Keyed (array items)
  | object {members : List (String × Json)} : (members.map (·.1)).Nodup →
    (∀ m ∈ members, Keyed m.2) → Keyed (object members)

/-- Equality of values: of numbers as doubles, of arrays item by item, of objects key by key. -/
inductive Agree : Json → Json → Prop
  | null : Agree null null
  | bool {b : Bool} : Agree (bool b) (bool b)
  | number {a b : Number} : a.toDouble.same b.toDouble → Agree (number a) (number b)
  | string {s : String} : Agree (string s) (string s)
  | array {as bs : List Json} : List.Forall₂ Agree as bs → Agree (array as) (array bs)
  | object {as bs : List (String × Json)} :
    (∀ key, Option.Rel Agree (lookup key as) (lookup key bs)) → Agree (object as) (object bs)

mutual

/-- The value without the positions in it: no object has a member of a position key. -/
def withoutPositions : Json → Json
  | null => null
  | bool b => bool b
  | number n => number n
  | string s => string s
  | array items => array (itemsWithoutPositions items)
  | object members => object (membersWithoutPositions members)

/-- `withoutPositions` on every item. -/
def itemsWithoutPositions : List Json → List Json
  | [] => []
  | item :: rest => item.withoutPositions :: itemsWithoutPositions rest

/-- `withoutPositions` on the members whose keys hold no positions. -/
def membersWithoutPositions : List (String × Json) → List (String × Json)
  | [] => []
  | (key, value) :: rest =>
    if isPositionKey key then membersWithoutPositions rest
    else (key, value.withoutPositions) :: membersWithoutPositions rest

end

theorem itemsWithoutPositions_eq (items : List Json) :
    itemsWithoutPositions items = items.map withoutPositions := by
  induction items with
  | nil => rfl
  | cons item rest ih => rw [itemsWithoutPositions, ih, List.map_cons]

theorem lookup_membersWithoutPositions (key : String) (members : List (String × Json)) :
    lookup key (membersWithoutPositions members) =
      if isPositionKey key then none else (lookup key members).map withoutPositions := by
  induction members with
  | nil => simp [membersWithoutPositions]
  | cons m rest ih =>
    obtain ⟨k, v⟩ := m
    rw [membersWithoutPositions, lookup_cons]
    by_cases hk : k = key
    · subst hk
      split
      case isTrue hp => rw [ih, if_pos hp]
      case isFalse hp => rw [lookup_cons, if_pos rfl, if_pos rfl, Option.map_some]
    · rw [if_neg hk]
      split
      · exact ih
      · rw [lookup_cons, if_neg hk, ih]

/-! ## Relations on lists and options -/

section

variable {α β : Type} {R : α → α → Prop} {S : β → β → Prop} {f : α → β}

/-- Whether lists are related item by item depends on the relation between their items only. -/
theorem forall₂_map_iff {as bs : List α} (h : ∀ a ∈ as, ∀ b ∈ bs, (R a b ↔ S (f a) (f b))) :
    List.Forall₂ R as bs ↔ List.Forall₂ S (as.map f) (bs.map f) := by
  rw [List.forall₂_map_left_iff, List.forall₂_map_right_iff, List.forall₂_iff_zip,
    List.forall₂_iff_zip]
  refine and_congr_right fun _ => forall₂_congr fun a b => forall_congr' fun hmem => ?_
  exact h a (List.of_mem_zip hmem).1 b (List.of_mem_zip hmem).2

/-- Lists with equal images are related item by item through their images. -/
theorem forall₂_of_map_eq {as bs : List α} (h : as.map f = bs.map f) :
    List.Forall₂ (fun a b => a ∈ as ∧ f a = f b) as bs := by
  induction as generalizing bs with
  | nil =>
    obtain rfl := List.map_eq_nil_iff.1 h.symm
    exact .nil
  | cons a as ih =>
    obtain ⟨b, bs, rfl, hb, hbs⟩ := List.map_eq_cons_iff.1 h.symm
    exact .cons ⟨.head _, hb.symm⟩ ((ih hbs.symm).imp fun _ _ h => h.imp_left (.tail _))

theorem rel_map_iff {a b : Option α} (h : ∀ x ∈ a, ∀ y ∈ b, (R x y ↔ S (f x) (f y))) :
    Option.Rel R a b ↔ Option.Rel S (a.map f) (b.map f) := by
  cases a with
  | none => cases b <;> simp
  | some x =>
    cases b with
    | none => simp
    | some y => simpa using h x rfl y rfl

end

/-! ## Agreement, constructor by constructor -/

section

variable {m n : Number} {s t : String} {a b : Bool} {as bs : List Json}
  {xs ys : List (String × Json)}

@[simp] theorem agree_bool : Agree (bool a) (bool b) ↔ a = b :=
  ⟨fun | .bool => rfl, fun h => h ▸ .bool⟩

@[simp] theorem agree_number : Agree (number m) (number n) ↔ m.same n :=
  ⟨fun | .number h => h, .number⟩

@[simp] theorem agree_string : Agree (string s) (string t) ↔ s = t :=
  ⟨fun | .string => rfl, fun h => h ▸ .string⟩

@[simp] theorem agree_array : Agree (array as) (array bs) ↔ List.Forall₂ Agree as bs :=
  ⟨fun | .array h => h, .array⟩

@[simp] theorem agree_object :
    Agree (object xs) (object ys) ↔ ∀ key, Option.Rel Agree (lookup key xs) (lookup key ys) :=
  ⟨fun | .object h => h, .object⟩

end

/-- Two values that are not containers of one sort agree exactly if they are the same leaf. -/
theorem sameLeaf_iff_agree {a b : Json} (hobject : ∀ xs ys, a = object xs → b = object ys → False)
    (harray : ∀ as bs, a = array as → b = array bs → False) :
    sameLeaf a b ↔ Agree a.withoutPositions b.withoutPositions := by
  constructor
  · intro h
    cases a <;> cases b <;> simp_all [sameLeaf, withoutPositions, Agree.null]
  · intro h
    cases a <;> cases b <;> first
      | exact (hobject _ _ rfl rfl).elim
      | exact (harray _ _ rfl rfl).elim
      | (cases h <;> simp_all [sameLeaf, Number.same])

/-! ## The strict walk -/

theorem lengthDifference_eq_nil {as bs : List Json} :
    lengthDifference as bs = [] ↔ as.length = bs.length := by
  unfold lengthDifference
  split <;> simp_all

theorem itemDifferences_eq_nil {rule : KeyRule} {as bs : List Json} (n : Nat)
    (hlen : as.length = bs.length) :
    itemDifferences rule n as bs = [] ↔ List.Forall₂ (differences rule · · = []) as bs := by
  induction as generalizing bs n with
  | nil =>
    obtain rfl := List.length_eq_zero_iff.1 hlen.symm
    simp [itemDifferences]
  | cons a as ih =>
    obtain ⟨b, bs, rfl⟩ := List.exists_cons_of_length_eq_add_one hlen.symm
    rw [itemDifferences, List.append_eq_nil_iff, List.map_eq_nil_iff, List.forall₂_cons,
      ih (n + 1) (Nat.succ.inj hlen)]

theorem memberDifferences_eq_nil {xs ys : List (String × Json)} :
    memberDifferences .strict xs ys = [] ↔ ∀ m ∈ xs, isPositionKey m.1 = false →
      ∃ b, lookup m.1 ys = some b ∧ differences .strict m.2 b = [] := by
  induction xs with
  | nil => simp [memberDifferences]
  | cons m xs ih =>
    obtain ⟨key, a⟩ := m
    rw [memberDifferences, List.append_eq_nil_iff, ih, List.forall_mem_cons]
    refine and_congr_left fun _ => ?_
    cases hp : isPositionKey key
    · cases lookup key ys <;> simp
    · simp

theorem extraMembers_eq_nil {xs ys : List (String × Json)} :
    extraMembers xs ys = [] ↔ ∀ m ∈ ys, isPositionKey m.1 = false → (lookup m.1 xs).isSome := by
  rw [extraMembers, List.filterMap_eq_nil_iff]
  refine forall₂_congr fun m _ => ?_
  cases hp : isPositionKey m.1 <;> cases hx : lookup m.1 xs <;> simp [hp, hx]

/-- Between two values that are not containers of one sort, the walk compares leaves. -/
theorem leaves_eq_nil {a b : Json} (hobject : ∀ xs ys, a = object xs → b = object ys → False)
    (harray : ∀ as bs, a = array as → b = array bs → False) :
    differences .strict a b = [] ↔ Agree a.withoutPositions b.withoutPositions := by
  rw [← sameLeaf_iff_agree hobject harray, differences.eq_3 _ _ _ hobject harray]
  split <;> simp_all

theorem arrays_eq_nil {rule : KeyRule} {as bs : List Json} :
    differences rule (array as) (array bs) = [] ↔
      List.Forall₂ (differences rule · · = []) as bs := by
  rw [differences, List.append_eq_nil_iff, lengthDifference_eq_nil]
  constructor
  · rintro ⟨hitems, hlen⟩
    exact (itemDifferences_eq_nil 0 hlen).1 hitems
  · intro h
    exact ⟨(itemDifferences_eq_nil 0 h.length_eq).2 h, h.length_eq⟩

/-- The two loops over the keys of two objects find nothing exactly if at every key that holds no
position both objects have a member, and the two do not differ, or neither has. -/
theorem objects_eq_nil {xs ys : List (String × Json)} (hx : (xs.map (·.1)).Nodup) :
    differences .strict (object xs) (object ys) = [] ↔ ∀ key, isPositionKey key = false →
      Option.Rel (differences .strict · · = []) (lookup key xs) (lookup key ys) := by
  rw [differences, if_pos rfl, List.append_eq_nil_iff, memberDifferences_eq_nil,
    extraMembers_eq_nil]
  constructor
  · rintro ⟨hmembers, hextra⟩ key hkey
    cases hlx : lookup key xs with
    | some a =>
      obtain ⟨b, hly, hd⟩ := hmembers _ (mem_of_lookup hlx) hkey
      rw [hly]
      exact .some hd
    | none =>
      cases hly : lookup key ys with
      | none => exact .none
      | some b =>
        have hsome := hextra _ (mem_of_lookup hly) hkey
        rw [hlx] at hsome
        cases hsome
  · intro h
    constructor
    · rintro ⟨key, a⟩ hmem hkey
      have hrel := h key hkey
      rw [lookup_of_mem hx hmem] at hrel
      generalize hly : lookup key ys = found at hrel
      cases hrel with
      | some hd => exact ⟨_, rfl, hd⟩
    · rintro ⟨key, b⟩ hmem hkey
      have hrel := h key hkey
      obtain ⟨c, hly⟩ := Option.isSome_iff_exists.1 (isSome_lookup_of_mem hmem)
      rw [hly] at hrel
      generalize hlx : lookup key xs = found at hrel
      cases hrel with
      | some => rfl

/-- The strict walk finds nothing exactly if the values agree without positions. -/
theorem differences_eq_nil {a b : Json} (ha : Keyed a) (hb : Keyed b) :
    differences .strict a b = [] ↔ Agree a.withoutPositions b.withoutPositions := by
  induction a using induction generalizing b with
  | array as ih =>
    cases b with
    | array bs =>
      cases ha with | array ha
      cases hb with | array hb
      rw [arrays_eq_nil, withoutPositions, withoutPositions, agree_array, itemsWithoutPositions_eq,
        itemsWithoutPositions_eq]
      exact forall₂_map_iff fun a ha' b hb' => ih a ha' (ha a ha') (hb b hb')
    | _ => exact leaves_eq_nil nofun nofun
  | object xs ih =>
    cases b with
    | object ys =>
      cases ha with | object hx hxs
      cases hb with | object hy hys
      rw [objects_eq_nil hx, withoutPositions, withoutPositions, agree_object]
      refine forall_congr' fun key => ?_
      rw [lookup_membersWithoutPositions, lookup_membersWithoutPositions]
      cases isPositionKey key with
      | true => simp
      | false =>
        simp only [forall_const, Bool.false_eq_true, if_false]
        refine rel_map_iff fun a hlx b hly => ?_
        have hax := mem_of_lookup hlx
        exact ih _ hax (hxs _ hax) (hys _ (mem_of_lookup hly))
    | _ => exact leaves_eq_nil nofun nofun
  | _ => exact leaves_eq_nil nofun nofun

/-- **Structural equality is agreement without positions.** Two values are structurally equal
exactly if they agree once the members `loc` and `range` are deleted from every object in them. -/
theorem structureEq_iff_agree {a b : Json} (ha : Keyed a) (hb : Keyed b) :
    a.structureEq b ↔ Agree a.withoutPositions b.withoutPositions := by
  rw [structureEq, List.isEmpty_iff, differences_eq_nil ha hb]

/-- A literal with its range, and its value as an integer. -/
def integerLiteral : Json :=
  .object [("type", .string "Literal"), ("value", .nat 1), ("range", .array [.nat 0, .nat 1])]

/-- A literal with its location, and its value as a double. -/
def doubleLiteral : Json :=
  .object [("loc", .null), ("value", .number (.double (.finite false Double.one))),
    ("type", .string "Literal")]

/-- One literal agrees with the other: the keys stand in another order, and the positions are gone. -/
theorem integerLiteral_agree_doubleLiteral :
    Keyed integerLiteral ∧ Keyed doubleLiteral ∧
      Agree integerLiteral.withoutPositions doubleLiteral.withoutPositions := by
  have hinteger : Keyed integerLiteral := by
    refine .object (by decide) ?_
    simp [Keyed.string, Keyed.number, Json.nat, Keyed.array]
  have hdouble : Keyed doubleLiteral := by
    refine .object (by decide) ?_
    simp [Keyed.string, Keyed.number, Keyed.null]
  exact ⟨hinteger, hdouble, (structureEq_iff_agree hinteger hdouble).1 (by decide +kernel)⟩

/-! ## Sorting -/

theorem sortedItems_eq (items : List Json) : sortedItems items = items.map sorted := by
  induction items with
  | nil => rfl
  | cons item rest ih => rw [sortedItems, ih, List.map_cons]

/-- The keys of a list of members stand in strict order. -/
def InOrder (members : List (String × Json)) : Prop := members.Pairwise (·.1 < ·.1)

theorem InOrder.nodup {members : List (String × Json)} (h : InOrder members) :
    (members.map (·.1)).Nodup :=
  List.pairwise_map.2 (h.imp fun hlt => ne_of_lt hlt)

section

variable {key : String} {value : Json} {members rest done : List (String × Json)}

theorem mem_insertMember {m : String × Json} (h : m ∈ insertMember key value members) :
    m = (key, value) ∨ m ∈ members := by
  induction members with
  | nil => exact .inl (List.mem_singleton.1 h)
  | cons head rest ih =>
    obtain ⟨k, v⟩ := head
    unfold insertMember at h
    split at h
    · exact List.mem_cons.1 h
    · split at h
      · exact (List.mem_cons.1 h).imp_right (.tail _)
      · rcases List.mem_cons.1 h with rfl | h
        · exact .inr (.head _)
        · exact (ih h).imp_right (.tail _)

theorem InOrder.insertMember (h : InOrder members) : InOrder (insertMember key value members) := by
  induction members with
  | nil => exact List.pairwise_singleton ..
  | cons head rest ih =>
    obtain ⟨k, v⟩ := head
    obtain ⟨hhead, hrest⟩ := List.pairwise_cons.1 h
    unfold Json.insertMember
    split
    case isTrue hlt =>
      refine List.pairwise_cons.2 ⟨fun m hm => ?_, h⟩
      rcases List.mem_cons.1 hm with rfl | hm
      · exact hlt
      · exact lt_trans hlt (hhead m hm)
    case isFalse hge =>
      split
      case isTrue heq => exact List.pairwise_cons.2 ⟨heq ▸ hhead, hrest⟩
      case isFalse hne =>
        refine List.pairwise_cons.2 ⟨fun m hm => ?_, ih hrest⟩
        rcases mem_insertMember hm with rfl | hm
        · exact lt_of_le_of_ne (not_lt.1 hge) (Ne.symm hne)
        · exact hhead m hm

theorem lookup_insertMember (k : String) :
    lookup k (insertMember key value members) = if key = k then some value else lookup k members := by
  induction members with
  | nil => rw [insertMember, lookup_cons]
  | cons head rest ih =>
    obtain ⟨l, v⟩ := head
    unfold insertMember
    split
    · rw [lookup_cons]
    · split
      case isTrue heq =>
        subst heq
        rw [lookup_cons, lookup_cons]
        split <;> rfl
      case isFalse hne =>
        rw [lookup_cons, lookup_cons, ih]
        by_cases hl : l = k
        · rw [if_pos hl, if_neg (hl ▸ hne), if_pos hl]
        · rw [if_neg hl, if_neg hl]

theorem InOrder.sortedMembers (h : InOrder done) : InOrder (sortedMembers members done) := by
  induction members generalizing done with
  | nil => exact h
  | cons m rest ih => exact ih h.insertMember

theorem mem_sortedMembers {m : String × Json} (h : m ∈ sortedMembers members done) :
    (∃ n ∈ members, m.2 = n.2.sorted) ∨ m ∈ done := by
  induction members generalizing done with
  | nil => exact .inr h
  | cons n rest ih =>
    rcases ih h with ⟨l, hl, heq⟩ | h
    · exact .inl ⟨l, .tail _ hl, heq⟩
    · exact (mem_insertMember h).imp_left fun heq => ⟨n, .head _, congrArg Prod.snd heq⟩

/-- Sorting keeps what is found under a key, where each key stands once. -/
theorem lookup_sortedMembers (hkeys : (members.map (·.1)).Nodup) (k : String) :
    lookup k (sortedMembers members done) =
      ((lookup k members).map sorted).or (lookup k done) := by
  induction members generalizing done with
  | nil => rfl
  | cons m rest ih =>
    obtain ⟨l, v⟩ := m
    obtain ⟨hl, hrest⟩ := List.nodup_cons.1 hkeys
    rw [sortedMembers, ih hrest, lookup_insertMember, lookup_cons]
    by_cases hk : l = k
    · subst hk
      have hnone : lookup l rest = none := by
        by_contra h
        obtain ⟨w, hw⟩ := Option.ne_none_iff_exists'.1 h
        exact hl (List.mem_map_of_mem (f := (·.1)) (mem_of_lookup hw))
      rw [hnone, if_pos rfl, if_pos rfl]
      rfl
    · rw [if_neg hk, if_neg hk]

end

/-- The members of each object of a value stand in the order of their keys. -/
inductive Ordered : Json → Prop
  | null : Ordered null
  | bool {b : Bool} : Ordered (bool b)
  | number {n : Number} : Ordered (number n)
  | string {s : String} : Ordered (string s)
  | array {items : List Json} : (∀ item ∈ items, Ordered item) → Ordered (array items)
  | object {members : List (String × Json)} : InOrder members → (∀ m ∈ members, Ordered m.2) →
    Ordered (object members)

theorem Ordered.keyed {j : Json} (h : Ordered j) : Keyed j := by
  induction h with
  | null => exact .null
  | bool => exact .bool
  | number => exact .number
  | string => exact .string
  | array _ ih => exact .array ih
  | object hmembers _ ih => exact .object hmembers.nodup ih

theorem ordered_sorted (j : Json) : j.sorted.Ordered := by
  induction j using induction with
  | array items ih =>
    rw [sorted, sortedItems_eq]
    refine .array fun item h => ?_
    obtain ⟨i, hi, rfl⟩ := List.mem_map.1 h
    exact ih i hi
  | object members ih =>
    refine .object (InOrder.sortedMembers .nil) fun m hm => ?_
    rcases mem_sortedMembers hm with ⟨n, hn, heq⟩ | h
    · exact heq ▸ ih n hn
    · cases h
  | null => exact .null
  | bool b => exact .bool
  | number n => exact .number
  | string s => exact .string

/-- Sorting leaves each key of an object once. -/
theorem keyed_sorted (j : Json) : j.sorted.Keyed := j.ordered_sorted.keyed

theorem agree_sorted {a b : Json} (ha : Keyed a) (hb : Keyed b) :
    Agree a.sorted.withoutPositions b.sorted.withoutPositions ↔
      Agree a.withoutPositions b.withoutPositions := by
  induction a using induction generalizing b with
  | array as ih =>
    cases b with
    | array bs =>
      cases ha with | array ha
      cases hb with | array hb
      simp only [sorted, sortedItems_eq, withoutPositions, itemsWithoutPositions_eq, agree_array,
        List.map_map]
      have hsorted := forall₂_map_iff (f := withoutPositions ∘ sorted) fun a ha' b hb' =>
        (ih a ha' (ha a ha') (hb b hb')).symm
      exact hsorted.symm.trans (forall₂_map_iff fun _ _ _ _ => Iff.rfl)
    | _ => exact ⟨nofun, nofun⟩
  | object xs ih =>
    cases b with
    | object ys =>
      cases ha with | object hx hxs
      cases hb with | object hy hys
      simp only [sorted, withoutPositions, agree_object, lookup_membersWithoutPositions,
        lookup_sortedMembers hx, lookup_sortedMembers hy, lookup_nil, Option.or_none,
        Option.map_map]
      refine forall_congr' fun key => ?_
      cases isPositionKey key with
      | true => simp
      | false =>
        simp only [Bool.false_eq_true, if_false]
        have hsorted : ∀ a ∈ lookup key xs, ∀ b ∈ lookup key ys,
            (Agree a.withoutPositions b.withoutPositions ↔
              Agree a.sorted.withoutPositions b.sorted.withoutPositions) := fun a hlx b hly =>
          have hmem := mem_of_lookup hlx
          (ih _ hmem (hxs _ hmem) (hys _ (mem_of_lookup hly))).symm
        exact (rel_map_iff (f := withoutPositions ∘ sorted) hsorted).symm.trans
          (rel_map_iff fun _ _ _ _ => Iff.rfl)
    | _ => exact ⟨nofun, nofun⟩
  | _ => cases b <;> first | exact Iff.rfl | exact ⟨nofun, nofun⟩

/-- Sorting does not change whether two values are structurally equal. -/
theorem structureEq_sorted {a b : Json} (ha : Keyed a) (hb : Keyed b) :
    a.sorted.structureEq b.sorted ↔ Agree a.withoutPositions b.withoutPositions := by
  rw [structureEq, List.isEmpty_iff, differences_eq_nil (keyed_sorted a) (keyed_sorted b),
    agree_sorted ha hb]

end Estree.Json
