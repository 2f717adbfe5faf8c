import Estree.Ast.Encode
import Estree.Proofs.Json
import Estree.Proofs.Tree

/-!
# The JSON of a node

An object of a node has each key once (`Node.keyed_toJson`), and apart from positions the JSON of a
node depends on nothing but the node without its labels. So nodes that differ in their labels alone
are structurally equal (`Node.structureEq_of_unlabelled`).
-/

namespace Estree

/-! ## Numbers -/

namespace Double

theorem same_self {d : Double} (h : d ≠ nan) : d.same d := by
  cases d with
  | finite negative units => simp [same]
  | infinite negative => simp [same]
  | nan => exact absurd rfl h

theorem ofUnits_ne_nan (negative : Bool) (num den : Nat) : ofUnits negative num den ≠ nan := by
  unfold ofUnits
  dsimp only
  split <;> nofun

theorem ofInt_ne_nan (n : Int) : ofInt n ≠ nan := by
  cases n with
  | ofNat n => rw [ofInt, ofRatio]; exact ofUnits_ne_nan _ _ _
  | negSucc n => rw [ofInt, ofRatio]; exact ofUnits_ne_nan _ _ _

end Double

namespace Json

/-! ## Agreement apart from positions -/

/-- Two values agree apart from the positions in them. -/
abbrev Like (a b : Json) : Prop := Agree a.withoutPositions b.withoutPositions

theorem like_array {as bs : List Json} : Like (array as) (array bs) ↔ List.Forall₂ Like as bs := by
  simp only [Like, withoutPositions, itemsWithoutPositions_eq, agree_array]
  rw [List.forall₂_map_left_iff, List.forall₂_map_right_iff]

/-- Two objects agree apart from positions exactly if what they have under each other key does. -/
theorem like_object {xs ys : List (String × Json)} : Like (object xs) (object ys) ↔
    ∀ key, isPositionKey key = false → Option.Rel Like (lookup key xs) (lookup key ys) := by
  simp only [Like, withoutPositions, agree_object, lookup_membersWithoutPositions]
  refine forall_congr' fun key => ?_
  cases isPositionKey key with
  | true => simp
  | false =>
    simp only [Bool.false_eq_true, if_false, forall_const]
    exact (rel_map_iff (f := withoutPositions) fun _ _ _ _ => Iff.rfl).symm

/-- Two members have one key, and agreeing values unless the key is one of a position. -/
structure LikeMember (m n : String × Json) : Prop where
  key : m.1 = n.1
  value : isPositionKey m.1 = false → Like m.2 n.2

theorem rel_lookup {xs ys : List (String × Json)} (h : List.Forall₂ LikeMember xs ys)
    {key : String} (hkey : isPositionKey key = false) :
    Option.Rel Like (lookup key xs) (lookup key ys) := by
  induction h with
  | nil => exact .none
  | @cons m n xs ys hm _ ih =>
    rw [lookup_cons (k := m.1), lookup_cons (k := n.1), ← hm.key]
    split
    case isTrue heq => exact .some (hm.value (heq ▸ hkey))
    case isFalse => exact ih

theorem Like.object {xs ys : List (String × Json)} (h : List.Forall₂ LikeMember xs ys) :
    Like (object xs) (object ys) :=
  like_object.2 fun _ hkey => rel_lookup h hkey

end Json

open Json

/-! ## What fields hold -/

theorem RegexLiteral.keyed_toJson (r : RegexLiteral) : r.toJson.Keyed :=
  .object (by simp) (by simp [Keyed.string])

theorem RegexLiteral.like_toJson (r : RegexLiteral) : Like r.toJson r.toJson :=
  .object <| List.forall₂_same.2 fun m hm => ⟨rfl, fun _ => by
    rcases List.mem_pair.1 hm with rfl | rfl <;> exact .string⟩

theorem TemplateValue.keyed_toJson (v : TemplateValue) : v.toJson.Keyed :=
  .object (by simp) (by cases v.cooked <;> simp [Keyed.string, Keyed.null])

theorem TemplateValue.like_toJson (v : TemplateValue) : Like v.toJson v.toJson :=
  .object <| List.forall₂_same.2 fun m hm => ⟨rfl, fun _ => by
    rcases List.mem_pair.1 hm with rfl | rfl
    · cases v.cooked <;> constructor
    · exact .string⟩

namespace LiteralValue

/-- A number is written as a number that equals itself, or as nothing. -/
theorem numberToJson_cases (d : Double) :
    numberToJson d = .null ∨ ∃ n : Number, numberToJson d = .number n ∧ n.same n := by
  unfold numberToJson
  cases d with
  | finite negative units =>
    split
    case h_1 n _ =>
      split
      · exact .inr ⟨_, rfl, Double.same_self (Double.ofInt_ne_nan n)⟩
      · exact .inr ⟨_, rfl, Double.same_self nofun⟩
    case h_2 => exact .inr ⟨_, rfl, Double.same_self nofun⟩
  | infinite negative => exact .inl rfl
  | nan => exact .inl rfl

theorem keyed_toJson (v : LiteralValue) : v.toJson.Keyed := by
  cases v with
  | null => exact .null
  | boolean b => exact .bool
  | number d =>
    show (numberToJson d).Keyed
    rcases numberToJson_cases d with h | ⟨n, h, -⟩ <;> rw [h]
    · exact .null
    · exact .number
  | string s => exact .string
  | regExp compiled =>
    cases compiled with
    | none => exact .null
    | some r => exact .object .nil nofun

theorem like_toJson (v : LiteralValue) : Like v.toJson v.toJson := by
  cases v with
  | null => exact .null
  | boolean b => exact .bool
  | number d =>
    show Like (numberToJson d) (numberToJson d)
    rcases numberToJson_cases d with h | ⟨n, h, hn⟩ <;> rw [h]
    · exact .null
    · exact .number hn
  | string s => exact .string
  | regExp compiled =>
    cases compiled with
    | none => exact .null
    | some r => exact .object .nil

end LiteralValue

namespace Shape

variable {α : Type}

/-- What a field holds as data is the JSON of a regular expression or of a part of a template. -/
theorem data_cases {s : Shape α} {name : String} {j : Json} (h : (name, .data j) ∈ s.fields) :
    (∃ r : RegexLiteral, j = r.toJson) ∨ ∃ v : TemplateValue, j = v.toJson := by
  cases s with
  | literal value raw regex =>
    cases regex with
    | none => simp [fields] at h
    | some r =>
      simp only [fields, Option.map_some, Option.toList_some, List.mem_append, List.mem_cons] at h
      simp at h
      exact .inl ⟨r, h.2⟩
  | templateElement value tail =>
    simp [fields] at h
    exact .inr ⟨value, h.2⟩
  | _ => simp [fields, FunctionShape.fields, ClassShape.fields] at h

/-- The keys of a node's object. -/
theorem keys_nodup (s : Shape α) : ("type" :: s.fields.map (·.1) ++ ["loc", "range"]).Nodup := by
  cases s with
  | literal value raw regex => cases regex <;> simp [fields]
  | _ => simp [fields, FunctionShape.fields, ClassShape.fields]

end Shape

namespace Field

/-- A field of JSON values, each with its keys once, is such a value. -/
theorem keyed_toJson {x : Field Json} (hdata : ∀ j, x = .data j → j.Keyed)
    (hchildren : ∀ j ∈ x.children, j.Keyed) : (x.toJson LiteralValue.toJson).Keyed := by
  cases x with
  | flag b => exact .bool
  | text s => exact .string
  | data j => exact hdata j rfl
  | value v => exact v.keyed_toJson
  | child a => exact hchildren a (List.mem_singleton_self a)
  | optional a =>
    cases a with
    | none => exact .null
    | some a => exact hchildren a (List.mem_singleton_self a)
  | list as => exact .array hchildren
  | slots as =>
    refine .array fun item hitem => ?_
    obtain ⟨a, ha, rfl⟩ := List.mem_map.1 hitem
    cases a with
    | none => exact .null
    | some a => exact hchildren a (List.mem_filterMap.2 ⟨some a, ha, rfl⟩)

variable {α β : Type} {f : α → β} {g : α → Json}

/-- Fields with equal images have agreeing values, if children with equal images have. -/
theorem like_toJson {x y : Field α} (h : x.map f = y.map f)
    (hdata : ∀ j, x = .data j → Like j j)
    (hchildren : ∀ a ∈ x.children, ∀ b, f a = f b → Like (g a) (g b)) :
    Like ((x.map g).toJson LiteralValue.toJson) ((y.map g).toJson LiteralValue.toJson) := by
  cases x <;> cases y <;> simp only [map, reduceCtorEq, Field.flag.injEq, Field.text.injEq,
    Field.data.injEq, Field.value.injEq, Field.child.injEq, Field.optional.injEq,
    Field.list.injEq, Field.slots.injEq] at h
  case flag => exact h ▸ .bool
  case text => exact h ▸ .string
  case data j _ => exact h ▸ hdata j rfl
  case value v _ => exact h ▸ v.like_toJson
  case child a b => exact hchildren a (List.mem_singleton_self a) b h
  case optional a b =>
    cases a <;> cases b <;> simp only [Option.map_some, Option.map_none, reduceCtorEq,
      Option.some.injEq] at h
    · exact .null
    · exact hchildren _ (List.mem_singleton_self _) _ h
  case list as bs =>
    refine like_array.2 (List.forall₂_map_left_iff.2 (List.forall₂_map_right_iff.2 ?_))
    exact (forall₂_of_map_eq h).imp fun a b ⟨ha, hab⟩ => hchildren a ha b hab
  case slots as bs =>
    simp only [map, toJson, List.map_map]
    refine like_array.2 (List.forall₂_map_left_iff.2 (List.forall₂_map_right_iff.2 ?_))
    refine (forall₂_of_map_eq h).imp fun a b ⟨ha, hab⟩ => ?_
    cases a <;> cases b <;> simp only [Option.map_some, Option.map_none, reduceCtorEq,
      Option.some.injEq] at hab
    · exact .null
    · exact hchildren _ (List.mem_filterMap.2 ⟨_, ha, rfl⟩) _ hab

end Field

/-! ## Nodes -/

namespace Node

theorem toJson_mk (s : Shape Node) (label : Label) : toJson (.mk s label) =
    encode LiteralValue.toJson (s.map toJson) label := Tree.fold_mk ..

theorem keyed_position (p : Position) : p.toJson.Keyed :=
  .object (by simp) (by simp [Json.nat, Keyed.number])

theorem keyed_location (l : Location) : l.toJson.Keyed :=
  .object (by simp) (by simp [keyed_position, Keyed.string])

theorem keyed_span (s : Span) : s.toJson.Keyed :=
  .array (by simp [Json.nat, Keyed.number])

/-- The objects in the JSON of a node have each key once. -/
theorem keyed_toJson (n : Node) : n.toJson.Keyed := by
  induction n using Tree.induction with
  | h s label ih =>
    rw [toJson_mk, encode]
    refine .object ?_ ?_
    · have hkeys := (s.map toJson).keys_nodup
      simpa [List.map_map, Function.comp_def] using hkeys
    · intro m hm
      simp only [List.cons_append, List.mem_cons, List.mem_append, List.mem_map, List.not_mem_nil,
        or_false] at hm
      rcases hm with rfl | ⟨⟨name, x⟩, hx, rfl⟩ | rfl | rfl
      · exact .string
      · refine Field.keyed_toJson (fun j hj => ?_) fun j hj => ?_
        · subst hj
          rcases Shape.data_cases hx with ⟨r, rfl⟩ | ⟨v, rfl⟩
          · exact r.keyed_toJson
          · exact v.keyed_toJson
        · have hmem : j ∈ (s.map toJson).children := List.mem_flatMap.2 ⟨_, hx, hj⟩
          rw [Shape.children_map] at hmem
          obtain ⟨c, hc, rfl⟩ := List.mem_map.1 hmem
          exact ih c hc
      · exact keyed_location _
      · exact keyed_span _

/-- A node without its labels. -/
def unlabelled (n : Node) : Tree Unit := n.map fun _ => ()

/-- Apart from positions, the JSON of a node is that of the node without its labels. -/
theorem like_toJson {n m : Node} (h : n.unlabelled = m.unlabelled) : Like n.toJson m.toJson := by
  induction n using Tree.induction generalizing m with
  | h s label ih =>
    obtain ⟨t, label'⟩ := m
    have hshape : s.map unlabelled = t.map unlabelled := by
      have h' := congrArg Tree.shape h
      rw [unlabelled, unlabelled, Tree.shape_map, Tree.shape_map] at h'
      exact h'
    have htype : s.typeName = t.typeName := by
      rw [← Shape.typeName_map unlabelled s, hshape, Shape.typeName_map]
    have hfields := congrArg Shape.fields hshape
    rw [Shape.fields_map, Shape.fields_map] at hfields
    rw [toJson_mk, toJson_mk, encode, encode, Shape.typeName_map, Shape.typeName_map, htype,
      Shape.fields_map, Shape.fields_map, List.map_map, List.map_map]
    refine .object (List.rel_append (.cons ⟨rfl, fun _ => .string⟩ ?_)
      (.cons ⟨rfl, nofun⟩ (.cons ⟨rfl, nofun⟩ .nil)))
    refine List.forall₂_map_left_iff.2 (List.forall₂_map_right_iff.2 ?_)
    refine (forall₂_of_map_eq hfields).imp fun ⟨name, x⟩ ⟨name', y⟩ ⟨hx, hxy⟩ => ?_
    obtain ⟨rfl, himage⟩ : name = name' ∧ x.map unlabelled = y.map unlabelled := Prod.mk.inj hxy
    refine ⟨rfl, fun _ => Field.like_toJson himage (fun j hj => ?_) fun a ha b hab => ?_⟩
    · subst hj
      rcases Shape.data_cases hx with ⟨r, rfl⟩ | ⟨v, rfl⟩
      · exact r.like_toJson
      · exact v.like_toJson
    · exact ih a (List.mem_flatMap.2 ⟨_, hx, ha⟩) hab

/-- Nodes that differ in their labels alone are structurally equal. -/
theorem structureEq_of_unlabelled {n m : Node} (h : n.unlabelled = m.unlabelled) :
    n.structureEq m :=
  (structureEq_sorted n.keyed_toJson m.keyed_toJson).2 (like_toJson h)

end Node

end Estree
