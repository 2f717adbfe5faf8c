import Estree.Proofs.Encode
import Estree.Proofs.Number

/-!
# What the JSON of a node tells

The essence of a node is its tree without labels, in which zero has no sign. Nodes of one essence
have one JSON, apart from positions, and the converse is true as well
(`Node.structureEq_iff_essence`): the type of a node tells its constructor (`Shape.ctorIdx_eq`), and
that the names and the sorts of its fields (`Shape.forall₂_fields`), so each field is told by what is
written under its name. Only a literal takes two fields at once, as `null` is written both for itself
and for a regular expression that does not compile (`LiteralValue.unsigned_eq_of_like`).
-/

namespace Estree

open Json

/-! ## Objects -/

namespace Json

variable {xs ys : List (String × Json)} {v w : Json} {key : String}

/-- Where keys stand once, members under one key agree. -/
theorem like_of_mem (h : Like (object xs) (object ys)) (hxs : (xs.map (·.1)).Nodup)
    (hys : (ys.map (·.1)).Nodup) (hkey : isPositionKey key = false) (hv : (key, v) ∈ xs)
    (hw : (key, w) ∈ ys) : Like v w := by
  have hrel := like_object.1 h key hkey
  rw [lookup_of_mem hxs hv, lookup_of_mem hys hw] at hrel
  cases hrel with
  | some h => exact h

theorem isSome_lookup_iff : (lookup key xs).isSome ↔ key ∈ xs.map (·.1) := by
  rw [lookup, Option.isSome_map, List.find?_isSome]
  simp

/-- The objects have the same keys, apart from those of positions. -/
theorem mem_keys_iff_of_like (h : Like (object xs) (object ys)) (hkey : isPositionKey key = false) :
    key ∈ xs.map (·.1) ↔ key ∈ ys.map (·.1) := by
  have hrel := like_object.1 h key hkey
  rw [← isSome_lookup_iff, ← isSome_lookup_iff]
  generalize lookup key xs = v at hrel ⊢
  generalize lookup key ys = w at hrel ⊢
  cases hrel <;> simp

end Json

/-! ## What fields hold -/

theorem RegexLiteral.eq_of_like {r s : RegexLiteral} (h : Like r.toJson s.toJson) : r = s := by
  have hpattern : Like (.string r.pattern) (.string s.pattern) :=
    like_of_mem h (by simp) (by simp) (by decide) (.head _) (.head _)
  have hflags : Like (.string r.flags) (.string s.flags) :=
    like_of_mem h (by simp) (by simp) (by decide) (.tail _ (.head _)) (.tail _ (.head _))
  obtain ⟨pattern, flags⟩ := r
  obtain rfl : pattern = s.pattern := agree_string.1 hpattern
  obtain rfl : flags = s.flags := agree_string.1 hflags
  rfl

theorem TemplateValue.eq_of_like {v w : TemplateValue} (h : Like v.toJson w.toJson) : v = w := by
  have hcooked : Like ((v.cooked.map Json.string).getD .null)
      ((w.cooked.map Json.string).getD .null) :=
    like_of_mem h (by simp) (by simp) (by decide) (.head _) (.head _)
  have hraw : Like (.string v.raw) (.string w.raw) :=
    like_of_mem h (by simp) (by simp) (by decide) (.tail _ (.head _)) (.tail _ (.head _))
  obtain ⟨cooked, raw⟩ := v
  obtain ⟨cooked', raw'⟩ := w
  obtain rfl : raw = raw' := agree_string.1 hraw
  cases cooked <;> cases cooked' <;> cases hcooked <;> rfl

/-- What fields hold as data is told apart by its JSON. -/
theorem Shape.data_eq_of_like {α : Type} {s t : Shape α} {name name' : String}
    {j k : Json} (hj : (name, .data j) ∈ s.fields) (hk : (name', .data k) ∈ t.fields)
    (h : Like j k) : j = k := by
  obtain ⟨r, rfl⟩ | ⟨v, rfl⟩ := data_cases hj <;> obtain ⟨r', rfl⟩ | ⟨v', rfl⟩ := data_cases hk
  · rw [RegexLiteral.eq_of_like h]
  · have hkeys := mem_keys_iff_of_like h (by decide : isPositionKey "pattern" = false)
    simp at hkeys
  · have hkeys := mem_keys_iff_of_like h (by decide : isPositionKey "pattern" = false)
    simp at hkeys
  · rw [TemplateValue.eq_of_like h]

namespace LiteralValue

/-- The value, without the sign of zero. -/
def unsigned : LiteralValue → LiteralValue
  | number d => number d.unsigned
  | v => v

/-- The values that a literal may have beside its field `regex`: it has that field exactly if its
value is a regular expression, and one that compiles has the pattern and the flags of the field.
Numbers are finite. -/
inductive Fits : LiteralValue → Option RegexLiteral → Prop
  | null : Fits null none
  | boolean {b : Bool} : Fits (boolean b) none
  | number {d : Double} : d.isFinite → Fits (number d) none
  | string {s : String} : Fits (string s) none
  | compiled {r : RegexLiteral} : Fits (regExp (some r)) (some r)
  | invalid {r : RegexLiteral} : Fits (regExp none) (some r)

/-- A finite number is written as a number that equals it. -/
theorem numberToJson_finite {d : Double} (hd : d.isFinite) :
    ∃ n : Number, numberToJson d = .number n ∧ n.toDouble.unsigned = d.unsigned := by
  unfold numberToJson
  split
  case h_1 n hn =>
    split
    case isTrue hle => exact ⟨.integer n, rfl, Double.unsigned_ofInt hn hle⟩
    case isFalse => exact ⟨.double d, rfl, rfl⟩
  case h_2 => exact ⟨.double d, if_pos hd, rfl⟩

theorem numberToJson_unsigned (d : Double) : numberToJson d.unsigned = numberToJson d := by
  unfold Double.unsigned
  split
  case h_1 negative => cases negative <;> simp [numberToJson, Double.toInt?]
  case h_2 => rfl

theorem toJson_number (d : Double) : (number d).toJson = numberToJson d := rfl

theorem toJson_unsigned (v : LiteralValue) : v.unsigned.toJson = v.toJson := by
  cases v with
  | number d => exact numberToJson_unsigned d
  | _ => rfl

theorem unsigned_eq_of_like_number {d e : Double} (hd : d.isFinite) (he : e.isFinite)
    (h : Like (numberToJson d) (numberToJson e)) : d.unsigned = e.unsigned := by
  obtain ⟨m, hm, hmd⟩ := numberToJson_finite hd
  obtain ⟨n, hn, hne⟩ := numberToJson_finite he
  have hfinite : m.toDouble.isFinite := by
    rw [← Double.isFinite_unsigned, hmd, Double.isFinite_unsigned, hd]
  rw [hm, hn] at h
  rw [← hmd, ← hne]
  exact (Double.same_iff hfinite).1 (agree_number.1 h)

/-- The value of a literal is told by its JSON, beside its regular expression. -/
theorem unsigned_eq_of_like {v w : LiteralValue} {regex : Option RegexLiteral} (hv : v.Fits regex)
    (hw : w.Fits regex) (h : Like v.toJson w.toJson) : v.unsigned = w.unsigned := by
  cases hv with
  | number hd =>
    cases hw with
    | number he => exact congrArg number (unsigned_eq_of_like_number hd he h)
    | _ =>
      obtain ⟨n, hn, -⟩ := numberToJson_finite hd
      rw [toJson_number, hn] at h
      cases h
  | compiled =>
    cases hw with
    | compiled => rfl
    | invalid => cases h
  | invalid =>
    cases hw with
    | compiled => cases h
    | invalid => rfl
  | _ =>
    cases hw with
    | number he =>
      obtain ⟨n, hn, -⟩ := numberToJson_finite he
      rw [toJson_number, hn] at h
      cases h
    | _ => cases h <;> rfl

end LiteralValue

/-! ## Shapes -/

/-- Lists have equal images where items that are related have. -/
theorem map_eq_of_forall₂ {α β : Type} {R : α → α → Prop} {f : α → β} {as bs : List α}
    (h : List.Forall₂ R as bs) (hf : ∀ a ∈ as, ∀ b ∈ bs, R a b → f a = f b) :
    as.map f = bs.map f := by
  induction h with
  | nil => rfl
  | cons hab _ ih =>
    rw [List.map_cons, List.map_cons, hf _ (.head _) _ (.head _) hab,
      ih fun a ha b hb => hf a (.tail _ ha) b (.tail _ hb)]

theorem SourceType.name_inj {k l : SourceType} : k.name = l.name ↔ k = l := by
  cases k <;> cases l <;> simp [name]

theorem VariableKind.name_inj {k l : VariableKind} : k.name = l.name ↔ k = l := by
  cases k <;> cases l <;> simp [name]

theorem PropertyKind.name_inj {k l : PropertyKind} : k.name = l.name ↔ k = l := by
  cases k <;> cases l <;> simp [name]

theorem MethodKind.name_inj {k l : MethodKind} : k.name = l.name ↔ k = l := by
  cases k <;> cases l <;> simp [name]

theorem RegexLiteral.toJson_inj {r s : RegexLiteral} : r.toJson = s.toJson ↔ r = s :=
  ⟨fun h => eq_of_like (h ▸ like_toJson r), congrArg _⟩

theorem TemplateValue.toJson_inj {v w : TemplateValue} : v.toJson = w.toJson ↔ v = w :=
  ⟨fun h => eq_of_like (h ▸ like_toJson v), congrArg _⟩

theorem FunctionShape.fields_inj {α : Type} {f g : FunctionShape α} :
    f.fields = g.fields ↔ f = g := by
  cases f
  cases g
  simp [fields]

theorem ClassShape.fields_inj {α : Type} {c d : ClassShape α} : c.fields = d.fields ↔ c = d := by
  cases c
  cases d
  simp [fields]

namespace Shape

variable {α β γ : Type} {s t : Shape α}

/-- The types of all nodes, in the order of the constructors. -/
def typeNames : List String :=
  ["Program", "Identifier", "PrivateIdentifier", "Literal", "TemplateLiteral", "TemplateElement",
   "ThisExpression", "Super", "ArrayExpression", "ObjectExpression", "Property",
   "FunctionExpression", "ArrowFunctionExpression", "ClassExpression", "UnaryExpression",
   "UpdateExpression", "BinaryExpression", "LogicalExpression", "AssignmentExpression",
   "SequenceExpression", "ConditionalExpression", "CallExpression", "NewExpression",
   "MemberExpression", "SpreadElement", "YieldExpression", "AwaitExpression",
   "TaggedTemplateExpression", "ObjectPattern", "ArrayPattern", "RestElement", "AssignmentPattern",
   "ClassBody", "MethodDefinition", "ExpressionStatement", "BlockStatement", "EmptyStatement",
   "DebuggerStatement", "WithStatement", "ReturnStatement", "LabeledStatement", "BreakStatement",
   "ContinueStatement", "IfStatement", "SwitchStatement", "SwitchCase", "ThrowStatement",
   "TryStatement", "CatchClause", "WhileStatement", "DoWhileStatement", "ForStatement",
   "ForInStatement", "ForOfStatement", "FunctionDeclaration", "ClassDeclaration",
   "VariableDeclaration", "VariableDeclarator", "ImportDeclaration", "ImportSpecifier",
   "ImportDefaultSpecifier", "ImportNamespaceSpecifier", "ExportNamedDeclaration",
   "ExportSpecifier", "ExportDefaultDeclaration", "ExportAllDeclaration"]

theorem getElem?_typeNames (s : Shape α) : typeNames[s.ctorIdx]? = some s.typeName := by
  cases s <;> rfl

theorem nodup_typeNames : typeNames.Nodup := by decide +kernel

/-- The type of a node tells its constructor. -/
theorem ctorIdx_eq (h : s.typeName = t.typeName) : s.ctorIdx = t.ctorIdx := by
  have hs := s.getElem?_typeNames
  have ht := t.getElem?_typeNames
  obtain ⟨hlt, -⟩ := List.getElem?_eq_some_iff.1 hs
  refine (List.getElem?_inj hlt nodup_typeNames).1 ?_
  rw [hs, ht, h]

/-- The names and the sorts of the fields of a node. -/
def signature (s : Shape α) : List (String × Nat) :=
  s.fields.map fun (name, x) => (name, x.ctorIdx)

theorem signature_eq (htype : s.typeName = t.typeName) (hs : s.typeName ≠ "Literal") :
    s.signature = t.signature := by
  have hctor := ctorIdx_eq htype
  clear htype
  -- The second shape is taken apart by its constructor index: cases on both would be cases on all
  -- pairs of constructors.
  cases s
  case literal => exact absurd rfl hs
  all_goals
    refine Shape.ctorElim (motive := fun t => _ = signature t) _ t hctor ⟨?_⟩
    intros
    rfl

/-- A node that is no literal has the fields of any node of its type, by names and by sorts. -/
theorem forall₂_fields (htype : s.typeName = t.typeName) (hs : s.typeName ≠ "Literal") :
    List.Forall₂ (fun f g => f.1 = g.1 ∧ f.2.ctorIdx = g.2.ctorIdx) s.fields t.fields :=
  (forall₂_of_map_eq (signature_eq htype hs)).imp fun _ _ h => Prod.mk.inj h.2

/-- The type and the fields of a node tell what it is. -/
theorem eq_of_fields (htype : s.typeName = t.typeName) (h : s.fields = t.fields) : s = t := by
  have hctor := ctorIdx_eq htype
  clear htype
  revert h
  cases s
  case literal value raw regex =>
    refine Shape.ctorElim (motive := fun t => _ = fields t → _ = t) _ t hctor ⟨?_⟩
    intro value' raw' regex'
    cases regex <;> cases regex' <;> simp [fields, RegexLiteral.toJson_inj]
  all_goals
    refine Shape.ctorElim (motive := fun t => _ = fields t → _ = t) _ t hctor ⟨?_⟩
    intros
    simp [fields, SourceType.name_inj, VariableKind.name_inj, PropertyKind.name_inj,
      MethodKind.name_inj, TemplateValue.toJson_inj, FunctionShape.fields_inj,
      ClassShape.fields_inj]

theorem exists_literal (h : s.typeName = "Literal") :
    ∃ value raw regex, s = literal value raw regex := by
  cases s with
  | literal value raw regex => exact ⟨value, raw, regex, rfl⟩
  | _ => exact absurd h (by simp [typeName])

theorem ne_value {name : String} {x : Field α} (hs : s.typeName ≠ "Literal")
    (hx : (name, x) ∈ s.fields) (v : LiteralValue) : x ≠ .value v := by
  rintro rfl
  cases s with
  | literal => exact hs rfl
  | _ => simp [fields, FunctionShape.fields, ClassShape.fields] at hx

theorem map_map (f : α → β) (g : β → γ) (s : Shape α) : (s.map f).map g = s.map (g ∘ f) := by
  cases s <;> simp [map, FunctionShape.map, ClassShape.map, Function.comp_def]

theorem mem_fields_map (f : α → β) {s : Shape α} {name : String} {x : Field α}
    (h : (name, x) ∈ s.fields) : (name, x.map f) ∈ (s.map f).fields := by
  rw [fields_map]
  exact List.mem_map.2 ⟨_, h, rfl⟩

/-- The shape, without the sign of zero in the value of a literal. -/
def unsigned : Shape α → Shape α
  | literal value raw regex => literal value.unsigned raw regex
  | s => s

theorem map_unsigned (f : α → β) (s : Shape α) : s.unsigned.map f = (s.map f).unsigned := by
  cases s <;> rfl

theorem unsigned_eq_self (hs : s.typeName ≠ "Literal") : s.unsigned = s := by
  cases s with
  | literal => exact absurd rfl hs
  | _ => rfl

theorem encode_unsigned (s : Shape Json) (label : Label) :
    Node.encode LiteralValue.toJson s.unsigned label = Node.encode LiteralValue.toJson s label := by
  cases s with
  | literal value raw regex =>
    simp [unsigned, Node.encode, fields, Field.toJson, LiteralValue.toJson_unsigned, typeName]
  | _ => rfl

end Shape

/-! ## Nodes -/

namespace Node

section

/-- The members of the object of a node. -/
def members (literal : LiteralValue → Json) (s : Shape Json) (label : Label) :
    List (String × Json) :=
  ("type", .string s.typeName) :: s.fields.map (fun (name, x) => (name, x.toJson literal))
    ++ [("loc", label.loc.toJson), ("range", label.range.toJson)]

variable {literal : LiteralValue → Json} {s t : Shape Json} {l m : Label} {name : String}

theorem keys_members : (members literal s l).map (·.1) =
    "type" :: s.fields.map (·.1) ++ ["loc", "range"] := by
  simp [members]

theorem nodup_members : ((members literal s l).map (·.1)).Nodup :=
  keys_members ▸ s.keys_nodup

theorem mem_members {x : Field Json} (hx : (name, x) ∈ s.fields) :
    (name, x.toJson literal) ∈ members literal s l :=
  List.mem_append_left _ (.tail _ (List.mem_map.2 ⟨_, hx, rfl⟩))

/-- No field has the name of a position. -/
theorem isPositionKey_eq_false {α : Type} {s : Shape α} (h : name ∈ s.fields.map (·.1)) :
    isPositionKey name = false := by
  have hkeys := (List.nodup_append.1 s.keys_nodup).2.2 name (.tail _ h)
  simp [isPositionKey, hkeys]

theorem typeName_eq_of_like (h : Like (encode literal s l) (encode literal t m)) :
    s.typeName = t.typeName := by
  have htype : isPositionKey "type" = false := by decide
  exact agree_string.1 (like_of_mem h nodup_members nodup_members htype (.head _) (.head _))

theorem like_of_mem_fields {x y : Field Json} (h : Like (encode literal s l) (encode literal t m))
    (hx : (name, x) ∈ s.fields) (hy : (name, y) ∈ t.fields) :
    Like (x.toJson literal) (y.toJson literal) :=
  like_of_mem h nodup_members nodup_members (isPositionKey_eq_false (List.mem_map_of_mem hx))
    (mem_members hx) (mem_members hy)

/-- Literals of one JSON have one regular expression. -/
theorem regex_eq_of_like {v w : LiteralValue} {raw raw' : String} {r r' : Option RegexLiteral}
    (h : Like (encode literal (.literal v raw r) l) (encode literal (.literal w raw' r') m)) :
    r = r' := by
  have hkeys := mem_keys_iff_of_like h (by decide : isPositionKey "regex" = false)
  cases r with
  | none =>
    cases r' with
    | none => rfl
    | some r' => simp [Shape.fields] at hkeys
  | some r =>
    cases r' with
    | none => simp [Shape.fields] at hkeys
    | some r' =>
      have hregex : Like r.toJson r'.toJson :=
        like_of_mem_fields h (.tail _ (.tail _ (.head _))) (.tail _ (.tail _ (.head _)))
      exact congrArg some (RegexLiteral.eq_of_like hregex)

end

section

variable {α : Type} {f : Node → α} {x y : Field Node}

theorem not_like_null (n : Node) : ¬ Like n.toJson .null ∧ ¬ Like .null n.toJson := by
  obtain ⟨s, label⟩ := n
  rw [toJson_mk, encode]
  constructor <;> (intro h; cases h)

/-- A node that may be absent is told from one that is, as no node is written as `null`. -/
theorem map_eq_of_like {a b : Option Node}
    (h : Like ((a.map toJson).getD .null) ((b.map toJson).getD .null))
    (hf : ∀ m ∈ a, ∀ n ∈ b, Like m.toJson n.toJson → f m = f n) : a.map f = b.map f := by
  cases a with
  | none =>
    cases b with
    | none => rfl
    | some n => exact absurd h n.not_like_null.2
  | some m =>
    cases b with
    | none => exact absurd h m.not_like_null.1
    | some n => exact congrArg some (hf m rfl n rfl h)

/-- Fields of one sort have equal images if their values agree, and children whose JSON agrees have
equal images. -/
theorem field_map_eq_of_like (hsort : x.ctorIdx = y.ctorIdx) (hvalue : ∀ v, x ≠ .value v)
    (hdata : ∀ j k, x = .data j → y = .data k → Like j k → j = k)
    (hchildren : ∀ m ∈ x.children, ∀ n ∈ y.children, Like m.toJson n.toJson → f m = f n)
    (h : Like ((x.map toJson).toJson LiteralValue.toJson)
      ((y.map toJson).toJson LiteralValue.toJson)) : x.map f = y.map f := by
  cases x <;> cases y <;> cases hsort
  case flag => exact congrArg Field.flag (agree_bool.1 h)
  case text => exact congrArg Field.text (agree_string.1 h)
  case data j k => exact congrArg Field.data (hdata j k rfl rfl h)
  case value v _ => exact absurd rfl (hvalue v)
  case child m n => exact congrArg Field.child (hchildren m (.head _) n (.head _) h)
  case optional a b =>
    refine congrArg Field.optional (map_eq_of_like h fun m hm n hn => ?_)
    exact hchildren m (Option.mem_toList.2 hm) n (Option.mem_toList.2 hn)
  case list ms ns =>
    have hforall := like_array.1 h
    rw [List.forall₂_map_left_iff, List.forall₂_map_right_iff] at hforall
    exact congrArg Field.list (map_eq_of_forall₂ hforall hchildren)
  case slots as bs =>
    have hforall := like_array.1 h
    rw [List.map_map, List.map_map, List.forall₂_map_left_iff,
      List.forall₂_map_right_iff] at hforall
    refine congrArg Field.slots (map_eq_of_forall₂ hforall fun a ha b hb hab => ?_)
    refine map_eq_of_like hab fun m hm n hn => hchildren m ?_ n ?_
    · exact List.mem_filterMap.2 ⟨a, ha, hm⟩
    · exact List.mem_filterMap.2 ⟨b, hb, hn⟩

end

/-- Every literal of a node has a regular expression exactly if its value is one, with the pattern
and the flags of the value if it compiles, and every number is finite. -/
def HasFittingLiterals (n : Node) : Prop := n.Everywhere fun m =>
  ∀ value raw regex, m.shape = .literal value raw regex → value.Fits regex

/-- The node, without the sign of zero in the values of literals. -/
def unsigned (n : Node) : Node := n.fold fun s label => .mk s.unsigned label

/-- The tree of a node, without labels and without the sign of zero, so that numbers that are equal as
doubles are one number (`Double.same_iff`). -/
def essence (n : Node) : Tree Unit := n.unsigned.unlabelled

theorem unsigned_mk (s : Shape Node) (label : Label) :
    unsigned (.mk s label) = .mk (s.unsigned.map unsigned) label := by
  rw [unsigned, Tree.fold_mk, Shape.map_unsigned]
  rfl

theorem essence_mk (s : Shape Node) (label : Label) :
    essence (.mk s label) = .mk (s.unsigned.map essence) () := by
  rw [essence, unsigned_mk, unlabelled, Tree.map_mk, Shape.map_map]
  rfl

theorem toJson_unsigned (n : Node) : n.unsigned.toJson = n.toJson := by
  induction n using Tree.induction with
  | h s label ih =>
    have hchildren : s.map (toJson ∘ unsigned) = s.map toJson := Shape.map_congr ih
    rw [unsigned_mk, toJson_mk, toJson_mk, Shape.map_map, Shape.map_unsigned, Shape.encode_unsigned,
      hchildren]

/-- Literals of one JSON are one literal, up to the sign of zero. -/
theorem literal_eq_of_like {v w : LiteralValue} {raw raw' : String} {r r' : Option RegexLiteral}
    {l m : Label} (hv : v.Fits r) (hw : w.Fits r')
    (h : Like (encode LiteralValue.toJson (.literal v raw r) l)
      (encode LiteralValue.toJson (.literal w raw' r') m)) :
    (.literal v.unsigned raw r : Shape (Tree Unit)) = .literal w.unsigned raw' r' := by
  obtain rfl := regex_eq_of_like h
  have hvalue : Like v.toJson w.toJson := like_of_mem_fields h (.head _) (.head _)
  have hraw := like_of_mem_fields h (.tail _ (.head _)) (.tail _ (.head _))
  obtain rfl : raw = raw' := agree_string.1 hraw
  rw [LiteralValue.unsigned_eq_of_like hv hw hvalue]

/-- Nodes of one JSON have one essence, by induction over the first one. -/
theorem essence_eq_of_like {a b : Node} (ha : a.HasFittingLiterals) (hb : b.HasFittingLiterals)
    (h : Like a.toJson b.toJson) : a.essence = b.essence := by
  induction a using Tree.induction generalizing b with
  | h s label ih =>
    obtain ⟨t, label'⟩ := b
    rw [toJson_mk, toJson_mk] at h
    have htype := typeName_eq_of_like h
    rw [Shape.typeName_map, Shape.typeName_map] at htype
    rw [essence_mk, essence_mk]
    refine congrArg (Tree.mk · ()) ?_
    by_cases hliteral : s.typeName = "Literal"
    · obtain ⟨v, raw, r, rfl⟩ := Shape.exists_literal hliteral
      obtain ⟨w, raw', r', rfl⟩ := Shape.exists_literal (htype ▸ hliteral)
      exact literal_eq_of_like (ha.root v raw r rfl) (hb.root w raw' r' rfl) h
    · rw [Shape.unsigned_eq_self hliteral, Shape.unsigned_eq_self (htype ▸ hliteral)]
      refine Shape.eq_of_fields (by rw [Shape.typeName_map, Shape.typeName_map, htype]) ?_
      rw [Shape.fields_map, Shape.fields_map]
      refine map_eq_of_forall₂ (Shape.forall₂_fields htype hliteral) ?_
      rintro ⟨name, x⟩ hx ⟨_, y⟩ hy ⟨rfl, hsort⟩
      have hvalue := Shape.ne_value hliteral hx
      refine congrArg (Prod.mk name) (field_map_eq_of_like hsort hvalue ?_ ?_ ?_)
      · rintro j k rfl rfl
        exact Shape.data_eq_of_like hx hy
      · intro m hm n hn
        have hm : m ∈ s.children := List.mem_flatMap.2 ⟨_, hx, hm⟩
        have hn : n ∈ t.children := List.mem_flatMap.2 ⟨_, hy, hn⟩
        exact ih m hm (ha.child hm) (hb.child hn)
      · exact like_of_mem_fields h (Shape.mem_fields_map toJson hx) (Shape.mem_fields_map toJson hy)

/-- **Structural equality of nodes is equality of trees.** Where literals fit their regular
expressions and numbers are finite, two nodes are structurally equal exactly if they are one tree
once labels are erased and zero has no sign. -/
theorem structureEq_iff_essence {a b : Node} (ha : a.HasFittingLiterals)
    (hb : b.HasFittingLiterals) : a.structureEq b ↔ a.essence = b.essence := by
  rw [structureEq, structureEq_sorted a.keyed_toJson b.keyed_toJson]
  constructor
  · exact essence_eq_of_like ha hb
  · intro h
    rw [← toJson_unsigned a, ← toJson_unsigned b]
    exact like_toJson h

/-- The expression `0, /a/g` at a label, with a sign for its zero. -/
def zeroAndRegex (negative : Bool) (label : Label) : Node :=
  .mk (.sequenceExpression [
    .mk (.literal (.number (.finite negative 0)) "0" none) label,
    .mk (.literal (.regExp (some ⟨"a", "g"⟩)) "/a/g" (some ⟨"a", "g"⟩)) label]) label

theorem zeroAndRegex_structureEq :
    (zeroAndRegex true default).HasFittingLiterals ∧
      (zeroAndRegex false ⟨⟨"f.js", ⟨1, 0⟩, ⟨1, 7⟩⟩, ⟨0, 7⟩⟩).HasFittingLiterals ∧
      (zeroAndRegex true default).structureEq
        (zeroAndRegex false ⟨⟨"f.js", ⟨1, 0⟩, ⟨1, 7⟩⟩, ⟨0, 7⟩⟩) := by
  have hfits (negative : Bool) (label : Label) :
      (zeroAndRegex negative label).HasFittingLiterals := by
    refine .mk nofun (List.forall_mem_cons.2 ⟨.mk ?_ nofun, List.forall_mem_singleton.2 ?_⟩)
    · rintro _ _ _ ⟨⟩
      exact .number rfl
    · refine .mk ?_ nofun
      rintro _ _ _ ⟨⟩
      exact .compiled
  exact ⟨hfits _ _, hfits _ _, (structureEq_iff_essence (hfits _ _) (hfits _ _)).2 rfl⟩

end Node

end Estree
