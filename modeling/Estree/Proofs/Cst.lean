import Estree.Convert.Program

/-!
# Nodes of a concrete tree

What holds at every node of a concrete tree (`Cst.Everywhere`), the extra children of a node, and
the cases of a switch, whose field `body` is read as a list.
-/

namespace Estree.Cst

/-! ## Every node -/

/-- Every node of a tree, extra nodes included, has a property. -/
inductive Everywhere (P : Cst → Prop) : Cst → Prop
  | mk {n : Cst} : P n → (∀ c ∈ n.children, Everywhere P c) → Everywhere P n

namespace Everywhere

variable {P Q : Cst → Prop} {n c : Cst}

theorem root : Everywhere P n → P n
  | mk h _ => h

theorem child : Everywhere P n → c ∈ n.children → Everywhere P c
  | mk _ h, hc => h c hc

theorem part (h : Everywhere P n) (hc : c ∈ n.parts) : Everywhere P c :=
  h.child (mem_children_of_mem_parts hc)

theorem named (h : Everywhere P n) (hc : c ∈ n.named) : Everywhere P c :=
  h.child (mem_children_of_mem_named hc)

theorem mono (h : Everywhere P n) (hPQ : ∀ c, P c → Q c) : Everywhere Q n := by
  induction h with
  | mk h _ ih => exact .mk (hPQ _ h) ih

theorem field? {name : String} (h : Everywhere P n) (hc : n.field? name = some c) :
    Everywhere P c := h.child (mem_children_of_field? hc)

end Everywhere

/-- The nodes of a tree: the tree itself and what is below, extra nodes included. -/
inductive IsNode : Cst → Cst → Prop
  | root {n : Cst} : IsNode n n
  | child {c d n : Cst} : IsNode c n → d ∈ c.children → IsNode d n

theorem IsNode.of_child {d c n : Cst} (h : d.IsNode c) (hc : c ∈ n.children) : d.IsNode n := by
  induction h with
  | root => exact .child .root hc
  | child _ hd ih => exact .child (ih hc) hd

theorem Everywhere.of_isNode {P : Cst → Prop} {n c : Cst} (h : n.Everywhere P)
    (hc : c.IsNode n) : c.Everywhere P := by
  induction hc with
  | root => exact h
  | child _ hd ih => exact (ih h).child hd

/-- Everything in a node of a tree is a node of the tree. -/
theorem IsNode.everywhere {n c : Cst} (h : c.IsNode n) : c.Everywhere (·.IsNode n) := by
  induction hk : c.height using Nat.strongRecOn generalizing c with
  | ind k ih =>
    exact .mk h fun d hd => ih d.height (hk ▸ height_lt_of_mem_children hd) (h.child hd) rfl

mutual

/-- What can be decided at a node can be decided everywhere in a tree. -/
def decideEverywhere (P : Cst → Prop) [DecidablePred P] : (n : Cst) → Decidable (n.Everywhere P)
  | node head cs =>
    if hp : P (node head cs) then
      match decideAll P cs with
      | .isTrue hs => .isTrue (.mk hp hs)
      | .isFalse hs => .isFalse fun h => hs fun _ => h.child
    else .isFalse fun h => hp h.root

def decideAll (P : Cst → Prop) [DecidablePred P] :
    (cs : List Cst) → Decidable (∀ c ∈ cs, c.Everywhere P)
  | [] => .isTrue nofun
  | c :: cs =>
    match decideEverywhere P c, decideAll P cs with
    | .isTrue hc, .isTrue hs => .isTrue (List.forall_mem_cons.2 ⟨hc, hs⟩)
    | .isFalse hc, _ => .isFalse fun h => hc (h c List.mem_cons_self)
    | _, .isFalse hs => .isFalse fun h => hs fun _ hd => h _ (.tail _ hd)

end

instance (P : Cst → Prop) [DecidablePred P] (n : Cst) : Decidable (n.Everywhere P) :=
  decideEverywhere P n

/-! ## Fields and extra children -/

/-- The fields that are looked up. -/
def fieldNames : List String :=
  ["alias", "alternative", "argument", "arguments", "body", "condition", "consequence",
   "constructor", "declaration", "finalizer", "flags", "function", "handler", "increment", "index",
   "initializer", "key", "kind", "label", "left", "name", "object", "operator", "parameter",
   "parameters", "pattern", "property", "right", "source", "value"]

theorem field_of_field? {n c : Cst} {name : String} (h : n.field? name = some c) :
    c.head.field = some name := by
  simpa using List.find?_some h

/-- A node as a child in another field. -/
def inField (n : Cst) (field : Option String) : Cst :=
  node { n.head with field := field } n.children

theorem inField_self (n : Cst) : n.inField n.head.field = n := by
  obtain ⟨_, _⟩ := n
  rfl

theorem getD_field?_mem_children {n c : Cst} (name : String) (hc : c ∈ n.children) :
    (n.field? name).getD c ∈ n.children := by
  cases h : n.field? name with
  | none => exact hc
  | some d => exact mem_children_of_field? h

/-- The extra children of a node. -/
def extras (n : Cst) : List Cst := n.children.filter (·.head.isExtra)

theorem mem_extras {n c : Cst} : c ∈ n.extras ↔ c ∈ n.children ∧ c.head.isExtra := List.mem_filter

/-- Where no extra child is in a field, looking it up among the parts is the same. -/
theorem field?_eq_find?_parts {n : Cst} {name : String}
    (h : ∀ c ∈ n.extras, c.head.field ≠ some name) :
    n.field? name = n.parts.find? (·.head.field == some name) := by
  unfold field? parts
  rw [← List.head?_filter, ← List.head?_filter, List.filter_filter]
  refine congrArg List.head? (List.filter_congr fun c hc => ?_)
  cases hx : c.head.isExtra
  · simp
  · simpa [hx] using h c (mem_extras.2 ⟨hc, hx⟩)

/-! ## Cases -/

/-- Whether a node is a case of a switch by its name. -/
def isCase (n : Cst) : Bool := n.head.label == "switch_case" || n.head.label == "switch_default"

/-- A damaged case is of no kind of its own. -/
theorem kind_of_isCase {n : Cst} (h : n.isCase) :
    n.kind = .other ∨ n.kind = .switchCase ∨ n.kind = .switchDefault := by
  unfold kind
  split
  · exact .inl rfl
  · rcases Bool.or_eq_true_iff.1 h with h | h
    · exact .inr (.inl (by rw [beq_iff_eq.1 h]; rfl))
    · exact .inr (.inr (by rw [beq_iff_eq.1 h]; rfl))

/-! ## Heights -/

theorem height_lt_of_mem_parts {c n : Cst} (h : c ∈ n.parts) : c.height < n.height :=
  height_lt_of_mem_children (mem_children_of_mem_parts h)

theorem height_lt_of_mem_named {c n : Cst} (h : c ∈ n.named) : c.height < n.height :=
  height_lt_of_mem_parts (mem_parts_of_mem_named h)

theorem height_lt_of_field? {c n : Cst} {name : String} (h : n.field? name = some c) :
    c.height < n.height := height_lt_of_mem_children (mem_children_of_field? h)

/-! ## Tokens -/

theorem not_isNamed_of_isToken {c : Cst} {text : String} (h : c.isToken text) : ¬c.head.isNamed := by
  intro hnamed
  simp [isToken, hnamed] at h

theorem isToken_unique {c : Cst} {text other : String} (h : c.isToken text) (hne : text ≠ other) :
    ¬c.isToken other := by
  intro h'
  simp only [isToken, Bool.and_eq_true, beq_iff_eq] at h h'
  exact hne (h.2.symm.trans h'.2)

/-! ## Slots and operands -/

theorem mem_of_mem_slotsOf {c : Cst} {empty : Bool} {cs : List Cst}
    (h : some c ∈ slotsOf empty cs) : c ∈ cs := by
  induction cs generalizing empty with
  | nil => cases h
  | cons d cs ih =>
    rw [slotsOf] at h
    split at h
    · cases h with
      | head => exact List.mem_cons_self
      | tail _ h => exact List.mem_cons_of_mem d (ih h)
    · refine List.mem_cons_of_mem d ?_
      split at h
      · rcases List.mem_append.1 h with h | h
        · split at h <;> simp at h
        · exact ih h
      · exact ih h

theorem mem_parts_of_mem_slots {c n : Cst} (h : some c ∈ n.slots) : c ∈ n.parts :=
  mem_of_mem_slotsOf h

mutual

/-- The operands of a comma expression, through comma expressions directly inside. -/
def operands : Cst → List Cst
  | node _ cs => operandsOf cs

/-- The operands among children of a comma expression. -/
def operandsOf : List Cst → List Cst
  | [] => []
  | c :: cs =>
    (if c.head.isExtra || !c.head.isNamed then []
      else if c.kind = .sequenceExpression then c.operands
      else [c]) ++ operandsOf cs

end

theorem operandsOf_eq (cs : List Cst) :
    operandsOf cs = ((cs.filter (!·.head.isExtra)).filter (·.head.isNamed)).flatMap
      fun c => if c.kind = .sequenceExpression then c.operands else [c] := by
  induction cs with
  | nil => rfl
  | cons c cs ih =>
    rw [operandsOf, ih]
    cases hx : c.head.isExtra <;> cases hn : c.head.isNamed <;> simp [hx, hn]

/-- The operands are the named children, where comma expressions give way to their own operands. -/
theorem operands_eq (n : Cst) : n.operands =
    n.named.flatMap fun c => if c.kind = .sequenceExpression then c.operands else [c] := by
  obtain ⟨head, cs⟩ := n
  exact operandsOf_eq cs

end Estree.Cst
