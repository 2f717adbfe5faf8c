import Estree.Proofs.Trace

/-!
# Options label results

Of the options of a conversion, the file stands on every node and the type of source on the program,
and the target stands nowhere. Nothing else of a result depends on them, and neither does whether there
is one (`Program.convert_options`).
-/

namespace Estree

variable {μ ν κ : Type}

/-- Puts a type of source on a program in place of its own. -/
def Tree.typed (type : SourceType) : Tree μ → Tree μ
  | .mk (.program body _) m => .mk (.program body type) m
  | t => t

/-- Puts a file on a node in place of its own. -/
def Label.inFile (file : String) (l : Label) : Label := { l with loc := { l.loc with source := file } }

/-- Overwrites what options tell of in a result: the file of every node, and the type of source. -/
def Node.labelled (options : Options) (node : Node) : Node :=
  (node.map (Label.inFile options.fileName)).typed options.sourceType

/-- Conversions that differ in their marks and in the type of source yield the same tree, but for
these. -/
theorem Convert.program_typed {ctx₁ : Context μ} {ctx₂ : Context ν} (left : μ → κ) (right : ν → κ)
    (hsource : ctx₁.source = ctx₂.source) (hcompiles : ctx₁.compiles = ctx₂.compiles)
    (hmark : ∀ n a b, left (ctx₁.mark n a b) = right (ctx₂.mark n a b)) (type : SourceType) (n : Cst) :
    (fun t => (Tree.map left t).typed type) <$> program ctx₁ n
      = (fun t => (Tree.map right t).typed type) <$> program ctx₂ n := by
  let S : Simulation κ ctx₁ ctx₂ := .marks hsource hcompiles left right hmark
  have same : S.Same (fun t u => (t.map left).typed type = (u.map right).typed type)
      (program ctx₁ n) (program ctx₂ n) := by
    unfold program
    refine (Simulation.expect (S := S) rfl .program).seq fun _ _ => ?_
    have hitems : List.Forall₂ (S.Low n) (n.named.filter (·.kind != .hashBangLine))
        (n.named.filter (·.kind != .hashBangLine)) :=
      List.forall₂_same.2 fun c hc =>
        ⟨rfl, Cst.height_lt_of_mem_named (List.mem_of_mem_filter hc)⟩
    refine ((S.lower n).mapPlain rfl hitems).bind
      fun ts us _ _ htu => .pure ?_
    have hitems : ts.map (Tree.map left) = us.map (Tree.map right) := htu
    rw [Context.nodeAt, Context.nodeAt, Tree.map_mk, Tree.map_mk, hmark, hsource]
    simp only [Shape.map, hitems, Tree.typed]
  exact (same.map (W := Eq) fun _ _ h => h).eq

namespace Program

variable (tree : Cst) (source : Source)

/-- Two results differ in what options tell of alone. -/
theorem convert_labelled (o₁ o₂ options : Options) :
    (convert tree source o₁).result.map (Node.labelled options)
      = (convert tree source o₂).result.map (Node.labelled options) := by
  let file := Label.inFile options.fileName
  have h := @Convert.program_typed _ _ _ (context source o₁) (context source o₂) file file rfl rfl
    (fun _ _ _ => rfl) options.sourceType tree
  have hresult := congrArg Outcome.result h
  rwa [Outcome.result_map, Outcome.result_map] at hresult

variable {tree source} {options : Options} {node : Node}

/-- The file of the options stands on every node. -/
theorem file_of_isNode (h : (convert tree source options).result = .ok node) {n : Node}
    (hn : Tree.IsNode n node) : n.mark.loc.source = options.fileName := by
  obtain ⟨t, -, rfl⟩ := Convert.exists_traced h
  obtain ⟨u, -, rfl⟩ := hn.of_map
  rw [Tree.mark_map]
  rfl

/-- The type of source of the options stands on the program. -/
theorem sourceType_of_convert (h : (convert tree source options).result = .ok node) :
    ∃ body, node.shape = .program body options.sourceType := by
  obtain ⟨_, -, h⟩ := Outcome.result_bind_eq_ok.1 h
  obtain ⟨body, -, h⟩ := Outcome.result_bind_eq_ok.1 h
  cases h
  exact ⟨body, rfl⟩

/-- **Options label a result and do nothing else**: conversions under two of them stop with the same
failure, or they succeed with the same tree but for its labels. Every node has the file as its source,
the program has the type of source, and the target shows nowhere. -/
theorem convert_options (tree : Cst) (source : Source) (o₁ o₂ : Options) :
    (∀ options, (convert tree source o₁).result.map (Node.labelled options)
      = (convert tree source o₂).result.map (Node.labelled options)) ∧
    (∀ node, (convert tree source o₁).result = .ok node →
      (∀ n, Tree.IsNode n node → n.mark.loc.source = o₁.fileName) ∧
        ∃ body, node.shape = .program body o₁.sourceType) ∧
    ∀ target, (convert tree source { o₁ with target }).result = (convert tree source o₁).result := by
  refine ⟨convert_labelled tree source o₁ o₂, fun node h => ⟨?_, sourceType_of_convert h⟩, ?_⟩
  · intro n hn
    exact file_of_isNode h hn
  · intro target
    rfl

end Program

end Estree
