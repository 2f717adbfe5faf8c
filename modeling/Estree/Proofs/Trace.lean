import Estree.Proofs.Simulation.Descent

/-!
# Where nodes come from

A traced conversion keeps on every node the syntax and the extent that it was made from
(`Context.traced`). Every conversion is the traced one with its marks put on afterwards
(`Convert.program_traced`), so what is known of origins is known of every result.
-/

namespace Estree

/-- Where a node comes from: its syntax, and the byte offsets of its start and end. -/
structure Origin where
  piece : Cst
  start : Nat
  stop : Nat
  deriving Repr, Inhabited

variable {μ : Type}

/-- The context that keeps the origins of nodes. -/
def Context.traced (ctx : Context μ) : Context Origin where
  source := ctx.source
  sourceType := ctx.sourceType
  compiles := ctx.compiles
  mark := Origin.mk

/-- The mark of a node from a given place. -/
def Context.markOf (ctx : Context μ) (o : Origin) : μ := ctx.mark o.piece o.start o.stop

/-- Conversions that differ in their marks alone yield the same tree with other marks. -/
theorem Convert.program_marks {ν : Type} {ctx₁ : Context μ} {ctx₂ : Context ν} (g : μ → ν)
    (hsource : ctx₁.source = ctx₂.source) (htype : ctx₁.sourceType = ctx₂.sourceType)
    (hcompiles : ctx₁.compiles = ctx₂.compiles)
    (hmark : ∀ n a b, g (ctx₁.mark n a b) = ctx₂.mark n a b) (n : Cst) :
    program ctx₂ n = Tree.map g <$> program ctx₁ n := by
  let S : Simulation ν ctx₁ ctx₂ := .marks hsource hcompiles g id hmark
  have same := S.program (n := n) rfl (fun _ => by rw [hsource]) htype
  have heq := (same.map (f := Tree.map g) (g := id) (W := Eq) fun _ u htu =>
    htu.trans u.map_id).eq
  rw [heq, id_map]

/-- A conversion is the traced one with its marks put on afterwards. -/
theorem Convert.program_traced (ctx : Context μ) (n : Cst) :
    program ctx n = Tree.map ctx.markOf <$> program ctx.traced n :=
  program_marks ctx.markOf rfl rfl rfl (fun _ _ _ => rfl) n

/-- Every node of a result comes from a node of the traced result. -/
theorem Convert.exists_traced {ctx : Context μ} {n : Cst} {t : Tree μ}
    (h : (program ctx n).result = .ok t) :
    ∃ u, (program ctx.traced n).result = .ok u ∧ u.map ctx.markOf = t := by
  rw [program_traced] at h
  exact Outcome.result_map_eq_ok.1 h

end Estree
