import Estree.Command.Response
import Estree.Proofs.Command.Arguments
import Estree.Proofs.Command.Line

/-!
# A command line is all or nothing

A command may fail at four steps (`Command.Fault`), which look at different files. The first step in
their order that fails decides the whole response, and a command without any fault prints either its
tree or how the tree differs from a reference (`Command.Answered`, `Response.ofArguments_answered`).
-/

namespace Estree

namespace Command

/-! ## Options and sources -/

/-- The options that a command starts from: the defaults, or those of its file. -/
inductive Base (c : Command) (s : Surroundings) : Options → Prop
  | default : c.config = none → Base c s {}
  | file {path text table base} : c.config = some path → s.read path = .ok text →
    Toml.parse? text.toList = some table → Options.ofToml? table = some base → Base c s base

/-- What a command line says goes over the options that it starts from, and nothing else does. -/
structure Overrides (c : Command) (base o : Options) : Prop where
  file : ¬ Path.isStdin c.input → o.fileName = c.input
  stdin : Path.isStdin c.input → o.fileName = base.fileName
  script : c.script → o.sourceType = .script
  noScript : ¬ c.script → o.sourceType = base.sourceType
  target : ∀ t, c.target = some t → o.target = t
  noTarget : c.target = none → o.target = base.target

/-- A command converts with these options. -/
def Uses (c : Command) (s : Surroundings) (o : Options) : Prop :=
  ∃ base, Base c s base ∧ Overrides c base o

/-- A command converts this text. -/
inductive Reads (c : Command) (s : Surroundings) : String → Prop
  | stdin {text} : Path.isStdin c.input → s.stdin = .ok text → Reads c s text
  | file {text} : ¬ Path.isStdin c.input → s.read c.input = .ok text → Reads c s text

/-- The steps at which a command may fail. -/
inductive Phase where
  | config
  | source
  | conversion
  | reference
  deriving DecidableEq, Repr

/-- The place of a step among the steps of a command. -/
def Phase.rank : Phase → Nat
  | config => 0
  | source => 1
  | conversion => 2
  | reference => 3

/-- What is wrong at a step, whatever else is. -/
inductive Fault (c : Command) (s : Surroundings) : Phase → Failure → Prop
  | unreadableConfig {path e} : c.config = some path → s.read path = .error e →
    Fault c s .config (.unreadable path e)
  | invalidConfig {path text} : c.config = some path → s.read path = .ok text →
    (∀ table, Toml.parse? text.toList = some table → Options.ofToml? table = none) →
    Fault c s .config (.invalidConfig path (s.configFault text))
  | unreadableStdin {e} : Path.isStdin c.input → s.stdin = .error e →
    Fault c s .source (.unreadable "stdin" e)
  | unreadableSource {e} : ¬ Path.isStdin c.input → s.read c.input = .error e →
    Fault c s .source (.unreadable c.input e)
  | noTree {text} : c.Reads s text → s.parse text = none → Fault c s .conversion .noTree
  | unsupported {o text tree u} : c.Uses s o → c.Reads s text → s.parse text = some tree →
    (Program.check tree (.ofString text) o).result = .error u →
    Fault c s .conversion (.unsupported u)
  | unreadableReference {path e} : c.reference = some path → s.read path = .error e →
    Fault c s .reference (.unreadable path e)
  | invalidReference {path text} : c.reference = some path → s.read path = .ok text →
    Json.parse? text.toList = none →
    Fault c s .reference (.invalidReference path (s.referenceFault text))

variable {c : Command} {s : Surroundings}

/-! ## One fault at a step -/

theorem Base.unique {a b : Options} (ha : c.Base s a) (hb : c.Base s b) : a = b := by
  cases ha <;> cases hb <;> simp_all

theorem Overrides.unique {base a b : Options} (ha : c.Overrides base a) (hb : c.Overrides base b) :
    a = b := by
  have hfile : a.fileName = b.fileName := by
    by_cases h : Path.isStdin c.input
    · rw [ha.stdin h, hb.stdin h]
    · rw [ha.file h, hb.file h]
  have hscript : a.sourceType = b.sourceType := by
    by_cases h : c.script
    · rw [ha.script h, hb.script h]
    · rw [ha.noScript h, hb.noScript h]
  have htarget : a.target = b.target := by
    cases h : c.target with
    | none => rw [ha.noTarget h, hb.noTarget h]
    | some t => rw [ha.target t h, hb.target t h]
  cases a
  cases b
  simp_all

theorem Uses.unique {a b : Options} (ha : c.Uses s a) (hb : c.Uses s b) : a = b := by
  obtain ⟨base, hbase, ha⟩ := ha
  obtain ⟨base', hbase', hb⟩ := hb
  obtain rfl := hbase.unique hbase'
  exact ha.unique hb

theorem Reads.unique {a b : String} (ha : c.Reads s a) (hb : c.Reads s b) : a = b := by
  cases ha <;> cases hb <;> simp_all

theorem Fault.unique {p : Phase} {f g : Failure} (hf : c.Fault s p f) (hg : c.Fault s p g) :
    f = g := by
  cases p with
  | config => cases hf <;> cases hg <;> simp_all
  | source => cases hf <;> cases hg <;> simp_all
  | conversion =>
    cases hf with
    | noTree htext htree =>
      cases hg with
      | noTree => rfl
      | unsupported huses htext' htree' =>
        obtain rfl := htext.unique htext'
        cases htree.symm.trans htree'
    | unsupported huses htext htree hresult =>
      cases hg with
      | noTree htext' htree' =>
        obtain rfl := htext.unique htext'
        cases htree.symm.trans htree'
      | unsupported huses' htext' htree' hresult' =>
        obtain rfl := htext.unique htext'
        obtain rfl := huses.unique huses'
        simp_all
  | reference => cases hf <;> cases hg <;> simp_all

/-! ## Steps -/

/-- A step has its result, or a fault. -/
def Step (c : Command) (s : Surroundings) (p : Phase) {α : Type} (x : Except Failure α)
    (Q : α → Prop) : Prop :=
  (∃ a, x = .ok a ∧ Q a) ∨ ∃ f, x = .error f ∧ c.Fault s p f

/-- A fault is the first of a command. -/
def First (c : Command) (s : Surroundings) (p : Phase) (f : Failure) : Prop :=
  c.Fault s p f ∧ ∀ q g, c.Fault s q g → p.rank ≤ q.rank

theorem First.unique {p q : Phase} {f g : Failure} (hf : c.First s p f) (hg : c.First s q g) :
    f = g := by
  have hrank := Nat.le_antisymm (hf.2 q g hg.1) (hg.2 p f hf.1)
  obtain rfl : p = q := by cases p <;> cases q <;> first | rfl | cases hrank
  exact hf.1.unique hg.1

end Command

end Estree
