import Estree.Command.Arguments
import Mathlib.Data.List.Basic
import Mathlib.Data.List.Infix
import Mathlib.Data.List.TakeWhile

/-!
# What a command line asks for

Of the arguments before `--` each is an option, the value of the option before it, or the path of
the source (`Draft.Adds` is what one argument can do). A command line that is accepted asks for an
option exactly if the option stands among these arguments, with a value that fits if it takes one,
and the one path that stands anywhere is that of the source (`Command.given_of_ofArguments`).
-/

namespace Estree

/-- A computation in two parts succeeds if both do. -/
theorem exists_ok_of_bind {ε α β : Type} {x : Except ε α} {f : α → Except ε β} {b : β}
    (h : x >>= f = .ok b) : ∃ a, x = .ok a ∧ f a = .ok b := by
  cases x with
  | error e => cases h
  | ok a => exact ⟨a, rfl, h⟩

namespace Command

/-- An option has a value, behind `=` or as the next argument. -/
def Sets (args : List String) (option value : String) : Prop :=
  option ++ "=" ++ value ∈ args ∨ [option, value] <:+: args

/-- The arguments that call for a value. -/
def valueOptions : List String := ["--target", "--config", "--compare"]

/-- A plain argument that is no value of an option. -/
def Positional (args : List String) (path : String) : Prop :=
  (path = "-" ∨ path.toList.head? ≠ some '-') ∧
    ∃ init rest, args = init ++ path :: rest ∧ ∀ option ∈ init.getLast?, option ∉ valueOptions

namespace Parameter

/-- The name by which an option is called. -/
def name : Parameter → String
  | target => "target"
  | config => "config"
  | reference => "compare"

/-- The argument that calls for an option and leaves the value to the next one. -/
def option (p : Parameter) : String := "--" ++ p.name

/-- The argument that gives an option its value. -/
def assignment (p : Parameter) (value : String) : String := p.option ++ "=" ++ value

/-- What an option is set to. -/
def Value : Parameter → Type
  | target => Target
  | config | reference => String

/-- A path is not empty. -/
def path? (value : String) : Option String := if value.isEmpty then none else some value

/-- What an option is set to by a value. -/
def read? : (p : Parameter) → String → Option p.Value
  | target, value => Target.ofName? value
  | config, value | reference, value => path? value

theorem ofName?_eq_some {s : String} {p : Parameter} (h : ofName? s = some p) : s = p.name := by
  unfold ofName? at h
  split at h <;> cases h <;> rfl

theorem ofName?_name (p : Parameter) : ofName? p.name = some p := by cases p <;> rfl

theorem option_inj {p q : Parameter} : p.option = q.option ↔ p = q := by
  cases p <;> cases q <;> decide

theorem mem_valueOptions {arg : String} : arg ∈ valueOptions ↔ ∃ p : Parameter, arg = p.option := by
  constructor
  · intro h
    simp only [valueOptions, List.mem_cons, List.not_mem_nil, or_false] at h
    rcases h with h | h | h
    · exact ⟨.target, h⟩
    · exact ⟨.config, h⟩
    · exact ⟨.reference, h⟩
  · rintro ⟨p, rfl⟩
    cases p <;> decide

end Parameter

theorem Flag.ofName?_eq_pretty {s : String} (h : ofName? s = some pretty) : s = "pretty" := by
  unfold ofName? at h
  split at h <;> cases h
  rfl

theorem Flag.ofName?_eq_script {s : String} (h : ofName? s = some script) : s = "script" := by
  unfold ofName? at h
  split at h <;> cases h
  rfl

theorem Flag.eq_of_ofLetter? {c : Char} {flag : Flag} (h : ofLetter? c = some flag)
    (hflag : flag = .pretty ∨ flag = .script) : c = 'p' ∧ flag = .pretty := by
  unfold ofLetter? at h
  split at h <;> cases h
  · exact ⟨rfl, rfl⟩
  · rcases hflag with hflag | hflag <;> cases hflag
  · rcases hflag with hflag | hflag <;> cases hflag

/-! ## Words -/

namespace Word

/-- The argument that looks like a word, unless that is a plain one. -/
def text? : Word → Option String
  | terminator => some "--"
  | long name none => some ("--" ++ name)
  | long name (some value) => some ("--" ++ name ++ "=" ++ value)
  | short letters => some (String.ofList ('-' :: letters))
  | plain => none

theorem eq_of_ofString {s t : String} {word : Word} (hword : ofString s = word)
    (h : word.text? = some t) : s = t := by
  subst hword
  unfold ofString at h
  split at h
  case h_1 heq =>
    cases h
    exact String.toList_inj.1 heq
  case h_2 cs _ heq =>
    dsimp only at h
    have hsplit := List.takeWhile_append_dropWhile (p := (· != '=')) (l := cs)
    split at h
    case h_1 hdrop =>
      cases h
      rw [hdrop, List.append_nil] at hsplit
      apply String.toList_inj.1
      simp [heq, hsplit]
    case h_2 c value hdrop =>
      cases h
      have hc : c = '=' := by
        simpa [hdrop] using List.head?_dropWhile_not (p := (· != '=')) (l := cs)
      rw [hdrop, hc] at hsplit
      apply String.toList_inj.1
      simp [heq, hsplit]
  case h_3 heq =>
    cases h
    apply String.toList_inj.1
    simp [heq]
  case h_4 => cases h

theorem ne_nil_of_ofString {s : String} {letters : List Char} (h : ofString s = .short letters) :
    letters ≠ [] := by
  unfold ofString at h
  split at h
  case h_2 =>
    dsimp only at h
    split at h <;> cases h
  all_goals cases h
  exact List.cons_ne_nil _ _

theorem ofString_eq_plain {s : String} :
    ofString s = .plain ↔ s = "-" ∨ s.toList.head? ≠ some '-' := by
  have hhyphen : s = "-" ↔ s.toList = ['-'] := String.toList_inj.symm
  rw [hhyphen, ofString]
  split
  case h_1 heq => simp [heq]
  case h_2 heq =>
    dsimp only
    split <;> simp [heq]
  case h_3 heq => simp [heq]
  case h_4 hterminator hlong hshort =>
    refine iff_of_true rfl ?_
    cases hs : s.toList with
    | nil => exact .inr nofun
    | cons c cs =>
      by_cases hc : c = '-'
      · subst hc
        cases cs with
        | nil => exact .inl rfl
        | cons e es => exact absurd hs (hshort e es)
      · exact .inr (by simpa using hc)

theorem ofString_option (p : Parameter) : ofString p.option = .long p.name none := by
  cases p <;> decide

theorem ofString_assignment (p : Parameter) (value : String) :
    ofString (p.assignment value) = .long p.name (some value) := by
  cases p <;> simp [ofString, Parameter.assignment, Parameter.option, Parameter.name]

end Word

/-! ## What an argument does -/

namespace Draft

variable {d d' : Draft} {arg : String}

/-- What an option is set to so far. -/
def value? (d : Draft) : (p : Parameter) → Option p.Value
  | .target => d.target
  | .config => d.config
  | .reference => d.reference

/-- Sets an option to what its value says. -/
def set (d : Draft) : (p : Parameter) → p.Value → Draft
  | .target, x => { d with target := some x, awaited := none }
  | .config, x => { d with config := some x, awaited := none }
  | .reference, x => { d with reference := some x, awaited := none }

theorem value?_set_self (d : Draft) (p : Parameter) (x : p.Value) :
    (d.set p x).value? p = some x := by cases p <;> rfl

theorem value?_set_of_ne (d : Draft) {p q : Parameter} (x : p.Value) (h : q ≠ p) :
    (d.set p x).value? q = d.value? q := by
  cases p <;> cases q <;> first | rfl | exact absurd rfl h

@[simp] theorem awaited_set (d : Draft) (p : Parameter) (x : p.Value) :
    (d.set p x).awaited = none := by cases p <;> rfl

@[simp] theorem input_set (d : Draft) (p : Parameter) (x : p.Value) :
    (d.set p x).input = d.input := by cases p <;> rfl

@[simp] theorem pretty_set (d : Draft) (p : Parameter) (x : p.Value) :
    (d.set p x).pretty = d.pretty := by cases p <;> rfl

@[simp] theorem script_set (d : Draft) (p : Parameter) (x : p.Value) :
    (d.set p x).script = d.script := by cases p <;> rfl

@[simp] theorem isLiteral_set (d : Draft) (p : Parameter) (x : p.Value) :
    (d.set p x).isLiteral = d.isLiteral := by cases p <;> rfl

/-- An argument is, or has behind `=`, the value of an option. -/
def Settles (d : Draft) (arg : String) (p : Parameter) (value : String) : Prop :=
  arg = p.assignment value ∨ d.awaited = some p ∧ arg = value

/-- What an argument before `--` does to a draft. An option that awaits its value takes a plain
argument. -/
inductive Adds (d : Draft) (arg : String) : Draft → Prop
  | input : d.awaited = none → Word.ofString arg = .plain → d.input = none →
    Adds d arg { d with input := some arg }
  | pretty : d.awaited = none → arg = "--pretty" ∨ arg = "-p" →
    Adds d arg { d with pretty := true }
  | script : d.awaited = none → arg = "--script" → Adds d arg { d with script := true }
  | awaits (p : Parameter) : d.awaited = none → arg = p.option →
    Adds d arg { d with awaited := some p }
  | sets (p : Parameter) (value : String) (x : p.Value) : d.Settles arg p value →
    (∀ q, d.awaited = some q → Word.ofString arg = .plain) →
    d.value? p = none → p.read? value = some x → Adds d arg (d.set p x)

theorem eq_set_of_addValue {p : Parameter} {value : String} (h : d.addValue p value = .ok d') :
    ∃ x, d.value? p = none ∧ p.read? value = some x ∧ d' = d.set p x := by
  cases p with
  | target =>
    rw [addValue] at h
    dsimp only at h
    split at h
    case h_1 t htarget hname =>
      cases h
      exact ⟨t, htarget, hname, rfl⟩
    case h_2 => cases h
  | config =>
    rw [addValue] at h
    dsimp only at h
    split at h
    case isTrue => cases h
    case isFalse hfits =>
      cases h
      rw [Bool.or_eq_true, not_or] at hfits
      exact ⟨value, Option.not_isSome_iff_eq_none.1 hfits.1, if_neg hfits.2, rfl⟩
  | reference =>
    rw [addValue] at h
    dsimp only at h
    split at h
    case isTrue => cases h
    case isFalse hfits =>
      cases h
      rw [Bool.or_eq_true, not_or] at hfits
      exact ⟨value, Option.not_isSome_iff_eq_none.1 hfits.1, if_neg hfits.2, rfl⟩

theorem eq_of_addInput (h : d.addInput arg = .ok d') :
    d.input = none ∧ d' = { d with input := some arg } := by
  unfold addInput at h
  split at h
  case isTrue => cases h
  case isFalse hfits =>
    cases h
    rw [Bool.or_eq_true, not_or] at hfits
    exact ⟨Option.not_isSome_iff_eq_none.1 hfits.1, rfl⟩

theorem addFlag_eq_ok {flag : Flag} (h : d.addFlag flag = .ok d') :
    flag = .pretty ∧ d.pretty = false ∧ d' = { d with pretty := true } ∨
      flag = .script ∧ d' = { d with script := true } := by
  cases flag with
  | pretty =>
    rw [addFlag] at h
    split at h
    case isTrue => cases h
    case isFalse hpretty =>
      cases h
      exact .inl ⟨rfl, by simpa using hpretty, rfl⟩
  | script =>
    rw [addFlag] at h
    split at h <;> cases h
    exact .inr ⟨rfl, rfl⟩
  | version => cases h
  | help => cases h

/-- Of the options with a letter there is only `p` that is no stop. -/
theorem addShort_cons {c : Char} {cs : List Char} (h : d.addShort (c :: cs) = .ok d') :
    c = 'p' ∧ d.pretty = false ∧ ({ d with pretty := true } : Draft).addShort cs = .ok d' := by
  rw [addShort, List.foldlM_cons] at h
  cases hc : Flag.ofLetter? c with
  | none =>
    rw [hc] at h
    cases h
  | some flag =>
    rw [hc] at h
    dsimp only at h
    obtain ⟨d₁, hflag, h⟩ := exists_ok_of_bind h
    rcases addFlag_eq_ok hflag with ⟨rfl, hpretty, rfl⟩ | ⟨rfl, rfl⟩
    · exact ⟨(Flag.eq_of_ofLetter? hc (.inl rfl)).1, hpretty, h⟩
    · cases (Flag.eq_of_ofLetter? hc (.inr rfl)).2

theorem eq_of_addShort {letters : List Char} (hne : letters ≠ [])
    (h : d.addShort letters = .ok d') : letters = ['p'] ∧ d' = { d with pretty := true } := by
  obtain ⟨c, cs, rfl⟩ := List.exists_cons_of_ne_nil hne
  obtain ⟨rfl, -, h⟩ := addShort_cons h
  cases cs with
  | nil =>
    cases h
    exact ⟨rfl, rfl⟩
  | cons e es =>
    obtain ⟨-, hpretty, -⟩ := addShort_cons h
    cases hpretty

theorem adds_of_addLong {name : String} {value : Option String} (hawaited : d.awaited = none)
    (hword : Word.ofString arg = .long name value) (h : d.addLong name value = .ok d') :
    Adds d arg d' := by
  unfold addLong at h
  split at h
  case h_1 flag hflag =>
    rcases addFlag_eq_ok h with ⟨rfl, -, rfl⟩ | ⟨rfl, rfl⟩
    · obtain rfl := Flag.ofName?_eq_pretty hflag
      exact .pretty hawaited (.inl (Word.eq_of_ofString hword rfl))
    · obtain rfl := Flag.ofName?_eq_script hflag
      exact .script hawaited (Word.eq_of_ofString hword rfl)
  case h_2 p value hname =>
    obtain rfl := Parameter.ofName?_eq_some hname
    obtain ⟨x, hvalue, hread, rfl⟩ := eq_set_of_addValue h
    exact .sets p value x (.inl (Word.eq_of_ofString hword rfl)) (by simp [hawaited]) hvalue hread
  case h_3 p hname _ =>
    cases h
    obtain rfl := Parameter.ofName?_eq_some hname
    exact .awaits p hawaited (Word.eq_of_ofString hword rfl)
  case h_4 => cases h

/-- An argument before `--` that is accepted does one of these things. -/
theorem adds_of_add (hliteral : d.isLiteral = false) (harg : arg ≠ "--") (h : d.add arg = .ok d') :
    Adds d arg d' := by
  rw [add, if_neg (by simp [hliteral])] at h
  split at h
  case h_1 p hawaited hword =>
    obtain ⟨x, hvalue, hread, rfl⟩ := eq_set_of_addValue h
    exact .sets p arg x (.inr ⟨hawaited, rfl⟩) (fun _ _ => hword) hvalue hread
  case h_2 => cases h
  case h_3 hawaited hword =>
    obtain ⟨hinput, rfl⟩ := eq_of_addInput h
    exact .input hawaited hword hinput
  case h_4 hword => exact absurd (Word.eq_of_ofString hword rfl) harg
  case h_5 name value hawaited hword => exact adds_of_addLong hawaited hword h
  case h_6 letters hawaited hword =>
    obtain ⟨rfl, rfl⟩ := eq_of_addShort (Word.ne_nil_of_ofString hword) h
    exact .pretty hawaited (.inr (Word.eq_of_ofString hword rfl))

theorem assignment_inj {p q : Parameter} {v w : String} (h : p.assignment v = q.assignment w) :
    p = q ∧ v = w := by
  have hword := congrArg Word.ofString h
  rw [Word.ofString_assignment, Word.ofString_assignment, Word.long.injEq] at hword
  have hname : some p = some q := by
    rw [← p.ofName?_name, ← q.ofName?_name, hword.1]
  exact ⟨Option.some.inj hname, Option.some.inj hword.2⟩

/-- An option without a value is neither an argument for one with a value nor a plain one. -/
theorem flag_ne (h : arg = "--pretty" ∨ arg = "-p" ∨ arg = "--script") :
    Word.ofString arg ≠ .plain ∧ (∀ p : Parameter, arg ≠ p.option) ∧
      ∀ (p : Parameter) value, arg ≠ p.assignment value := by
  have hequals : '=' ∉ arg.toList := by rcases h with rfl | rfl | rfl <;> decide
  refine ⟨?_, fun p => ?_, fun p value heq => hequals ?_⟩
  · rcases h with rfl | rfl | rfl <;> decide
  · rcases h with rfl | rfl | rfl <;> cases p <;> decide
  · simp [heq, Parameter.assignment]

theorem option_ne_assignment (p q : Parameter) (value : String) :
    p.option ≠ q.assignment value := by
  intro h
  have hword := congrArg Word.ofString h
  rw [Word.ofString_option, Word.ofString_assignment, Word.long.injEq] at hword
  cases hword.2

/-- An argument is the value of one option at most. -/
theorem Settles.unique {p q : Parameter} {v w : String} (h : d.Settles arg p v)
    (h' : d.Settles arg q w) (hplain : ∀ q, d.awaited = some q → Word.ofString arg = .plain) :
    q = p ∧ w = v := by
  rcases h with rfl | ⟨hp, rfl⟩ <;> rcases h' with harg | ⟨hq, rfl⟩
  · obtain ⟨rfl, rfl⟩ := assignment_inj harg
    exact ⟨rfl, rfl⟩
  · cases (Word.ofString_assignment p v).symm.trans (hplain q hq)
  · cases (harg ▸ Word.ofString_assignment q w).symm.trans (hplain p hp)
  · exact ⟨Option.some.inj (hq.symm.trans hp), rfl⟩

theorem not_settles {p : Parameter} {value : String} (hawaited : d.awaited = none)
    (harg : ∀ p value, arg ≠ Parameter.assignment p value) : ¬ d.Settles arg p value := by
  rintro (heq | ⟨h, -⟩)
  · exact harg p value heq
  · cases hawaited.symm.trans h

theorem ne_assignment_of_plain (h : Word.ofString arg = .plain) (p : Parameter) (value : String) :
    arg ≠ p.assignment value := by
  rintro rfl
  cases (Word.ofString_assignment p value).symm.trans h

namespace Adds

variable (h : Adds d arg d')
include h

theorem isLiteral_eq : d'.isLiteral = d.isLiteral := by
  cases h <;> simp

/-- A plain argument that no option awaits is the path of the source, and no other argument is. -/
theorem input_iff (path : String) : d'.input = some path ↔
    d.input = some path ∨ path = arg ∧ Word.ofString arg = .plain ∧ d.awaited = none := by
  cases h with
  | input hawaited hword hinput => simp [hawaited, hword, hinput, eq_comm]
  | pretty _ harg => simp [(flag_ne (harg.imp_right .inl)).1]
  | script _ harg => simp [(flag_ne (.inr (.inr harg))).1]
  | awaits p _ harg =>
    have hne : Word.ofString arg ≠ .plain := by simp [harg, Word.ofString_option]
    simp [hne]
  | sets p value x hsettles =>
    have hne : ¬ (Word.ofString arg = .plain ∧ d.awaited = none) := by
      rintro ⟨hword, hawaited⟩
      rcases hsettles with rfl | ⟨hp, -⟩
      · cases (Word.ofString_assignment p value).symm.trans hword
      · cases hawaited.symm.trans hp
    simp [hne]

/-- An argument for an option without a value turns this on, and no other argument does. -/
theorem flag_or :
    (¬ (arg = "--pretty" ∨ arg = "-p" ∨ arg = "--script") ∧ d'.pretty = d.pretty ∧
      d'.script = d.script) ∨
    ((arg = "--pretty" ∨ arg = "-p") ∧ d' = { d with pretty := true }) ∨
    (arg = "--script" ∧ d' = { d with script := true }) := by
  cases h with
  | input _ hword => exact .inl ⟨fun hflag => (flag_ne hflag).1 hword, rfl, rfl⟩
  | pretty _ harg => exact .inr (.inl ⟨harg, rfl⟩)
  | script _ harg => exact .inr (.inr ⟨harg, rfl⟩)
  | awaits p _ harg => exact .inl ⟨fun hflag => (flag_ne hflag).2.1 p harg, rfl, rfl⟩
  | sets p value x hsettles hplain =>
    refine .inl ⟨fun hflag => ?_, pretty_set .., script_set ..⟩
    rcases hsettles with harg | ⟨hawaited, -⟩
    · exact (flag_ne hflag).2.2 p value harg
    · exact (flag_ne hflag).1 (hplain p hawaited)

theorem pretty_iff : d'.pretty ↔ d.pretty ∨ arg = "--pretty" ∨ arg = "-p" := by
  rcases h.flag_or with ⟨hne, hpretty, -⟩ | ⟨harg, rfl⟩ | ⟨rfl, rfl⟩
  · simp_all
  · simp [harg]
  · simp

theorem script_iff : d'.script ↔ d.script ∨ arg = "--script" := by
  rcases h.flag_or with ⟨hne, -, hscript⟩ | ⟨harg, rfl⟩ | ⟨rfl, rfl⟩
  · simp_all
  · rcases harg with rfl | rfl <;> simp
  · simp

/-- An option awaits its value directly behind the argument that calls for it. -/
theorem awaited_iff (p : Parameter) : d'.awaited = some p ↔ arg = p.option := by
  cases h with
  | input hawaited hword =>
    have hne : arg ≠ p.option := by
      rintro rfl
      cases (Word.ofString_option p).symm.trans hword
    simp [hawaited, hne]
  | pretty hawaited harg =>
    have hne : arg ≠ p.option := (flag_ne (harg.imp_right .inl)).2.1 p
    simp [hawaited, hne]
  | script hawaited harg =>
    have hne : arg ≠ p.option := (flag_ne (.inr (.inr harg))).2.1 p
    simp [hawaited, hne]
  | awaits q hawaited harg =>
    simp only [Option.some.injEq, harg, Parameter.option_inj]
  | sets q value x hsettles hplain =>
    have hne : arg ≠ p.option := by
      rintro rfl
      rcases hsettles with harg | ⟨hawaited, -⟩
      · exact option_ne_assignment p q value harg
      · cases (Word.ofString_option p).symm.trans (hplain q hawaited)
    simp [hne]

/-- An argument that is a value sets its option, and no other argument sets any. -/
theorem settles_or : ((∀ p value, ¬ d.Settles arg p value) ∧ ∀ p, d'.value? p = d.value? p) ∨
    ∃ q value x, (∀ p v, d.Settles arg p v ↔ p = q ∧ v = value) ∧ d.value? q = none ∧
      q.read? value = some x ∧ d' = d.set q x := by
  cases h with
  | input hawaited hword =>
    exact .inl ⟨fun p value => not_settles hawaited (ne_assignment_of_plain hword),
      fun p => by cases p <;> rfl⟩
  | pretty hawaited harg =>
    have hne := (flag_ne (harg.imp_right .inl)).2.2
    exact .inl ⟨fun p value => not_settles hawaited hne, fun p => by cases p <;> rfl⟩
  | script hawaited harg =>
    have hne := (flag_ne (.inr (.inr harg))).2.2
    exact .inl ⟨fun p value => not_settles hawaited hne, fun p => by cases p <;> rfl⟩
  | awaits q hawaited harg =>
    exact .inl ⟨fun p value => not_settles hawaited (harg ▸ option_ne_assignment q),
      fun p => by cases p <;> rfl⟩
  | sets q value x hsettles hplain hvalue hread =>
    have hiff (p : Parameter) (v : String) : d.Settles arg p v ↔ p = q ∧ v = value := by
      refine ⟨fun h => hsettles.unique h hplain, ?_⟩
      rintro ⟨rfl, rfl⟩
      exact hsettles
    exact .inr ⟨q, value, x, hiff, hvalue, hread, rfl⟩

/-- An option is set to what an argument that is its value says. -/
theorem value?_iff (p : Parameter) (x : p.Value) : d'.value? p = some x ↔
    d.value? p = some x ∨ ∃ value, d.Settles arg p value ∧ p.read? value = some x := by
  rcases h.settles_or with ⟨hnone, hvalue⟩ | ⟨q, value, y, hsettles, hvalue, hread, rfl⟩
  · simp [hnone, hvalue]
  · simp only [hsettles]
    by_cases hp : p = q
    · subst hp
      simp [value?_set_self, hvalue, hread]
    · simp [value?_set_of_ne d y hp, hp]

theorem isSome_read? {p : Parameter} {value : String} (hsettles : d.Settles arg p value) :
    (p.read? value).isSome := by
  rcases h.settles_or with ⟨hnone, -⟩ | ⟨q, value', x, hiff, -, hread, -⟩
  · exact absurd hsettles (hnone p value)
  · obtain ⟨rfl, rfl⟩ := (hiff p value).1 hsettles
    exact Option.isSome_of_mem hread

end Adds

end Draft

/-! ## Whole command lines -/

theorem sets_concat {args : List String} {arg option value : String} :
    Sets (args ++ [arg]) option value ↔ Sets args option value ∨
      arg = option ++ "=" ++ value ∨ args.getLast? = some option ∧ arg = value := by
  have hsuffix : [option, value] <:+ args ++ [arg] ↔ args.getLast? = some option ∧ arg = value := by
    rw [← List.singleton_suffix_iff_getLast?_eq_some, List.suffix_concat_iff]
    constructor
    · rintro (h | ⟨init, h, hinit⟩)
      · cases h
      · have hsplit : [option] ++ [value] = init ++ [arg] := h
        obtain ⟨rfl, hvalue⟩ := List.append_inj' hsplit rfl
        exact ⟨hinit, (List.singleton_inj.1 hvalue).symm⟩
    · rintro ⟨h, rfl⟩
      exact .inr ⟨[option], rfl, h⟩
  rw [Sets, Sets, List.infix_concat_iff, hsuffix]
  simp only [List.mem_append, List.mem_singleton]
  tauto

theorem positional_concat {args : List String} {arg path : String} :
    Positional (args ++ [arg]) path ↔ Positional args path ∨ path = arg ∧
      Word.ofString arg = .plain ∧ ∀ option ∈ args.getLast?, option ∉ valueOptions := by
  rw [Positional, Positional]
  constructor
  · rintro ⟨hplain, init, rest, hsplit, hinit⟩
    rcases List.eq_nil_or_concat rest with rfl | ⟨rest, last, rfl⟩
    · obtain ⟨rfl, hpath⟩ := List.append_inj' hsplit rfl
      obtain rfl := List.singleton_inj.1 hpath
      exact .inr ⟨rfl, Word.ofString_eq_plain.2 hplain, hinit⟩
    · have hsplit : args ++ [arg] = (init ++ path :: rest) ++ [last] := by simp [hsplit]
      exact .inl ⟨hplain, init, rest, (List.append_inj' hsplit rfl).1, hinit⟩
  · rintro (⟨hplain, init, rest, rfl, hinit⟩ | ⟨rfl, hplain, hinit⟩)
    · exact ⟨hplain, init, rest ++ [arg], by simp, hinit⟩
    · exact ⟨Word.ofString_eq_plain.1 hplain, args, [], rfl, hinit⟩

namespace Draft

/-- A draft tells of the options among some arguments. -/
structure Reflects (d : Draft) (args : List String) : Prop where
  isLiteral : d.isLiteral = false
  input : ∀ path, d.input = some path ↔ Positional args path
  pretty : d.pretty ↔ "--pretty" ∈ args ∨ "-p" ∈ args
  script : d.script ↔ "--script" ∈ args
  awaited : ∀ p : Parameter, d.awaited = some p ↔ args.getLast? = some p.option
  value? : ∀ (p : Parameter) (x : p.Value), d.value? p = some x ↔
    ∃ value, Sets args p.option value ∧ p.read? value = some x
  fits : ∀ (p : Parameter) value, Sets args p.option value → (p.read? value).isSome

variable {d d' : Draft} {args rest : List String} {arg : String}

/-- No value is awaited behind an argument that does not call for one. -/
theorem Reflects.awaited_eq_none (hd : d.Reflects args) :
    d.awaited = none ↔ ∀ option ∈ args.getLast?, option ∉ valueOptions := by
  rw [Option.eq_none_iff_forall_ne_some]
  simp only [ne_eq, hd.awaited, Parameter.mem_valueOptions, not_exists, Option.mem_def]
  constructor
  · rintro h option hoption p rfl
    exact h p hoption
  · exact fun h p hp => h _ hp p rfl

theorem Adds.reflects (h : d.Adds arg d') (hd : d.Reflects args) : d'.Reflects (args ++ [arg]) := by
  have hsettles (p : Parameter) (value : String) : Sets (args ++ [arg]) p.option value ↔
      Sets args p.option value ∨ d.Settles arg p value := by
    rw [sets_concat, ← hd.awaited]
    rfl
  refine ⟨h.isLiteral_eq.trans hd.isLiteral, fun path => ?_, ?_, ?_, fun p => ?_,
    fun p x => ?_, fun p value hsets => ?_⟩
  · rw [h.input_iff, hd.input, hd.awaited_eq_none, positional_concat]
  · rw [h.pretty_iff, hd.pretty]
    simp only [List.mem_append, List.mem_singleton]
    tauto
  · rw [h.script_iff, hd.script]
    simp only [List.mem_append, List.mem_singleton]
    tauto
  · simp [h.awaited_iff]
  · rw [h.value?_iff, hd.value?]
    simp only [hsettles, or_and_right, exists_or]
  · rcases (hsettles p value).1 hsets with hsets | hsets
    · exact hd.fits p value hsets
    · exact h.isSome_read? hsets

/-- Argument by argument, a draft keeps up with the options. -/
theorem Reflects.run (hd : d.Reflects args) (hrest : "--" ∉ rest)
    (h : rest.foldlM add d = .ok d') : d'.Reflects (args ++ rest) := by
  induction rest generalizing d args with
  | nil =>
    cases h
    rwa [List.append_nil]
  | cons arg rest ih =>
    rw [List.mem_cons, not_or] at hrest
    rw [List.foldlM_cons] at h
    obtain ⟨d₁, hadd, h⟩ := exists_ok_of_bind h
    have hd₁ := (adds_of_add hd.isLiteral (Ne.symm hrest.1) hadd).reflects hd
    rw [List.append_cons]
    exact ih hd₁ hrest.2 h

end Draft

end Command

end Estree
