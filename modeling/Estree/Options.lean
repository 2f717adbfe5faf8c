import Estree.Json.Basic
import Estree.Toml.Basic

/-!
# Options of a conversion

Options are read from a JSON value or a TOML table by the same rules: each has a default, unknown
keys are ignored, and a key with a value that does not fit refuses the whole. A choice between names
is written as the name itself or as a table with that name as its only key and nothing in it.
-/

namespace Estree

/-- Whether a program is a module or a script. -/
inductive SourceType where
  | module
  | script
  deriving DecidableEq, Repr, Inhabited

namespace SourceType

def name : SourceType → String
  | module => "module"
  | script => "script"

def ofName? : String → Option SourceType
  | "module" => some module
  | "script" => some script
  | _ => none

theorem ofName?_name (t : SourceType) : ofName? t.name = some t := by cases t <;> rfl

end SourceType

/-- The version of the language that a program is meant for. -/
inductive Target where
  | es5
  | es2015
  | esNext
  deriving DecidableEq, Repr, Inhabited

namespace Target

/-- The label of a target in the event log. -/
def label : Target → String
  | es5 => "Es5"
  | es2015 => "Es2015"
  | esNext => "EsNext"

def ofName? : String → Option Target
  | "es5" => some es5
  | "es2015" | "es6" => some es2015
  | "esnext" => some esNext
  | _ => none

end Target

structure Options where
  fileName : String := "module.ts"
  sourceType : SourceType := .module
  target : Target := .esNext
  deriving DecidableEq, Repr, Inhabited

/-- What a value can tell as an option: a text, the only name in a table that holds nothing under
it, or nothing of use. -/
inductive Setting where
  | text (s : String)
  | tagged (name : String)
  | other
  deriving DecidableEq, Repr

namespace Setting

def text? : Setting → Option String
  | text s => some s
  | _ => none

/-- The name that a setting chooses. -/
def choice? : Setting → Option String
  | text s | tagged s => some s
  | other => none

def ofJson : Json → Setting
  | .string s => text s
  | .object [(name, .null)] => tagged name
  | _ => other

def ofToml : Toml → Setting
  | .string s => text s
  | .table [(name, .table [])] | .table [(name, .array [])] => tagged name
  | _ => other

end Setting

namespace Options

/-- The value of an optional key: its default if the key is absent, none if its value does not
fit. -/
def read? {α : Type} (default : α) (fit : Setting → Option α) : Option Setting → Option α
  | none => some default
  | some s => fit s

/-- Reads options from the settings of their keys. -/
def ofSettings? (setting : String → Option Setting) : Option Options := do
  let d : Options := {}
  let fileName ← read? d.fileName (·.text?) (setting "file_name")
  let sourceType ← read? d.sourceType (·.choice?.bind SourceType.ofName?) (setting "source_type")
  let target ← read? d.target (·.choice?.bind Target.ofName?) (setting "target")
  return { fileName, sourceType, target }

/-- Reads options from a JSON object. -/
def ofJson? : Json → Option Options
  | .object members => ofSettings? fun key => (Json.lookup key members).map Setting.ofJson
  | _ => none

/-- Reads options from a TOML table. -/
def ofToml? (t : Toml) : Option Options :=
  ofSettings? fun key => (t.get? key).map Setting.ofToml

end Options

end Estree
