import BindingRules.Config.Basic
import BindingRules.Yaml.Reader
import BindingRules.Yaml.Schema

set_option autoImplicit false

/-!
# Reading configurations

A configuration is a YAML mapping from names of settings to their values. A setting that is not
given has its default; a name that is not known, or given twice, is an error.

## Main definitions

* `Config.ofYaml?` — the configuration that a document states.
* `Config.ofText`, `Config.load` — the configuration of a text, and of a file.
-/

namespace BindingRules

namespace Yaml

/-- The text of a scalar, however it is written. -/
def text? : Yaml → Option String
  | scalar _ text _ => some text
  | _ => none

/-- The truth value of a plain scalar. -/
def plainTruth? : Yaml → Option Bool
  | scalar _ text true => truth? text
  | _ => none

/-- The signed integer of 64 bits that a plain scalar is. -/
def plainSigned64? : Yaml → Option Int
  | scalar _ text true => (integer? text.toList).filter Text.fitsSigned64
  | _ => none

/-- The word for one of several choices: a scalar without a tag of its own, or such a tag on
nothing. -/
def choice? : Yaml → Option String
  | scalar (some tag) text plain =>
    if isLocalTag tag then
      if plain && (text.isEmpty || isNull text) then some (String.ofList (tag.toList.drop 1))
      else none
    else some text
  | scalar none text _ => some text
  | _ => none

end Yaml

/-- The coverage with the given identifier. -/
def Coverage.ofText? (word : String) : Option Coverage := all.find? (·.text == word)

namespace Config

/-- A configuration in which the setting `name` has the value of a node. -/
def set? (c : Config) (name : String) (value : Yaml) : Option Config :=
  match name with
  | "strict" => value.plainTruth?.map fun b => { c with strict := b }
  | "platform" => value.text?.map fun s => { c with platform := s }
  | "guard_coverage" =>
    (value.choice?.bind Coverage.ofText?).map fun g => { c with coverage := g }
  | "default_symbol_priority" =>
    value.plainSigned64?.map fun n => { c with defaultSymbolPriority := n }
  | "validate_symbols" => value.plainTruth?.map fun b => { c with validateSymbols := b }
  | _ => none

/-- A configuration with the given settings, none of which may be given twice or be among the
names in `given`. -/
def setAll? (c : Config) (given : List String) : List (Yaml × Yaml) → Option Config
  | [] => some c
  | (key, value) :: rest => do
    let name ← key.text?
    if given.contains name then none else setAll? (← c.set? name value) (name :: given) rest

/-- The configuration that a document states. A text without a document, and an empty document,
state the defaults. -/
def ofYaml? : Option Yaml → Option Config
  | none => some {}
  | some (.mapping _ entries) => setAll? {} [] entries
  | some (.scalar _ text plain) => if plain && text.isEmpty then some {} else none
  | some (.sequence _ _) => none

/-- A configuration for which the platform is not blank. -/
def checked (c : Config) : Except LoadError Config :=
  if Text.isBlankText c.platform then .error .blankPlatform else .ok c

/-- The configuration of a text, or the given error. -/
def ofTextOr (error : LoadError) (text : String) : Except LoadError Config :=
  if Text.isBlankText text then .ok {}
  else
    match (Yaml.readDocument? text).bind ofYaml? with
    | some c => c.checked
    | none => .error error

/-- The configuration of a text. -/
def ofText (text : String) : Except LoadError Config := ofTextOr .badConfig text

/-- The configuration in a file. -/
def load (files : Files) (path : String) : Except LoadError Config :=
  match files path with
  | .error e => .error (.unreadable path e)
  | .ok text => ofTextOr (.notYaml path) text

end Config

end BindingRules
