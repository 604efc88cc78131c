import BindingRules.Config.Basic
import BindingRules.Inputs.Basic
import BindingRules.Json.Reader
import BindingRules.Text.Split
import BindingRules.Yaml.Reader
import BindingRules.Yaml.Schema

set_option autoImplicit false

/-!
# Reading generation inputs

Inputs are given in YAML, or in JSON in files with that extension. A blank YAML text states no
facts.

## Main definitions

* `extensionOf?` — the extension of the file with a path.
* `Inputs.ofText`, `Inputs.load` — the inputs of a text, and of a file.
-/

namespace BindingRules

/-- The extension of the file with a path: what follows the last dot of its name, unless the name
starts with that dot. -/
def extensionOf? (path : String) : Option String :=
  let name := ((Text.splitOnceLast? ['/'] path.toList).map (·.2)).getD path.toList
  match Text.splitOnceLast? ['.'] name with
  | some (_ :: _, extension) => some (String.ofList extension)
  | _ => none

namespace Inputs

/-- The inputs that a JSON text states. -/
def ofJsonText? (text : String) : Option Inputs :=
  (Json.readWritten? text).bind fun v => ofDocument? (Datum.ofJson v)

/-- The inputs that a YAML text states, blank or not. -/
def ofYamlText? (text : String) : Option Inputs :=
  if Text.isBlankText text then some {}
  else do
    let root ← ← Yaml.readDocument? text
    ofDocument? (← root.datum? Yaml.greatestDepth)

/-- The inputs of a YAML text. -/
def ofText (text : String) : Except LoadError Inputs :=
  match ofYamlText? text with
  | some inputs => .ok inputs
  | none => .error .badInputs

/-- Whether a file holds JSON. -/
def isJsonFile (path : String) : Bool := (extensionOf? path).map String.toLower == some "json"

/-- The inputs in a file. -/
def load (files : Files) (path : String) : Except LoadError Inputs :=
  match files path with
  | .error e => .error (.unreadable path e)
  | .ok text =>
    if isJsonFile path then
      match ofJsonText? text with
      | some inputs => .ok inputs
      | none => .error (.notJson path)
    else
      match ofYamlText? text with
      | some inputs => .ok inputs
      | none => .error (.notYaml path)

end Inputs

end BindingRules
