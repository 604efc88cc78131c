import BindingRules.Graph.Coverage
import BindingRules.Ruleset.Reader

set_option autoImplicit false

/-!
# Configuration

Settings that change how rules are resolved. All of them have defaults.

## Main definitions

* `Config`, `Config.release` — the settings, with their defaults, and those for releases.
* `LoadError` — why a configuration or inputs cannot be loaded.
-/

namespace BindingRules

/-- The settings under which rules are resolved. -/
structure Config where
  /-- Whether malformed lines, unbroken cycles and conflicts are errors. -/
  strict : Bool := false
  /-- The platform for which the rules are resolved. -/
  platform : String := "linux"
  /-- How many guards a dependency cycle needs. -/
  coverage : Coverage := .everyEdge
  /-- The priority of the symbols for which no rule states one. -/
  defaultSymbolPriority : Int := 10000
  /-- Whether targets are looked up in the symbol table. -/
  validateSymbols : Bool := true
  deriving DecidableEq, Repr

namespace Config

/-- The settings for releases. -/
def release : Config := { strict := true }

/-- How rule sources are read under the settings. -/
def ruleMode (c : Config) : RuleMode := if c.strict then .strict else .permissive

/-- How serious a condition is that must not occur in a release. -/
def severity (c : Config) : Severity := if c.strict then .error else .warning

end Config

/-- Why a configuration or inputs cannot be loaded. -/
inductive LoadError where
  /-- The file cannot be read. -/
  | unreadable (path : String) (error : FileError)
  /-- The file is no YAML document of the right shape. -/
  | notYaml (path : String)
  /-- The file is no JSON document of the right shape. -/
  | notJson (path : String)
  /-- The text of a configuration is no document of the right shape. -/
  | badConfig
  /-- The text of inputs is no document of the right shape. -/
  | badInputs
  /-- The platform of a configuration is blank. -/
  | blankPlatform
  deriving DecidableEq, Repr

/-- The wording of the complaint. -/
def LoadError.message : LoadError → String
  | unreadable path error => "failed to read " ++ path ++ ": " ++ error.message
  | notYaml path => "failed to parse YAML at " ++ path
  | notJson path => "failed to parse JSON at " ++ path
  | badConfig => "invalid engine configuration"
  | badInputs => "invalid engine configuration: generation inputs"
  | blankPlatform => "invalid engine configuration: platform must not be empty"

end BindingRules
