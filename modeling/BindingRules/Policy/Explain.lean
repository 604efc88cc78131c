import BindingRules.Policy.Basic

set_option autoImplicit false

/-!
# Explanations

An explanation lists all directives that bear on a name, those that do not count included, and
says of each whether it is in force.

## Main definitions

* `Explanation`, `Policy.explain` — the directives that bear on a name.
* `Explanation.json`, `Explanation.text` — an explanation for machines and for readers.
* `Policy.describe` — an explanation with the answers to the main questions.
* `Policy.report` — the diagnostics of a policy with a summary.
-/

namespace BindingRules

/-- Whether a directive counts. -/
inductive DirectiveStatus where
  /-- It is in force. -/
  | effective
  /-- A later directive took its place. -/
  | overridden
  /-- It is commented out. -/
  | inactive
  /-- It is meant for another platform. -/
  | platformSkipped
  deriving DecidableEq, Repr

namespace DirectiveStatus

/-- The identifier of a status. -/
def id : DirectiveStatus → String
  | effective => "effective"
  | overridden => "overridden"
  | inactive => "inactive"
  | platformSkipped => "platform_skipped"

/-- The word for a status. -/
def text : DirectiveStatus → String
  | effective => "effective"
  | overridden => "overridden"
  | inactive => "inactive"
  | platformSkipped => "platform-skipped"

end DirectiveStatus

/-- A directive of an explanation. -/
structure ExplainedDirective where
  /-- The directive. -/
  directive : Directive
  /-- Whether it counts. -/
  status : DirectiveStatus
  deriving DecidableEq, Repr

/-- The directives that bear on a name. -/
structure Explanation where
  /-- The name in normal form. -/
  name : String
  /-- The module that owns it. -/
  module : String
  /-- Whether that module is excluded. -/
  moduleExcluded : Bool
  /-- The name in the bindings, if the rules state one. -/
  bindingName : Option String
  /-- The directives, in their order. -/
  directives : List ExplainedDirective
  deriving DecidableEq, Repr

/-- Whether an inert directive is about a text: its target covers the name that the text stands
for, or has the same text if one of them is no name. -/
def Directive.isAbout (d : Directive) (raw : String) : Bool :=
  match d.targetName, Name.normalize raw with
  | .ok rule, .ok n => rule.covers n
  | .ok rule, .error _ => rule.key == Text.trimmed raw
  | .error _, .ok n => Text.trimmed d.target == n.key
  | .error _, .error _ => Text.trimmed d.target == Text.trimmed raw

namespace Policy

/-- The directives of the store that bear on a text. -/
def explainStored (p : Policy) (raw : String) : List ExplainedDirective :=
  match Name.normalize raw with
  | .error _ => []
  | .ok n =>
    (p.store.affecting n).map fun d =>
      ⟨d, if p.store.overridden.any (·.order == d.order) then .overridden else .effective⟩

/-- The directives that do not count and that are about a text. -/
def explainInert (p : Policy) (raw : String) : List ExplainedDirective :=
  (p.store.inert.filter (·.isAbout raw)).map fun d =>
    ⟨d, if d.active then .platformSkipped else .inactive⟩

/-- The directives that bear on a text. -/
def explain (p : Policy) (raw : String) : Explanation :=
  let name :=
    match Name.normalize raw with
    | .ok n => n.key
    | .error _ => Text.trimmed raw
  let module := Name.moduleOf name
  { name
    module
    moduleExcluded := p.isModuleExcluded module
    bindingName := p.bindingName? raw
    directives := (p.explainStored raw ++ p.explainInert raw).mergeSort fun a b =>
      decide (a.directive.order ≤ b.directive.order) }

end Policy

/-- A location as a JSON value. -/
def Location.json (l : Location) : Json := .obj [("source", .str l.source), ("line", .int l.line)]

/-- A directive of an explanation as a JSON value. -/
def ExplainedDirective.json (e : ExplainedDirective) : Json :=
  .obj [
    ("line", .str e.directive.line),
    ("kind", .str e.directive.kind.text),
    ("location", e.directive.location.json),
    ("source_order", .int e.directive.order),
    ("status", .str e.status.id)]

namespace Explanation

/-- The directives in force. -/
def effective (e : Explanation) : List ExplainedDirective :=
  e.directives.filter (·.status == .effective)

/-- An explanation as a JSON value. -/
def json (e : Explanation) : Json :=
  .obj [
    ("name", .str e.name),
    ("module", .str e.module),
    ("module_excluded", .bool e.moduleExcluded),
    ("python_name", .ofText? e.bindingName),
    ("directives", .arr (e.directives.map ExplainedDirective.json))]

/-- The line for a directive. -/
def directiveLine (e : ExplainedDirective) : String :=
  e.directive.location.text ++ ": " ++ e.directive.line ++ " [" ++ e.status.text ++ "]"

/-- The lines below the title. -/
def lines (e : Explanation) : List String :=
  (if e.moduleExcluded then ["module excluded"] else []) ++
    (e.bindingName.map ("binding name: " ++ ·)).toList ++
    (if e.directives.isEmpty then ["no directives"] else []) ++ e.directives.map directiveLine

/-- An explanation for readers. -/
def text (e : Explanation) : String :=
  e.name ++ " (module " ++ e.module ++ ")\n" ++ String.join (e.lines.map fun l => "  " ++ l ++ "\n")

end Explanation

namespace Policy

/-- An explanation for readers, with the answers to the main questions. -/
def describe (p : Policy) (raw : String) : String :=
  let answers := [
    ("class excluded", p.isClassExcluded raw),
    ("function excluded", p.isFunctionExcluded raw),
    ("immutable", p.isImmutable raw),
    ("nodelete", p.isNoDelete raw)]
  (p.explain raw).text ++
    String.join ((answers.filter (·.2)).map fun a => "  " ++ a.1 ++ "\n")

/-- The diagnostics of a policy with a summary. Notes are shown if all diagnostics are asked
for. -/
def report (p : Policy) (all : Bool) : String :=
  let shown := (Diagnostic.sort p.diagnostics).filter fun d => all || d.severity != .info
  let warnings := p.diagnostics.filter (·.severity == .warning)
  String.join (shown.map fun d => d.text ++ "\n") ++
    "OK: " ++ toString p.ruleset.directives.length ++ " directives, " ++
    toString p.order.length ++ " modules ordered, " ++
    toString p.placements.length ++ " guarded edges, " ++
    toString warnings.length ++ " warnings\n"

end Policy

end BindingRules
