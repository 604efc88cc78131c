import BindingRules.Inputs.Basic
import BindingRules.Policy.Basic
import BindingRules.SymbolIndex

set_option autoImplicit false

/-!
# Resolving rules

The directives go into a store, their targets are looked up in the symbol table, the dependency
graph is built from the inputs and the directives, guards are checked against its cycles, and the
modules are ordered. Under strict settings any error on the way means that there is no policy.

## Main definitions

* `Config.fillStore` — the store of the directives, with notes about those for other platforms.
* `dependencyGraph` — the modules to generate and their dependencies.
* `Config.resolve` — the policy of a ruleset.
* `Config.resolveText`, `Config.resolveFiles` — the policy of a text, and of files.
-/

namespace BindingRules

/-- Why there is no policy. -/
inductive ResolveError where
  /-- There are errors among the diagnostics. -/
  | diagnostics (list : List Diagnostic)
  /-- A file with rules cannot be read. -/
  | unreadable (path : String) (error : FileError)
  deriving DecidableEq, Repr

/-- The wording of the complaint. -/
def ResolveError.message : ResolveError → String
  | diagnostics list => "policy resolution failed:\n" ++ Diagnostic.listText list
  | unreadable path error => (RuleError.unreadable path error).message

/-- The complaint about rules that cannot be read, as one about resolving. -/
def ResolveError.ofRuleError : RuleError → ResolveError
  | .malformed line => .diagnostics [line.diagnostic .error]
  | .unreadable path error => .unreadable path error

namespace Config

/-- The note about a directive for another platform. -/
def platformNote (c : Config) (d : Directive) : Diagnostic :=
  { severity := .info
    kind := .platformSkipped
    location := some d.location
    message := "`" ++ d.line ++ "` applies to " ++ d.platform.getD "" ++
      " only; platform is " ++ c.platform }

/-- The notes about a directive that goes into a store: that it is for another platform, and that
the store refuses it. -/
def storeNotes (c : Config) (s : Store) (d : Directive) : List Diagnostic :=
  (if d.active && !d.appliesTo (some c.platform) then [c.platformNote d] else []) ++
    match s.apply d with
    | .ok _ => []
    | .error e => [{ e.diagnostic with severity := c.severity }]

/-- The store after the given directives, and the notes about them. -/
def fillStoreFrom (c : Config) (s : Store) : List Directive → Store × List Diagnostic
  | [] => (s, [])
  | d :: ds =>
    let (filled, notes) := c.fillStoreFrom ((s.apply d).toOption.getD s) ds
    (filled, c.storeNotes s d ++ notes)

/-- The store of the given directives, and the notes about them. -/
def fillStore (c : Config) (directives : List Directive) : Store × List Diagnostic :=
  c.fillStoreFrom { platform := some c.platform } directives

end Config

/-- The edge that a directive drops. -/
def droppedEdge? (d : Directive) : Option Edge :=
  d.payload.module?.map (Edge.mk (Text.trimmed d.target))

/-- Whether a module is excluded from generation. -/
def Store.excludesModule (s : Store) (m : String) : Bool :=
  match Name.normalize m with
  | .ok n => s.isExcluded .moduleExclude n
  | .error _ => false

/-- The modules to generate and their dependencies: those of the inputs and the modules that have
a priority, without dropped edges and excluded modules. -/
def dependencyGraph (s : Store) (inputs : Inputs) : Graph :=
  let known := Graph.ofLists inputs.modules inputs.dependencies
  let sorted := (s.directivesOf .sortPriority).foldl
    (fun (g : Graph) d => g.addModule (Text.trimmed d.target)) known
  let kept := ((s.directivesOf .importExclude).filterMap droppedEdge?).foldl Graph.removeEdge sorted
  (kept.modules.filter s.excludesModule).foldl Graph.removeModule kept

/-- The guards of a store on references between different modules of a graph. -/
def guardsWithin (s : Store) (g : Graph) : Guards :=
  (Guards.ofStore s).retain fun guard =>
    guard.edge.source != guard.edge.target && g.contains guard.edge.source &&
      g.contains guard.edge.target

/-- The priority that the rules state for a module. -/
def priorityOf (s : Store) (m : String) : Option Int :=
  (((s.directivesOf .sortPriority).filter fun d => Text.trimmed d.target == m).filterMap
    (·.payload.priority?)).getLast?

/-- Whether a directive mentions a module, by its target or by its value. -/
def Directive.mentions (d : Directive) (m : String) : Bool :=
  (m != "" && Name.moduleOf d.target == m) || d.payload.module? == some m

/-- The position of the first active directive that mentions a module. -/
def Ruleset.mentionOf (r : Ruleset) (m : String) : Option Nat :=
  (r.activeDirectives.find? (·.mentions m)).map (·.order)

namespace Config

/-- The warnings about targets that are no symbols, if they are asked for and symbols are known. -/
def validate (c : Config) (r : Ruleset) (inputs : Inputs) : List Diagnostic :=
  if c.validateSymbols && !inputs.symbols.isEmpty then
    unknownTargets r.directives (SymbolIndex.ofSymbols inputs.symbols)
  else []

/-- The policy of a ruleset, errors or not. -/
def policyOf (c : Config) (r : Ruleset) (inputs : Inputs) : Policy :=
  let (store, notes) := c.fillStore r.directives
  let graph := dependencyGraph store inputs
  let guards := guardsWithin store graph
  let order := graph.order guards ⟨priorityOf store, r.mentionOf⟩
  { config := c
    ruleset := r
    store
    order := order.order
    guards
    placements := graph.placements guards
    diagnostics :=
      r.malformed.map (·.diagnostic c.severity) ++ notes ++ c.validate r inputs ++
        (graph.unbrokenCycles guards c.coverage).map (·.diagnostic c.severity) ++
        guards.redundancies ++ order.conflicts.map (·.diagnostic c.severity) }

/-- The policy of a ruleset; under strict settings only if there is no error. -/
def resolve (c : Config) (r : Ruleset) (inputs : Inputs) : Except ResolveError Policy :=
  let p := c.policyOf r inputs
  if c.strict && p.diagnostics.any Diagnostic.isError then .error (.diagnostics p.diagnostics)
  else .ok p

/-- The policy of the rules in a text, which is a source with the given name. -/
def resolveText (c : Config) (name text : String) (inputs : Inputs) : Except ResolveError Policy :=
  match Ruleset.ofText c.ruleMode name text with
  | .ok r => c.resolve r inputs
  | .error e => .error (.ofRuleError e)

/-- The policy of the rules in files. -/
def resolveFiles (c : Config) (files : Files) (paths : List String) (inputs : Inputs) :
    Except ResolveError Policy :=
  match Ruleset.ofFiles c.ruleMode files paths with
  | .ok r => c.resolve r inputs
  | .error e => .error (.ofRuleError e)

end Config

end BindingRules
