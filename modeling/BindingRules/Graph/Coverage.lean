import BindingRules.Graph.Reach

set_option autoImplicit false

/-!
# Guards on dependency cycles

A dependency cycle makes it impossible to generate every module after those it needs, unless
guards break it. A project either demands a guard on every edge that lies on a cycle, or is content
with one guarded edge on each cycle.

## Main definitions

* `Coverage` — how many guards a cycle needs.
* `UnbrokenCycle`, `Graph.unbrokenCycles` — the cycles that guards do not break.
* `Graph.uncoveredCycles` — what is missing where every edge on a cycle needs a guard.
* `Graph.Search`, `Graph.backEdgeCycles` — what is missing where one guard on each cycle is enough.
* `Placement`, `Graph.placements` — where the generator puts the guarded references.
* `Guards.redundancies` — warnings for edges with guards of both sorts.
-/

namespace BindingRules

/-- How many guards a cycle needs. -/
inductive Coverage where
  /-- A guard on every edge. -/
  | everyEdge
  /-- A guard on one edge. -/
  | anyEdge
  deriving DecidableEq, Repr

/-- The identifier of a coverage. -/
def Coverage.text : Coverage → String
  | everyEdge => "every_edge"
  | anyEdge => "any_edge"

/-- All coverages. -/
def Coverage.all : List Coverage := [everyEdge, anyEdge]

/-- A dependency cycle with an edge that should have a guard. -/
structure UnbrokenCycle where
  /-- The edge. -/
  edge : Edge
  /-- The modules on the cycle, from the source of the edge back to it. -/
  cycle : List String
  deriving DecidableEq, Repr

namespace UnbrokenCycle

/-- The wording of the complaint. -/
def message (c : UnbrokenCycle) : String :=
  "unbroken dependency cycle " ++ String.intercalate " -> " c.cycle ++ ": edge " ++
    c.edge.source ++ " -> " ++ c.edge.target ++ " has no guard"

/-- The complaint as a diagnostic. -/
def diagnostic (c : UnbrokenCycle) (severity : Severity) : Diagnostic :=
  { severity, kind := .unbrokenCycle, message := c.message }

end UnbrokenCycle

/-- Where the generator puts a guarded reference. -/
inductive Site where
  /-- A forward declaration takes the place of the reference. -/
  | declaration
  /-- The reference moves into the body of a function. -/
  | callSite
  deriving DecidableEq, Repr

/-- The identifier of a site. -/
def Site.text : Site → String
  | declaration => "declaration"
  | callSite => "call_site"

/-- What is decided for a guarded edge. -/
structure Placement where
  /-- The edge. -/
  edge : Edge
  /-- Where the reference goes. -/
  site : Site
  /-- What the guards on the edge name as the place of the reference, in their order. -/
  anchors : List String
  /-- Whether the edge lies on a dependency cycle. -/
  onCycle : Bool
  /-- Whether the edge has guards of both sorts. -/
  redundant : Bool
  deriving DecidableEq, Repr

namespace Guards

/-- Whether an edge has a guard of the given sort. -/
def hasKind (g : Guards) (e : Edge) (kind : GuardKind) : Bool := (g.onEdge e).any (·.kind == kind)

/-- Whether an edge has guards of both sorts. -/
def isRedundant (g : Guards) (e : Edge) : Bool :=
  g.hasKind e .importGuard && g.hasKind e .callGuard

/-- The greatest location of the guards on an edge. -/
def lastLocation? (g : Guards) (e : Edge) : Option Location :=
  leastBy? (fun a b => !a.le b) ((g.onEdge e).map Guard.location)

/-- The warning about an edge with guards of both sorts. -/
def redundancy (g : Guards) (e : Edge) : Diagnostic :=
  { severity := .warning
    kind := .redundantGuard
    location := g.lastLocation? e
    message := e.source ++ " -> " ++ e.target ++
      " has both an import guard and a call guard; the import guard is used" }

/-- The warnings about edges with guards of both sorts. -/
def redundancies (g : Guards) : List Diagnostic := (g.edges.filter g.isRedundant).map g.redundancy

end Guards

namespace Graph

/-- Whether two modules belong to the same of several components. -/
def sameComponent (components : List (List String)) (a b : String) : Bool :=
  match components.findIdx? (·.contains a), components.findIdx? (·.contains b) with
  | some i, some j => i == j
  | _, _ => false

/-- Whether an edge of the graph lies on a cycle: its ends belong to the same component. -/
def onCycle (g : Graph) (components : List (List String)) (e : Edge) : Bool :=
  g.hasEdge e && sameComponent components e.source e.target

/-- The graph of the edges without guards. -/
def unguarded (g : Graph) (guards : Guards) : Graph := g.filterEdges fun e => !guards.isGuarded e

/-- A cycle through an edge between members of a component: the edge, and a shortest way back inside
the component. -/
def cycleThrough (g : Graph) (members : List String) (e : Edge) : List String :=
  e.source :: (g.pathWithin e.target e.source members.contains).getD []

/-- The edges from a module that lie on cycles and have no guard. -/
def uncoveredFrom (g : Graph) (guards : Guards) (components : List (List String)) (m : String) :
    List Edge :=
  ((g.dependencies m).map (Edge.mk m)).filter fun e =>
    g.onCycle components e && !guards.isGuarded e

/-- The edges on cycles that have no guard, component by component, with the cycles. -/
def uncoveredCycles (g : Graph) (guards : Guards) : List UnbrokenCycle :=
  let components := g.components
  (components.filter fun members => 1 < members.length).flatMap fun members =>
    members.flatMap fun m =>
      (g.uncoveredFrom guards components m).map fun e => ⟨e, g.cycleThrough members e⟩

/-- How far a depth first search is with a module. -/
inductive Colour where
  /-- The module was not visited yet. -/
  | white
  /-- The module is on the path that is being followed. -/
  | grey
  /-- Everything behind the module has been searched. -/
  | black
  deriving DecidableEq, Repr

/-- A module on the path of a search, with the modules it needs that are still to be looked at. -/
structure Frame where
  /-- The module. -/
  node : String
  /-- What is still to be looked at, in its order. -/
  pending : List String
  deriving DecidableEq, Repr

/-- A depth first search for edges that lead back to the path it is following. -/
structure Search where
  /-- The modules on the path, the last one first, with what is pending there. -/
  stack : List Frame := []
  /-- The modules on the path, the last one last. -/
  path : List String := []
  /-- The colours of the modules; a module without an entry is white. -/
  colours : Table String Colour := .empty
  /-- The cycles found so far. -/
  cycles : List UnbrokenCycle := []
  deriving DecidableEq, Repr

namespace Search

/-- The colour of a module. -/
def colour (s : Search) (m : String) : Colour := (s.colours.get? m).getD .white

/-- The search after its path has gone on to a module. -/
def enter (next : String → List String) (m : String) (s : Search) : Search :=
  { s with
    stack := ⟨m, next m⟩ :: s.stack
    path := s.path ++ [m]
    colours := s.colours.insert m .grey }

/-- The search after its path has gone back from its last module, of which nothing is pending. -/
def leave (node : String) (stack : List Frame) (s : Search) : Search :=
  { s with stack, path := s.path.dropLast, colours := s.colours.insert node .black }

/-- The search after an edge from the last module of its path back to a module on the path has been
found: the cycle goes along the edge and then along the path. -/
def report (node m : String) (s : Search) : Search :=
  let start := (s.path.idxOf? m).getD 0
  { s with cycles := s.cycles ++ [⟨⟨node, m⟩, node :: s.path.drop start⟩] }

/-- The search after one of the modules that are pending at the end of its path has been taken up,
and the given ones are left. -/
def takeUp (node : String) (pending : List String) (stack : List Frame) (s : Search) : Search :=
  { s with stack := ⟨node, pending⟩ :: stack }

/-- One step of a search: it takes up the first module that is pending at the end of its path, or
goes back if there is none. -/
def step (next : String → List String) (s : Search) : Search :=
  match s.stack with
  | [] => s
  | ⟨node, []⟩ :: stack => s.leave node stack
  | ⟨node, m :: pending⟩ :: stack =>
    let s := s.takeUp node pending stack
    match s.colour m with
    | .white => s.enter next m
    | .grey => s.report node m
    | .black => s

/-- The search when its path has been followed back to its beginning, or after the given number of
steps. -/
def run (next : String → List String) : (steps : Nat) → Search → Search
  | 0, s => s
  | steps + 1, s => if s.stack.isEmpty then s else run next steps (s.step next)

end Search

/-- As many steps as a search through the given modules takes: it enters and leaves each of them
once, and looks at each dependency once. -/
def searchSteps (g : Graph) : List String → Nat
  | [] => 0
  | m :: ms => (g.dependencies m).length + 2 + g.searchSteps ms

/-- The search after it has begun at a module, unless that one was visited before. -/
def Search.start (g : Graph) (s : Search) (root : String) : Search :=
  if s.colour root = .white then
    Search.run g.dependencies (g.searchSteps g.modules)
      (Search.enter g.dependencies root { s with stack := [], path := [] })
  else s

/-- The cycles closed by the edges that lead back to a module on the path, when all modules are
searched in their order. -/
def backEdgeCycles (g : Graph) : List UnbrokenCycle := (g.modules.foldl (Search.start g) {}).cycles

/-- The cycles that guards do not break. -/
def unbrokenCycles (g : Graph) (guards : Guards) : Coverage → List UnbrokenCycle
  | .everyEdge => g.uncoveredCycles guards
  | .anyEdge => (g.unguarded guards).backEdgeCycles

/-- What is decided for a guarded edge: an import guard goes before a call guard. -/
def placement (g : Graph) (guards : Guards) (components : List (List String)) (e : Edge) :
    Placement :=
  { edge := e
    site := if guards.hasKind e .importGuard then .declaration else .callSite
    anchors := (guards.onEdge e).map Guard.anchor
    onCycle := g.onCycle components e
    redundant := guards.isRedundant e }

/-- What is decided for each guarded edge, in the order of the edges. -/
def placements (g : Graph) (guards : Guards) : List Placement :=
  guards.edges.map (g.placement guards g.components)

end Graph

end BindingRules
