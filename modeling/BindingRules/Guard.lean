import BindingRules.Sorted
import BindingRules.Store

set_option autoImplicit false

/-!
# Guards

A guard marks a reference from one module to another as safe, so that a dependency cycle may be
broken there. An import guard lets the module import the other one late; a call guard defers a
single function's reference into its body. Several guards may sit on one edge.

## Main definitions

* `Edge` — a reference from one module to another.
* `Guard`, `Guard.ofDirective?` — a guard, and the guard that a directive states.
* `Guards` — all guards, in the order in which they were added.
* `Guards.onEdge`, `Guards.edges`, `Guards.ofModule` — the guards by edge and by module.
-/

namespace BindingRules

/-- A reference from one module to another. -/
@[ext]
structure Edge where
  /-- The module that holds the reference. -/
  source : String
  /-- The module that is referred to. -/
  target : String
  deriving DecidableEq, Repr

/-- The order of edges: by source, then by target. -/
def Edge.lt (a b : Edge) : Bool := pairLt (a.source, a.target) (b.source, b.target)

/-- The order of edges is strict and total. -/
theorem Edge.strictTotal_lt : StrictTotal Edge.lt where
  irrefl _ := strictTotal_pairLt.irrefl _
  trans := strictTotal_pairLt.trans
  eq_of_not_lt hab hba := by
    obtain ⟨hs, ht⟩ := Prod.mk.inj (strictTotal_pairLt.eq_of_not_lt hab hba)
    exact Edge.ext hs ht

/-- The two sorts of guards. -/
inductive GuardKind where
  /-- The module is imported late. -/
  | importGuard
  /-- The reference is deferred into a function's body. -/
  | callGuard
  deriving DecidableEq, Repr

/-- The identifier of a sort of guards. -/
def GuardKind.text : GuardKind → String
  | importGuard => "import"
  | callGuard => "call"

/-- A guarded reference. -/
structure Guard where
  /-- The reference. -/
  edge : Edge
  /-- The sort of the guard. -/
  kind : GuardKind
  /-- The module, type or function that was named as the place of the reference. -/
  anchor : String
  /-- The line that states the guard. -/
  location : Location
  deriving DecidableEq, Repr

namespace Guard

/-- The sort of guards that a kind of directives states. -/
def kindOf? : DirectiveKind → Option GuardKind
  | .importGuard => some .importGuard
  | .callGuard => some .callGuard
  | _ => none

/-- The guard that a directive states. It starts at the module that owns the target. -/
def ofDirective? (d : Directive) : Option Guard := do
  let kind ← kindOf? d.kind
  let target ← d.payload.module?
  return { edge := ⟨Name.moduleOf d.target, target⟩, kind, anchor := d.target,
           location := d.location }

end Guard

/-- Guards in the order in which they were added. -/
structure Guards where
  /-- The guards. -/
  list : List Guard := []
  deriving DecidableEq, Repr

namespace Guards

/-- Adds a guard. -/
def add (g : Guards) (guard : Guard) : Guards := ⟨g.list ++ [guard]⟩

/-- Keeps the guards with a property. -/
def retain (g : Guards) (keep : Guard → Bool) : Guards := ⟨g.list.filter keep⟩

/-- The guards that the live directives of a store state, import guards first. -/
def ofStore (s : Store) : Guards :=
  ⟨(s.directivesOf .importGuard ++ s.directivesOf .callGuard).filterMap Guard.ofDirective?⟩

/-- The guards on an edge, in the order in which they were added. -/
def onEdge (g : Guards) (e : Edge) : List Guard := g.list.filter (·.edge == e)

/-- Whether there is a guard on an edge. -/
def isGuarded (g : Guards) (e : Edge) : Bool := g.list.any (·.edge == e)

/-- The guarded edges, in increasing order. -/
def edges (g : Guards) : List Edge := Sorted.ofList Edge.lt (g.list.map Guard.edge)

/-- The guards on references from a module, edge by edge. -/
def ofModule (g : Guards) (m : String) : List Guard :=
  (g.edges.filter (·.source == m)).flatMap g.onEdge

/-- The number of guarded edges. -/
def size (g : Guards) : Nat := g.edges.length

end Guards

end BindingRules
