import BindingRules.Graph.Basic

set_option autoImplicit false

/-!
# Components and paths

Modules that reach each other form a component. The components are found in two passes: a depth
first search along the edges puts the modules into the order in which it finishes them, and the
last one finished that has no component yet begins one with all that reach it and have none.

## Main definitions

* `Graph.explore` — what is reached along edges, in any number of steps.
* `Graph.finishOrder` — the order of the first pass.
* `Graph.components` — the classes of modules that reach each other.
* `Graph.pathWithin` — a shortest path that stays inside a set of modules.
-/

namespace BindingRules.Graph

/-- Whatever is reached from `seen` along `next` in at most the given number of rounds. The last
round found `frontier`. -/
def explore (next : String → List String) : (rounds : Nat) → (seen frontier : List String) →
    List String
  | 0, seen, _ => seen
  | rounds + 1, seen, frontier =>
    let fresh := (frontier.flatMap next).eraseDups.filter fun m => !seen.contains m
    if fresh.isEmpty then seen else explore next rounds (seen ++ fresh) fresh

/-- A depth first search: the modules that were visited, and those that were left, the last one
first. A module is left when everything behind it has been visited. -/
structure Traversal where
  /-- The modules visited so far. -/
  visited : List String := []
  /-- The modules left so far. -/
  finished : List String := []

/-- Visits a module and what it leads to, unless it was visited before. The number bounds how deep
the search may go. -/
def Traversal.visit (next : String → List String) : (depth : Nat) → Traversal → String → Traversal
  | 0, t, _ => t
  | depth + 1, t, m =>
    if t.visited.contains m then t
    else
      let t := (next m).foldl (Traversal.visit next depth) { t with visited := m :: t.visited }
      { t with finished := m :: t.finished }

/-- The modules in the order in which a depth first search leaves them, the last one first. -/
def finishOrder (g : Graph) : List String :=
  (g.modules.foldl (Traversal.visit g.dependencies g.modules.length) {}).finished

/-- The modules from which `root` is reached without passing through those in `assigned`, in
increasing order. -/
def gather (g : Graph) (assigned : List String) (root : String) : List String :=
  let next := fun m => (g.dependents m).filter fun n => !assigned.contains n
  Sorted.ofList textLt (explore next g.modules.length [root] [root])

/-- The components of the modules in `roots` that are not in `assigned`. Each module begins a
component, unless it belongs to one already. -/
def gatherAll (g : Graph) : (assigned roots : List String) → List (List String)
  | _, [] => []
  | assigned, root :: roots =>
    if assigned.contains root then g.gatherAll assigned roots
    else
      let members := g.gather assigned root
      members :: g.gatherAll (members ++ assigned) roots

/-- The classes of modules that reach each other, each in increasing order, in increasing order. -/
def components (g : Graph) : List (List String) :=
  (g.gatherAll [] g.finishOrder).mergeSort fun a b => !b.lex a textLt

/-- Paths that are one module longer than `paths`, towards modules of `within` that are not in
`seen` yet, with the modules they have added to `seen`. A path is given last module first. -/
def extendPaths (g : Graph) (within : String → Bool) (seen : List String) :
    List (List String) → List (List String) × List String
  | [] => ([], seen)
  | path :: paths =>
    let fresh := (path.head?.elim [] g.dependencies).filter fun m =>
      within m && !seen.contains m
    let (rest, seen) := extendPaths g within (seen ++ fresh) paths
    (fresh.map (· :: path) ++ rest, seen)

/-- The first path that ends in `target`, among `paths` and their extensions by at most the given
number of modules. Paths are given last module first. -/
def searchPath (g : Graph) (target : String) (within : String → Bool) :
    (rounds : Nat) → (seen : List String) → (paths : List (List String)) → Option (List String)
  | rounds, seen, paths =>
    match paths.find? fun path => path.head? == some target with
    | some path => some path.reverse
    | none =>
      match rounds with
      | 0 => none
      | rounds + 1 =>
        let (paths, seen) := extendPaths g within seen paths
        if paths.isEmpty then none else searchPath g target within rounds seen paths

/-- A shortest path from `source` to `target` of which all modules but the first are in `within`:
the first one when modules are visited in their order. -/
def pathWithin (g : Graph) (source target : String) (within : String → Bool) :
    Option (List String) :=
  searchPath g target within g.modules.length [source] [[source]]

end BindingRules.Graph
