import BindingRules.Guard
import BindingRules.Sorted

set_option autoImplicit false

/-!
# Dependency graphs

A dependency graph has modules and edges; an edge from a module to another says that the first one
needs the second. Modules and edges are kept in increasing order, no module needs itself, and both
ends of every edge are modules of the graph.

## Main definitions

* `Graph`, `Graph.ofLists` — dependency graphs.
* `Graph.addModule`, `Graph.addEdge`, `Graph.removeEdge`, `Graph.removeModule`,
  `Graph.filterEdges` — how they change.
* `Graph.dependencies`, `Graph.dependents` — what a module needs, and what needs it.
-/

namespace BindingRules

/-- Modules and the dependencies among them. -/
structure Graph where
  /-- The modules, in increasing order. -/
  modules : List String
  /-- The dependencies, in increasing order. -/
  edges : List Edge
  /-- The order of the modules. -/
  modules_increasing : Increasing textLt modules
  /-- The order of the dependencies. -/
  edges_increasing : Increasing Edge.lt edges
  /-- Both ends of a dependency are modules. -/
  ends_mem : ∀ e ∈ edges, e.source ∈ modules ∧ e.target ∈ modules
  /-- No module needs itself. -/
  source_ne_target : ∀ e ∈ edges, e.source ≠ e.target
  deriving DecidableEq, Repr

namespace Graph

/-- The graph without modules. -/
def empty : Graph where
  modules := []
  edges := []
  modules_increasing := List.Pairwise.nil
  edges_increasing := List.Pairwise.nil
  ends_mem := by simp
  source_ne_target := by simp

/-- Adds a module without dependencies, unless it is there already. -/
def addModule (g : Graph) (m : String) : Graph where
  modules := Sorted.insert textLt m g.modules
  edges := g.edges
  modules_increasing := Sorted.increasing_insert strictTotal_textLt m g.modules_increasing
  edges_increasing := g.edges_increasing
  ends_mem e he :=
    ⟨(Sorted.mem_insert strictTotal_textLt).2 (.inr (g.ends_mem e he).1),
      (Sorted.mem_insert strictTotal_textLt).2 (.inr (g.ends_mem e he).2)⟩
  source_ne_target := g.source_ne_target

/-- Adds an edge between two different modules of the graph. -/
def connect (g : Graph) (e : Edge) (ends : e.source ∈ g.modules ∧ e.target ∈ g.modules)
    (ne : e.source ≠ e.target) : Graph where
  modules := g.modules
  edges := Sorted.insert Edge.lt e g.edges
  modules_increasing := g.modules_increasing
  edges_increasing := Sorted.increasing_insert Edge.strictTotal_lt e g.edges_increasing
  ends_mem f hf := by
    rcases (Sorted.mem_insert Edge.strictTotal_lt).1 hf with rfl | hf
    · exact ends
    · exact g.ends_mem f hf
  source_ne_target f hf := by
    rcases (Sorted.mem_insert Edge.strictTotal_lt).1 hf with rfl | hf
    · exact ne
    · exact g.source_ne_target f hf

/-- The modules behind an added module. -/
theorem mem_modules_addModule {g : Graph} {m n : String} :
    n ∈ (g.addModule m).modules ↔ n = m ∨ n ∈ g.modules :=
  Sorted.mem_insert strictTotal_textLt

/-- Adds an edge and its ends. An edge from a module to itself adds the module alone. -/
def addEdge (g : Graph) (e : Edge) : Graph :=
  let withEnds := (g.addModule e.target).addModule e.source
  if ne : e.source = e.target then withEnds
  else withEnds.connect e (by simp [withEnds, mem_modules_addModule]) ne

/-- Keeps all modules and the edges with a property. -/
def filterEdges (g : Graph) (keep : Edge → Bool) : Graph where
  modules := g.modules
  edges := g.edges.filter keep
  modules_increasing := g.modules_increasing
  edges_increasing := g.edges_increasing.filter _
  ends_mem e he := g.ends_mem e (List.mem_filter.1 he).1
  source_ne_target e he := g.source_ne_target e (List.mem_filter.1 he).1

/-- Removes an edge and keeps its ends. -/
def removeEdge (g : Graph) (e : Edge) : Graph := g.filterEdges (· != e)

/-- Removes a module and all edges at it. -/
def removeModule (g : Graph) (m : String) : Graph where
  modules := g.modules.filter (· != m)
  edges := g.edges.filter fun e => e.source != m && e.target != m
  modules_increasing := g.modules_increasing.filter _
  edges_increasing := g.edges_increasing.filter _
  ends_mem e he := by
    simp only [List.mem_filter, Bool.and_eq_true] at he ⊢
    exact ⟨⟨(g.ends_mem e he.1).1, he.2.1⟩, (g.ends_mem e he.1).2, he.2.2⟩
  source_ne_target e he := g.source_ne_target e (List.mem_filter.1 he).1

/-- The graph with the given modules and edges. -/
def ofLists (modules : List String) (edges : List Edge) : Graph :=
  edges.foldl addEdge (modules.foldl addModule empty)

/-- Whether a module belongs to the graph. -/
def contains (g : Graph) (m : String) : Bool := g.modules.contains m

/-- Whether an edge belongs to the graph. -/
def hasEdge (g : Graph) (e : Edge) : Bool := g.edges.contains e

/-- What a module needs, in increasing order. -/
def dependencies (g : Graph) (m : String) : List String :=
  (g.edges.filter (·.source == m)).map Edge.target

/-- The modules that need a module, in increasing order. -/
def dependents (g : Graph) (m : String) : List String :=
  (g.edges.filter (·.target == m)).map Edge.source

variable {g : Graph} {m n : String} {e f : Edge}

/-- The modules of a graph do not repeat. -/
theorem nodup_modules (g : Graph) : g.modules.Nodup := g.modules_increasing.nodup strictTotal_textLt

/-- The edges of a graph do not repeat. -/
theorem nodup_edges (g : Graph) : g.edges.Nodup := g.edges_increasing.nodup Edge.strictTotal_lt

/-- An edge adds its ends to the modules. -/
theorem mem_modules_addEdge :
    n ∈ (g.addEdge e).modules ↔ n = e.source ∨ n = e.target ∨ n ∈ g.modules := by
  by_cases h : e.source = e.target
  · simp [addEdge, h, mem_modules_addModule]
  · simp [addEdge, h, connect, mem_modules_addModule]

/-- An edge between different modules is added to the edges. -/
theorem mem_edges_addEdge :
    f ∈ (g.addEdge e).edges ↔ (f = e ∧ e.source ≠ e.target) ∨ f ∈ g.edges := by
  by_cases h : e.source = e.target
  · simp [addEdge, addModule, h]
  · simp [addEdge, connect, addModule, Sorted.mem_insert Edge.strictTotal_lt, h]

/-- Only the edge itself is removed. -/
theorem mem_edges_removeEdge : f ∈ (g.removeEdge e).edges ↔ f ∈ g.edges ∧ f ≠ e := by
  simp [removeEdge, filterEdges]

/-- Only the module itself is removed. -/
theorem mem_modules_removeModule : n ∈ (g.removeModule m).modules ↔ n ∈ g.modules ∧ n ≠ m := by
  simp [removeModule]

/-- Only the edges at the module are removed. -/
theorem mem_edges_removeModule :
    f ∈ (g.removeModule m).edges ↔ f ∈ g.edges ∧ f.source ≠ m ∧ f.target ≠ m := by
  simp [removeModule]

/-- What a module needs stands at the end of an edge from it. -/
theorem mem_dependencies : n ∈ g.dependencies m ↔ Edge.mk m n ∈ g.edges := by
  simp only [dependencies, List.mem_map, List.mem_filter, beq_iff_eq]
  constructor
  · rintro ⟨e, ⟨he, rfl⟩, rfl⟩
    exact he
  · exact fun h => ⟨_, ⟨h, rfl⟩, rfl⟩

/-- What needs a module stands at the start of an edge to it. -/
theorem mem_dependents : n ∈ g.dependents m ↔ Edge.mk n m ∈ g.edges := by
  simp only [dependents, List.mem_map, List.mem_filter, beq_iff_eq]
  constructor
  · rintro ⟨e, ⟨he, rfl⟩, rfl⟩
    exact he
  · exact fun h => ⟨_, ⟨h, rfl⟩, rfl⟩

end Graph

end BindingRules
