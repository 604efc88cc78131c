import BindingRules.Policy.Resolve
import Mathlib.Tactic.Tauto

set_option relaxedAutoImplicit false
set_option autoImplicit false

/-!
# The graph of the modules to generate

The dependencies of the inputs become the edges of a graph, apart from those that directives drop
and those at excluded modules. Directives also state which of the edges are guarded.

## Main definitions

* `Store.Drops`, `Store.Guards` — edges that a live directive drops, and those that it guards.
* `keptGraph` — the graph before the excluded modules are removed.

## Main results

* `mem_edges_dependencyGraph` — which dependencies are edges of the graph.
* `mem_modules_dependencyGraph` — which modules the graph has.
* `guards_of_isGuarded` — only what a live directive guards is guarded.
* `mem_of_mem_placements` — placements are decided between different modules of the graph.
-/

namespace BindingRules

variable {s : Store} {inputs : Inputs} {e : Edge} {m n : String}

/-! ## Building a graph -/

namespace Graph

variable {α : Type} {g : Graph} {es : List Edge} {ms : List String}

/-- Adding modules one by one adds all of them. -/
lemma mem_modules_foldl_addModule (name : α → String) (xs : List α) (g : Graph) :
    n ∈ (xs.foldl (fun g x => g.addModule (name x)) g).modules ↔
      n ∈ g.modules ∨ ∃ x ∈ xs, name x = n := by
  induction xs generalizing g with
  | nil => simp
  | cons x xs ih =>
    simp only [List.foldl_cons, ih, mem_modules_addModule, List.mem_cons, exists_eq_or_imp,
      eq_comm (b := name x)]
    tauto

/-- Adding edges one by one adds the modules at their ends, also where an edge leads back to its
own source and is not added itself. -/
lemma mem_modules_foldl_addEdge : n ∈ (es.foldl addEdge g).modules ↔
    n ∈ g.modules ∨ ∃ e ∈ es, n = e.source ∨ n = e.target := by
  induction es generalizing g with
  | nil => simp
  | cons e es ih =>
    simp only [List.foldl_cons, ih, mem_modules_addEdge, List.mem_cons, exists_eq_or_imp]
    rw [← or_assoc (b := n = e.target), or_comm (b := n ∈ g.modules), or_assoc]

/-- The modules of a graph that is made from lists. -/
lemma mem_modules_ofLists : n ∈ (ofLists ms es).modules ↔
    n ∈ ms ∨ ∃ e ∈ es, n = e.source ∨ n = e.target := by
  have hlisted : n ∈ (ms.foldl addModule empty).modules ↔ n ∈ ms := by
    have hadded := mem_modules_foldl_addModule (n := n) id ms empty
    simpa [empty] using hadded
  rw [ofLists, mem_modules_foldl_addEdge, hlisted]

/-- Modules alone bring no edges. -/
lemma edges_foldl_addModule (name : α → String) (xs : List α) (g : Graph) :
    (xs.foldl (fun g x => g.addModule (name x)) g).edges = g.edges := by
  induction xs generalizing g with
  | nil => rfl
  | cons x xs ih => exact ih (g.addModule (name x))

/-- Adding edges one by one adds all of them that lead to a different module. -/
lemma mem_edges_foldl_addEdge :
    e ∈ (es.foldl addEdge g).edges ↔ e ∈ g.edges ∨ e ∈ es ∧ e.source ≠ e.target := by
  induction es generalizing g with
  | nil => simp
  | cons f es ih =>
    rw [List.foldl_cons, ih, mem_edges_addEdge, List.mem_cons]
    constructor
    · rintro ((⟨rfl, hne⟩ | he) | ⟨he, hne⟩)
      · exact .inr ⟨.inl rfl, hne⟩
      · exact .inl he
      · exact .inr ⟨.inr he, hne⟩
    · rintro (he | ⟨rfl | he, hne⟩)
      · exact .inl (.inr he)
      · exact .inl (.inl ⟨rfl, hne⟩)
      · exact .inr ⟨he, hne⟩

/-- The edges of a graph that is made from lists. -/
lemma mem_edges_ofLists : e ∈ (ofLists ms es).edges ↔ e ∈ es ∧ e.source ≠ e.target := by
  have hempty : (ms.foldl addModule empty).edges = [] := edges_foldl_addModule id ms empty
  rw [ofLists, mem_edges_foldl_addEdge, hempty]
  simp

/-- Removing edges one by one removes exactly these. -/
lemma mem_edges_foldl_removeEdge : e ∈ (es.foldl removeEdge g).edges ↔ e ∈ g.edges ∧ e ∉ es := by
  induction es generalizing g with
  | nil => simp
  | cons f es ih =>
    rw [List.foldl_cons, ih, mem_edges_removeEdge, List.mem_cons]
    tauto

/-- Removing edges keeps all modules. -/
lemma modules_foldl_removeEdge (es : List Edge) (g : Graph) :
    (es.foldl removeEdge g).modules = g.modules := by
  induction es generalizing g with
  | nil => rfl
  | cons e es ih => exact ih (g.removeEdge e)

/-- Removing modules one by one removes exactly these. -/
lemma mem_modules_foldl_removeModule :
    n ∈ (ms.foldl removeModule g).modules ↔ n ∈ g.modules ∧ n ∉ ms := by
  induction ms generalizing g with
  | nil => simp
  | cons m ms ih =>
    rw [List.foldl_cons, ih, mem_modules_removeModule, List.mem_cons]
    tauto

/-- Removing modules one by one removes exactly the edges at them. -/
lemma mem_edges_foldl_removeModule : e ∈ (ms.foldl removeModule g).edges ↔
    e ∈ g.edges ∧ e.source ∉ ms ∧ e.target ∉ ms := by
  induction ms generalizing g with
  | nil => simp
  | cons m ms ih =>
    rw [List.foldl_cons, ih, mem_edges_removeModule, List.mem_cons, List.mem_cons]
    tauto

end Graph

/-! ## The edges to generate by -/

namespace Store

/-- A live directive drops the edge. -/
def Drops (s : Store) (e : Edge) : Prop :=
  ∃ d ∈ s.directivesOf .importExclude,
    Text.trimmed d.target = e.source ∧ d.payload.module? = some e.target

/-- A live directive guards the edge: it states a guard between the module that owns its target and
the module that is its value. -/
def Guards (s : Store) (e : Edge) : Prop :=
  ∃ d ∈ s.directivesOf .importGuard ++ s.directivesOf .callGuard,
    Name.moduleOf d.target = e.source ∧ d.payload.module? = some e.target

instance : Decidable (s.Drops e) := by unfold Drops; infer_instance

instance : Decidable (s.Guards e) := by unfold Guards; infer_instance

end Store

/-- The edge that a directive drops starts at its target and ends at its value. -/
lemma droppedEdge?_eq_some {d : Directive} : droppedEdge? d = some e ↔
    Text.trimmed d.target = e.source ∧ d.payload.module? = some e.target := by
  cases e
  rw [droppedEdge?, Option.map_eq_some_iff]
  constructor
  · rintro ⟨m, hm, he⟩
    obtain ⟨rfl, rfl⟩ := Edge.mk.inj he
    exact ⟨rfl, hm⟩
  · rintro ⟨rfl, hm⟩
    exact ⟨_, hm, rfl⟩

/-- The edges that are dropped are those that a live directive drops. -/
lemma mem_droppedEdges :
    e ∈ (s.directivesOf .importExclude).filterMap droppedEdge? ↔ s.Drops e := by
  rw [List.mem_filterMap]
  simp only [droppedEdge?_eq_some]
  rfl

/-- The dependencies of the inputs among the modules known so far, without the dropped ones. -/
def keptGraph (s : Store) (inputs : Inputs) : Graph :=
  ((s.directivesOf .importExclude).filterMap droppedEdge?).foldl Graph.removeEdge
    ((s.directivesOf .sortPriority).foldl
      (fun (g : Graph) d => g.addModule (Text.trimmed d.target))
      (Graph.ofLists inputs.modules inputs.dependencies))

/-- In the end the excluded modules are removed. -/
lemma dependencyGraph_eq (s : Store) (inputs : Inputs) : dependencyGraph s inputs =
    ((keptGraph s inputs).modules.filter s.excludesModule).foldl Graph.removeModule
      (keptGraph s inputs) := rfl

/-- Before that, the edges are the dependencies that are not dropped. -/
lemma mem_edges_keptGraph : e ∈ (keptGraph s inputs).edges ↔
    e ∈ inputs.dependencies ∧ e.source ≠ e.target ∧ ¬ s.Drops e := by
  rw [keptGraph, Graph.mem_edges_foldl_removeEdge, Graph.edges_foldl_addModule,
    Graph.mem_edges_ofLists, mem_droppedEdges, and_assoc]

/-- Only excluded modules are removed. -/
lemma notMem_excluded (hm : m ∈ (keptGraph s inputs).modules) :
    m ∉ (keptGraph s inputs).modules.filter s.excludesModule ↔ s.excludesModule m = false := by
  simp [hm]

/-- **The dependency graph** has those dependencies of the inputs that lead to a different module,
are not dropped, and have no excluded module at an end. -/
lemma mem_edges_dependencyGraph : e ∈ (dependencyGraph s inputs).edges ↔
    (e ∈ inputs.dependencies ∧ e.source ≠ e.target ∧ ¬ s.Drops e) ∧
      s.excludesModule e.source = false ∧ s.excludesModule e.target = false := by
  rw [dependencyGraph_eq, Graph.mem_edges_foldl_removeModule, ← mem_edges_keptGraph]
  refine and_congr_right fun he => ?_
  obtain ⟨hsource, htarget⟩ := (keptGraph s inputs).ends_mem e he
  rw [notMem_excluded hsource, notMem_excluded htarget]

/-- Before that, the modules are those of the inputs, the ends of the dependencies, whether they are
dropped or not, and the targets of live directives with a priority. -/
lemma mem_modules_keptGraph : m ∈ (keptGraph s inputs).modules ↔
    (m ∈ inputs.modules ∨ ∃ e ∈ inputs.dependencies, m = e.source ∨ m = e.target) ∨
      ∃ d ∈ s.directivesOf .sortPriority, Text.trimmed d.target = m := by
  rw [keptGraph, Graph.modules_foldl_removeEdge, Graph.mem_modules_foldl_addModule,
    Graph.mem_modules_ofLists]

/-- **The modules of the dependency graph** are those that are known and not excluded. -/
lemma mem_modules_dependencyGraph : m ∈ (dependencyGraph s inputs).modules ↔
    ((m ∈ inputs.modules ∨ ∃ e ∈ inputs.dependencies, m = e.source ∨ m = e.target) ∨
      ∃ d ∈ s.directivesOf .sortPriority, Text.trimmed d.target = m) ∧
      s.excludesModule m = false := by
  rw [dependencyGraph_eq, Graph.mem_modules_foldl_removeModule, ← mem_modules_keptGraph]
  exact and_congr_right notMem_excluded

/-- No module of the dependency graph is excluded. -/
lemma excludesModule_of_mem (hm : m ∈ (dependencyGraph s inputs).modules) :
    s.excludesModule m = false :=
  (mem_modules_dependencyGraph.1 hm).2

/-! ## The guarded edges -/

/-- The guards of a directive lie on the edge that it guards. -/
lemma ofDirective?_eq_some {d : Directive} {guard : Guard} (h : Guard.ofDirective? d = some guard) :
    Name.moduleOf d.target = guard.edge.source ∧ d.payload.module? = some guard.edge.target := by
  simp only [Guard.ofDirective?, bind, pure, Option.bind_eq_some_iff, Option.some.injEq] at h
  obtain ⟨kind, -, target, htarget, rfl⟩ := h
  exact ⟨rfl, htarget⟩

/-- Only edges that a live directive guards have guards. -/
lemma guards_of_isGuarded {g : Graph} (h : (guardsWithin s g).isGuarded e = true) : s.Guards e := by
  simp only [guardsWithin, Guards.isGuarded, Guards.retain, Guards.ofStore, List.any_eq_true,
    List.mem_filter, List.mem_filterMap, beq_iff_eq] at h
  obtain ⟨guard, ⟨⟨d, hd, hguard⟩, -⟩, rfl⟩ := h
  exact ⟨d, hd, ofDirective?_eq_some hguard⟩

/-- A guarded edge has a guard. -/
lemma Guards.mem_edges {guards : Guards} :
    e ∈ guards.edges ↔ ∃ guard ∈ guards.list, guard.edge = e := by
  rw [Guards.edges, Sorted.mem_ofList Edge.strictTotal_lt, List.mem_map]

/-- **Placements are decided between different modules of the graph.** -/
lemma mem_of_mem_placements {g g' : Graph} {placement : Placement}
    (h : placement ∈ g'.placements (guardsWithin s g)) :
    placement.edge.source ∈ g.modules ∧ placement.edge.target ∈ g.modules ∧
      placement.edge.source ≠ placement.edge.target := by
  obtain ⟨e, he, rfl⟩ := List.mem_map.1 h
  obtain ⟨guard, hguard, rfl⟩ := Guards.mem_edges.1 he
  have hwithin := (List.mem_filter.1 hguard).2
  simp only [Bool.and_eq_true, bne_iff_ne, Graph.contains, List.contains_iff_mem] at hwithin
  obtain ⟨⟨hne, hsource⟩, htarget⟩ := hwithin
  exact ⟨hsource, htarget, hne⟩

end BindingRules
