import BindingRules.Proofs.DependencyGraph
import BindingRules.Proofs.InputOrder
import BindingRules.Table
import Mathlib.Data.Set.Basic

set_option relaxedAutoImplicit false
set_option autoImplicit false

/-!
# Changes of a dependency graph

A dependency graph can be kept as a table with a row for each module, which lists what the module
needs. The table itself does not demand that what stands in a row has a row of its own, or that it
is not the module of the row. All the same, tables that are made from modules and edges and then
changed in any way are closed and without loops, and hold what the changes make of two plain sets.

## Main definitions

* `Graph.Change`, `Graph.change` — the changes of a graph.
* `PlainGraph`, `PlainGraph.change` — a set of modules and a set of edges, and what a change makes
  of them.
* `AdjacencyTable`, `AdjacencyTable.change` — tables with a row for each module.

## Main results

* `Graph.toPlain_changes` — the changes of a graph are those of its sets.
* `exists_changes_dependencyGraph` — the graph of the modules to generate is made by changes.
* `AdjacencyTable.toPlain_changes` — the changes of a table are those of its sets.
* `AdjacencyTable.changes_exact` — tables stay closed and without loops, and hold the sets.
-/

namespace BindingRules

variable {m n : String} {e : Edge}

/-! ## Changes -/

/-- A change of a dependency graph. -/
inductive Graph.Change where
  /-- A module is added. -/
  | addModule (m : String)
  /-- An edge and its ends are added. -/
  | addEdge (e : Edge)
  /-- An edge is removed. -/
  | removeEdge (e : Edge)
  /-- A module is removed, with the edges at it. -/
  | removeModule (m : String)
  /-- The edges without a property are removed. -/
  | filterEdges (keep : Edge → Bool)

/-- The graph after a change. -/
def Graph.change (g : Graph) : Graph.Change → Graph
  | .addModule m => g.addModule m
  | .addEdge e => g.addEdge e
  | .removeEdge e => g.removeEdge e
  | .removeModule m => g.removeModule m
  | .filterEdges keep => g.filterEdges keep

/-- The graph after several changes. -/
def Graph.changes (g : Graph) (cs : List Graph.Change) : Graph := cs.foldl Graph.change g

/-- Two sets, of which nothing is demanded. -/
@[ext]
structure PlainGraph where
  /-- The modules. -/
  modules : Set String
  /-- The edges. -/
  edges : Set Edge

namespace PlainGraph

/-- The sets of the given modules and edges: the ends of an edge are modules, and an edge from a
module to itself is left out. -/
def ofLists (ms : List String) (es : List Edge) : PlainGraph where
  modules := {m | m ∈ ms ∨ ∃ e ∈ es, m = e.source ∨ m = e.target}
  edges := {e | e ∈ es ∧ e.source ≠ e.target}

/-- The sets after a change. -/
def change (g : PlainGraph) : Graph.Change → PlainGraph
  | .addModule m => { g with modules := insert m g.modules }
  | .addEdge e =>
    { modules := insert e.source (insert e.target g.modules)
      edges := {f | f = e ∧ e.source ≠ e.target} ∪ g.edges }
  | .removeEdge e => { g with edges := g.edges \ {e} }
  | .removeModule m =>
    { modules := g.modules \ {m}
      edges := {f | f ∈ g.edges ∧ f.source ≠ m ∧ f.target ≠ m} }
  | .filterEdges keep => { g with edges := {f | f ∈ g.edges ∧ keep f = true} }

/-- The sets after several changes. -/
def changes (g : PlainGraph) (cs : List Graph.Change) : PlainGraph := cs.foldl change g

end PlainGraph

namespace Graph

/-- The sets of the modules and of the edges of a graph. -/
def toPlain (g : Graph) : PlainGraph := ⟨{m | m ∈ g.modules}, {e | e ∈ g.edges}⟩

/-- A graph that is made from lists has their modules and edges. -/
lemma toPlain_ofLists (ms : List String) (es : List Edge) :
    (ofLists ms es).toPlain = PlainGraph.ofLists ms es :=
  PlainGraph.ext (Set.ext fun _ => mem_modules_ofLists) (Set.ext fun _ => mem_edges_ofLists)

/-- **One step**: a change of a graph is one of its sets. -/
lemma toPlain_change (g : Graph) (c : Change) : (g.change c).toPlain = g.toPlain.change c := by
  cases c with
  | addModule m =>
    exact PlainGraph.ext (Set.ext fun _ => mem_modules_addModule) rfl
  | addEdge e =>
    exact PlainGraph.ext (Set.ext fun _ => mem_modules_addEdge) (Set.ext fun _ => mem_edges_addEdge)
  | removeEdge e =>
    exact PlainGraph.ext rfl (Set.ext fun _ => mem_edges_removeEdge)
  | removeModule m =>
    exact PlainGraph.ext (Set.ext fun _ => mem_modules_removeModule)
      (Set.ext fun _ => mem_edges_removeModule)
  | filterEdges keep =>
    exact PlainGraph.ext rfl (Set.ext fun _ => List.mem_filter)

/-- **A whole run**: the changes of a graph are those of its sets. -/
lemma toPlain_changes (g : Graph) (cs : List Change) :
    (g.changes cs).toPlain = g.toPlain.changes cs :=
  (List.foldl_hom toPlain fun g c => (toPlain_change g c).symm).symm

/-- Changes follow each other. -/
lemma changes_append (g : Graph) (cs cs' : List Change) :
    g.changes (cs ++ cs') = (g.changes cs).changes cs' := List.foldl_append

/-- A graph that is made from lists comes from the graph without modules, by additions. -/
lemma ofLists_eq_changes (ms : List String) (es : List Edge) :
    ofLists ms es = empty.changes (ms.map .addModule ++ es.map .addEdge) := by
  rw [changes_append]
  simp only [changes, List.foldl_map, change]
  rfl

/-- What a module needs is in increasing order. -/
lemma increasing_dependencies (g : Graph) (m : String) : Increasing textLt (g.dependencies m) := by
  refine List.pairwise_map.2 ((g.edges_increasing.filter _).imp_of_mem fun {e f} he hf h => ?_)
  have hsource : e.source = f.source :=
    (beq_iff_eq.1 (List.mem_filter.1 he).2).trans (beq_iff_eq.1 (List.mem_filter.1 hf).2).symm
  simpa [Edge.lt, pairLt, hsource, strictTotal_textLt.irrefl] using h

end Graph

/-- The graph of the modules to generate is one that is made from lists and then changed. -/
lemma exists_changes_dependencyGraph (s : Store) (inputs : Inputs) :
    ∃ cs, dependencyGraph s inputs =
      (Graph.ofLists inputs.modules inputs.dependencies).changes cs := by
  refine ⟨(s.directivesOf .sortPriority).map (.addModule <| Text.trimmed ·.target) ++
    ((s.directivesOf .importExclude).filterMap droppedEdge?).map .removeEdge ++
    ((keptGraph s inputs).modules.filter s.excludesModule).map .removeModule, ?_⟩
  rw [dependencyGraph_eq, Graph.changes_append, Graph.changes_append]
  simp only [Graph.changes, List.foldl_map, Graph.change]
  rfl

/-! ## Rows -/

/-- Changes the row of a module, which is added without contents if it is not there. The rows stand
in the order of their modules. -/
def adjustRow (m : String) (f : List String → List String) :
    List (String × List String) → List (String × List String)
  | [] => [(m, f [])]
  | (k, ns) :: rows =>
    if textLt m k then (m, f []) :: (k, ns) :: rows
    else if textLt k m then (k, ns) :: adjustRow m f rows
    else (k, f ns) :: rows

section Rows

variable {f : List String → List String} {rows : List (String × List String)}
  {row : String × List String}

/-- The module belongs to those with a row afterwards. -/
lemma map_fst_adjustRow (m : String) (f : List String → List String)
    (rows : List (String × List String)) :
    (adjustRow m f rows).map Prod.fst = Sorted.insert textLt m (rows.map Prod.fst) := by
  induction rows with
  | nil => rfl
  | cons row rows ih =>
    simp only [adjustRow, List.map_cons, Sorted.insert, ← ih]
    split
    · rfl
    · split <;> rfl

/-- Each row is one that was there, or comes from one, or from the row without contents. -/
lemma mem_adjustRow (h : row ∈ adjustRow m f rows) :
    row ∈ rows ∨ row.2 = f [] ∨ ∃ older ∈ rows, row.2 = f older.2 := by
  induction rows with
  | nil => exact .inr (.inl (congrArg Prod.snd (List.mem_singleton.1 h)))
  | cons first rows ih =>
    rw [adjustRow] at h
    split at h
    · rcases List.mem_cons.1 h with rfl | h
      · exact .inr (.inl rfl)
      · exact .inl h
    · split at h
      · rcases List.mem_cons.1 h with rfl | h
        · exact .inl List.mem_cons_self
        · rcases ih h with h | h | ⟨older, holder, h⟩
          · exact .inl (List.mem_cons_of_mem _ h)
          · exact .inr (.inl h)
          · exact .inr (.inr ⟨older, List.mem_cons_of_mem _ holder, h⟩)
      · rcases List.mem_cons.1 h with rfl | h
        · exact .inr (.inr ⟨first, List.mem_cons_self, rfl⟩)
        · exact .inl (List.mem_cons_of_mem _ h)

/-- What comes before all of an increasing list does not belong to it. -/
lemma notMem_of_textLt {k : String} {ks : List String} (hks : Increasing textLt (k :: ks))
    (hm : textLt m k = true) : m ∉ k :: ks := by
  have hirrefl := strictTotal_textLt.irrefl m
  intro hmem
  rcases List.mem_cons.1 hmem with rfl | hlater
  · simp [hm] at hirrefl
  · simp [strictTotal_textLt.trans hm ((List.pairwise_cons.1 hks).1 m hlater)] at hirrefl

/-- Nothing is found for a module without a row. -/
lemma lookup_eq_none_of_notMem (h : m ∉ rows.map Prod.fst) : rows.lookup m = none := by
  refine List.lookup_eq_none_iff.2 fun row hrow => bne_iff_ne.2 ?_
  rintro rfl
  exact h (List.mem_map_of_mem hrow)

/-- What is found behind a row. -/
lemma lookup_cons_eq_ite (k n : String) (ns : List String) (rows : List (String × List String)) :
    ((k, ns) :: rows).lookup n = if n = k then some ns else rows.lookup n := by
  rw [List.lookup_cons]
  by_cases h : n = k
  · simp [h]
  · simp [h, beq_eq_false_iff_ne.2 h]

/-- Only the row of the module changes. -/
lemma lookup_adjustRow (hrows : Increasing textLt (rows.map Prod.fst)) :
    (adjustRow m f rows).lookup n =
      if n = m then some (f ((rows.lookup m).getD [])) else rows.lookup n := by
  induction rows with
  | nil => exact lookup_cons_eq_ite m n (f []) []
  | cons row rows ih =>
    obtain ⟨k, ns⟩ := row
    rw [adjustRow]
    split
    · rename_i hmk
      have hnone : ((k, ns) :: rows).lookup m = none :=
        lookup_eq_none_of_notMem (notMem_of_textLt hrows hmk)
      rw [lookup_cons_eq_ite, hnone]
      rfl
    · rename_i hmk
      split
      · rename_i hkm
        have hne : m ≠ k := by
          rintro rfl
          exact hmk hkm
        simp only [lookup_cons_eq_ite, ih (List.pairwise_cons.1 hrows).2, if_neg hne]
        by_cases hnk : n = k
        · rw [if_pos hnk, if_pos hnk, if_neg (hnk ▸ hne.symm)]
        · rw [if_neg hnk, if_neg hnk]
      · rename_i hkm
        obtain rfl : m = k :=
          strictTotal_textLt.eq_of_not_lt (by simpa using hmk) (by simpa using hkm)
        simp only [lookup_cons_eq_ite, if_true, Option.getD_some]
        split <;> rfl

/-- The row without contents is increasing. -/
lemma increasing_nil : Increasing textLt [] := List.Pairwise.nil

/-- A part of an increasing list is increasing. -/
lemma increasing_filter {ns : List String} (p : String → Bool) (h : Increasing textLt ns) :
    Increasing textLt (ns.filter p) :=
  List.Pairwise.filter p h

end Rows

/-! ## Tables -/

/-- A table with a row for each module, which lists what the module needs. What is demanded is that
rows and modules stand in their order, as in any map from texts to sets of texts. -/
structure AdjacencyTable where
  /-- The modules with what they need. -/
  rows : List (String × List String)
  /-- The order of the modules. -/
  keys_increasing : Increasing textLt (rows.map Prod.fst)
  /-- The order of what a module needs. -/
  needs_increasing : ∀ row ∈ rows, Increasing textLt row.2

namespace AdjacencyTable

/-- The table without rows. -/
def empty : AdjacencyTable where
  rows := []
  keys_increasing := increasing_nil
  needs_increasing _ hrow := absurd hrow List.not_mem_nil

/-- Changes what a module needs. The module is added if it does not have a row. -/
def adjust (t : AdjacencyTable) (m : String) (f : List String → List String)
    (hf : ∀ ns, Increasing textLt ns → Increasing textLt (f ns)) : AdjacencyTable where
  rows := adjustRow m f t.rows
  keys_increasing := by
    rw [map_fst_adjustRow]
    exact Sorted.increasing_insert strictTotal_textLt m t.keys_increasing
  needs_increasing row hrow := by
    rcases mem_adjustRow hrow with hrow | hrow | ⟨older, holder, hrow⟩
    · exact t.needs_increasing row hrow
    · exact hrow ▸ hf [] increasing_nil
    · exact hrow ▸ hf older.2 (t.needs_increasing older holder)

/-- Changes what all modules need to a part of it. -/
def restrict (t : AdjacencyTable) (keep : Edge → Bool) : AdjacencyTable where
  rows := t.rows.map fun row => (row.1, row.2.filter fun n => keep ⟨row.1, n⟩)
  keys_increasing := by
    rw [List.map_map]
    exact t.keys_increasing
  needs_increasing row hrow := by
    obtain ⟨older, holder, rfl⟩ := List.mem_map.1 hrow
    exact increasing_filter _ (t.needs_increasing older holder)

/-- Removes the row of a module. -/
def removeRow (t : AdjacencyTable) (m : String) : AdjacencyTable where
  rows := t.rows.filter (·.1 != m)
  keys_increasing := t.keys_increasing.sublist (List.filter_sublist.map Prod.fst)
  needs_increasing row hrow := t.needs_increasing row (List.mem_filter.1 hrow).1

/-- Adds a module that needs nothing, unless it has a row. -/
def addModule (t : AdjacencyTable) (m : String) : AdjacencyTable := t.adjust m id fun _ h => h

/-- Adds an edge and its ends. An edge from a module to itself adds the module alone. -/
def addEdge (t : AdjacencyTable) (e : Edge) : AdjacencyTable :=
  (t.addModule e.target).adjust e.source
    (fun ns => if e.source != e.target then Sorted.insert textLt e.target ns else ns)
    fun ns h => by
      split
      · exact Sorted.increasing_insert strictTotal_textLt e.target h
      · exact h

/-- What the row of a module lists, if it has one. -/
def row? (t : AdjacencyTable) (m : String) : Option (List String) := t.rows.lookup m

/-- Removes an edge, and says whether it was there. -/
def removeEdge (t : AdjacencyTable) (e : Edge) : Bool × AdjacencyTable :=
  match t.row? e.source with
  | some ns =>
    (ns.contains e.target,
      t.adjust e.source (·.filter (· != e.target)) fun _ => increasing_filter _)
  | none => (false, t)

/-- Removes a module, and it from all rows. -/
def removeModule (t : AdjacencyTable) (m : String) : AdjacencyTable :=
  (t.removeRow m).restrict fun e => e.target != m

/-- The table that is made from the given modules and edges. -/
def ofLists (modules : List String) (edges : List Edge) : AdjacencyTable :=
  edges.foldl addEdge (modules.foldl addModule empty)

/-- The modules, in increasing order. -/
def modules (t : AdjacencyTable) : List String := t.rows.map Prod.fst

/-- The edges, in increasing order. -/
def edges (t : AdjacencyTable) : List Edge :=
  t.rows.flatMap fun row => row.2.map (Edge.mk row.1)

/-- Whether a module has a row. -/
def contains (t : AdjacencyTable) (m : String) : Bool := (t.row? m).isSome

/-- Whether an edge belongs to the table. -/
def hasEdge (t : AdjacencyTable) (e : Edge) : Bool :=
  (t.row? e.source).any (·.contains e.target)

/-- What a module needs, in increasing order. -/
def dependencies (t : AdjacencyTable) (m : String) : List String := (t.row? m).getD []

/-- The table after a change. -/
def change (t : AdjacencyTable) : Graph.Change → AdjacencyTable
  | .addModule m => t.addModule m
  | .addEdge e => t.addEdge e
  | .removeEdge e => (t.removeEdge e).2
  | .removeModule m => t.removeModule m
  | .filterEdges keep => t.restrict keep

/-- The table after several changes. -/
def changes (t : AdjacencyTable) (cs : List Graph.Change) : AdjacencyTable := cs.foldl change t

variable {t : AdjacencyTable} {g : Graph} {ns : List String} {row : String × List String}

/-! ## What a table holds -/

/-- The rows are what is found for their modules. -/
lemma mem_rows : (m, ns) ∈ t.rows ↔ t.row? m = some ns :=
  Table.mem_entries (t := ⟨t.rows, t.keys_increasing.nodup strictTotal_textLt⟩)

/-- The modules are those that have a row. -/
lemma mem_modules : m ∈ t.modules ↔ ∃ ns, t.row? m = some ns := by
  simp only [modules, List.mem_map, Prod.exists, mem_rows, exists_and_right, exists_eq_right]

/-- The edges lead from a module to what stands in its row. -/
lemma mem_edges : e ∈ t.edges ↔ ∃ ns, t.row? e.source = some ns ∧ e.target ∈ ns := by
  simp only [edges, List.mem_flatMap, List.mem_map, Prod.exists, mem_rows]
  constructor
  · rintro ⟨m, ns, hm, n, hn, rfl⟩
    exact ⟨ns, hm, hn⟩
  · rintro ⟨ns, hm, hn⟩
    exact ⟨e.source, ns, hm, e.target, hn, rfl⟩

/-- The edges are in increasing order. -/
lemma increasing_edges (t : AdjacencyTable) : Increasing Edge.lt t.edges := by
  refine List.pairwise_flatMap.2 ⟨fun row hrow => ?_, ?_⟩
  · refine List.pairwise_map.2 ((t.needs_increasing row hrow).imp fun h => ?_)
    simp [Edge.lt, pairLt, h]
  · refine (List.pairwise_map.1 t.keys_increasing).imp fun h => ?_
    simp only [List.mem_map]
    rintro _ ⟨n, -, rfl⟩ _ ⟨n', -, rfl⟩
    simp [Edge.lt, pairLt, h]

/-- A module has a row exactly if it is one of the modules. -/
lemma contains_eq (t : AdjacencyTable) (m : String) : t.contains m = t.modules.contains m := by
  rw [Bool.eq_iff_iff, contains, Option.isSome_iff_exists, List.contains_iff_mem, mem_modules]

/-- The edges are found in the rows of their sources. -/
lemma hasEdge_eq (t : AdjacencyTable) (e : Edge) : t.hasEdge e = t.edges.contains e := by
  rw [Bool.eq_iff_iff, hasEdge, List.contains_iff_mem, mem_edges]
  cases t.row? e.source <;> simp

/-- What a module needs stands at the end of an edge from it. -/
lemma mem_dependencies : n ∈ t.dependencies m ↔ Edge.mk m n ∈ t.edges := by
  rw [mem_edges, dependencies]
  cases t.row? m <;> simp

/-- What a module needs is in increasing order. -/
lemma increasing_dependencies (t : AdjacencyTable) (m : String) :
    Increasing textLt (t.dependencies m) := by
  rw [dependencies]
  cases hm : t.row? m with
  | none => exact increasing_nil
  | some ns => exact t.needs_increasing (m, ns) (mem_rows.2 hm)

/-- An edge that is removed was there if the table had it. -/
lemma removeEdge_fst (t : AdjacencyTable) (e : Edge) : (t.removeEdge e).1 = t.hasEdge e := by
  rw [removeEdge, hasEdge]
  cases t.row? e.source <;> rfl

/-! ## What a change does to the rows -/

section Adjust

variable {f : List String → List String}
  {hf : ∀ ns, Increasing textLt ns → Increasing textLt (f ns)}

/-- The row of the module changes, and no other one. -/
lemma row?_adjust :
    (t.adjust m f hf).row? n = if n = m then some (f (t.dependencies m)) else t.row? n :=
  lookup_adjustRow t.keys_increasing

/-- The module is one of those with a row afterwards. -/
lemma mem_modules_adjust : n ∈ (t.adjust m f hf).modules ↔ n = m ∨ n ∈ t.modules := by
  rw [mem_modules, mem_modules, row?_adjust]
  by_cases h : n = m <;> simp [h]

/-- The edges from the module change, and no other ones. -/
lemma mem_edges_adjust : e ∈ (t.adjust m f hf).edges ↔
    if e.source = m then e.target ∈ f (t.dependencies m) else e ∈ t.edges := by
  rw [mem_edges, mem_edges, row?_adjust]
  by_cases h : e.source = m <;> simp [h]

end Adjust

/-- In all rows a part is kept. -/
lemma row?_restrict (t : AdjacencyTable) (keep : Edge → Bool) (m : String) :
    (t.restrict keep).row? m = (t.row? m).map (·.filter fun n => keep ⟨m, n⟩) := by
  ext ns
  simp only [← mem_rows, restrict, List.mem_map, Prod.exists, Prod.mk.injEq, Option.map_eq_some_iff]
  constructor
  · rintro ⟨k, ns', hrow, rfl, rfl⟩
    exact ⟨ns', hrow, rfl⟩
  · rintro ⟨ns', hrow, rfl⟩
    exact ⟨m, ns', hrow, rfl, rfl⟩

/-- All modules keep their rows. -/
lemma modules_restrict (t : AdjacencyTable) (keep : Edge → Bool) :
    (t.restrict keep).modules = t.modules := List.map_map

/-- The edges with the property are kept. -/
lemma mem_edges_restrict {keep : Edge → Bool} :
    e ∈ (t.restrict keep).edges ↔ e ∈ t.edges ∧ keep e = true := by
  rw [mem_edges, mem_edges, row?_restrict]
  cases t.row? e.source <;> simp

/-- The row of the module is gone, and no other one. -/
lemma row?_removeRow : (t.removeRow m).row? n = if n = m then none else t.row? n := by
  ext ns
  rw [← mem_rows, removeRow, List.mem_filter, mem_rows]
  by_cases h : n = m <;> simp [h]

/-! ## What a change does to the sets -/

/-- A module that is added is one of the modules. -/
lemma mem_modules_addModule : n ∈ (t.addModule m).modules ↔ n = m ∨ n ∈ t.modules :=
  mem_modules_adjust

/-- A module that is added needs what it needed before. -/
lemma mem_edges_addModule : e ∈ (t.addModule m).edges ↔ e ∈ t.edges := by
  rw [addModule, mem_edges_adjust]
  split
  · rename_i h
    exact h ▸ mem_dependencies
  · rfl

/-- The ends of an edge are added with it. -/
lemma mem_modules_addEdge :
    n ∈ (t.addEdge e).modules ↔ n = e.source ∨ n = e.target ∨ n ∈ t.modules := by
  rw [addEdge, mem_modules_adjust, mem_modules_addModule]

/-- An edge between different modules is added to the edges. -/
lemma mem_edges_addEdge {f : Edge} :
    f ∈ (t.addEdge e).edges ↔ (f = e ∧ e.source ≠ e.target) ∨ f ∈ t.edges := by
  rw [addEdge, mem_edges_adjust]
  split
  · rename_i h
    have hf : f.target ∈ (t.addModule e.target).dependencies e.source ↔ f ∈ t.edges := by
      rw [mem_dependencies, ← h, mem_edges_addModule]
    by_cases hne : e.source = e.target
    · simp [hne, ← hf]
    · simp [hne, Sorted.mem_insert strictTotal_textLt, hf, Edge.ext_iff, h]
  · rename_i h
    rw [mem_edges_addModule, or_iff_right]
    rintro ⟨rfl, -⟩
    exact h rfl

/-- The modules stay when an edge is removed. -/
lemma mem_modules_removeEdge : n ∈ (t.removeEdge e).2.modules ↔ n ∈ t.modules := by
  rw [removeEdge]
  split
  · rename_i ns hns
    rw [mem_modules_adjust, or_iff_right_of_imp]
    rintro rfl
    exact mem_modules.2 ⟨ns, hns⟩
  · rfl

/-- Only the edge itself is removed. -/
lemma mem_edges_removeEdge {f : Edge} :
    f ∈ (t.removeEdge e).2.edges ↔ f ∈ t.edges ∧ f ≠ e := by
  rw [removeEdge]
  split
  · rw [mem_edges_adjust]
    split
    · rename_i h
      have hf : f.target ∈ t.dependencies e.source ↔ f ∈ t.edges := by rw [mem_dependencies, ← h]
      simp [hf, Edge.ext_iff, h]
    · rename_i h
      rw [and_iff_left]
      rintro rfl
      exact h rfl
  · rename_i hnone
    rw [and_iff_left_of_imp]
    rintro hf rfl
    obtain ⟨ns, hns, -⟩ := mem_edges.1 hf
    simp [hnone] at hns

/-- Only the module itself is removed. -/
lemma mem_modules_removeModule : n ∈ (t.removeModule m).modules ↔ n ∈ t.modules ∧ n ≠ m := by
  rw [removeModule, modules_restrict, mem_modules, mem_modules, row?_removeRow]
  by_cases h : n = m <;> simp [h]

/-- Only the edges at the module are removed. -/
lemma mem_edges_removeModule :
    e ∈ (t.removeModule m).edges ↔ e ∈ t.edges ∧ e.source ≠ m ∧ e.target ≠ m := by
  rw [removeModule, mem_edges_restrict, mem_edges, mem_edges, row?_removeRow, bne_iff_ne]
  by_cases h : e.source = m <;> simp [h]

/-- The sets of the modules and of the edges of a table. -/
def toPlain (t : AdjacencyTable) : PlainGraph := ⟨{m | m ∈ t.modules}, {e | e ∈ t.edges}⟩

/-- **One step**: a change of a table is one of its sets. -/
lemma toPlain_change (t : AdjacencyTable) (c : Graph.Change) :
    (t.change c).toPlain = t.toPlain.change c := by
  cases c with
  | addModule m =>
    exact PlainGraph.ext (Set.ext fun _ => mem_modules_addModule)
      (Set.ext fun _ => mem_edges_addModule)
  | addEdge e =>
    exact PlainGraph.ext (Set.ext fun _ => mem_modules_addEdge) (Set.ext fun _ => mem_edges_addEdge)
  | removeEdge e =>
    exact PlainGraph.ext (Set.ext fun _ => mem_modules_removeEdge)
      (Set.ext fun _ => mem_edges_removeEdge)
  | removeModule m =>
    exact PlainGraph.ext (Set.ext fun _ => mem_modules_removeModule)
      (Set.ext fun _ => mem_edges_removeModule)
  | filterEdges keep =>
    exact PlainGraph.ext (congrArg (fun ms => {m | m ∈ ms}) (modules_restrict t keep))
      (Set.ext fun _ => mem_edges_restrict)

/-- **A whole run**: the changes of a table are those of its sets. -/
lemma toPlain_changes (t : AdjacencyTable) (cs : List Graph.Change) :
    (t.changes cs).toPlain = t.toPlain.changes cs :=
  (List.foldl_hom toPlain fun t c => (toPlain_change t c).symm).symm

/-- A table that is made from lists has their modules and edges.

**Proof sketch.** It is made by the same additions as the graph. -/
lemma toPlain_ofLists (ms : List String) (es : List Edge) :
    (ofLists ms es).toPlain = PlainGraph.ofLists ms es := by
  have htable : ofLists ms es = empty.changes (ms.map .addModule ++ es.map .addEdge) := by
    simp only [changes, List.foldl_append, List.foldl_map, change]
    rfl
  have hempty : empty.toPlain = Graph.empty.toPlain := rfl
  rw [htable, toPlain_changes, hempty, ← Graph.toPlain_changes, ← Graph.ofLists_eq_changes,
    Graph.toPlain_ofLists]

/-- A table with the sets of a graph has its lists, too. -/
lemma eq_of_toPlain_eq (h : t.toPlain = g.toPlain) : t.modules = g.modules ∧ t.edges = g.edges := by
  obtain ⟨hmodules, hedges⟩ := PlainGraph.mk.inj h
  exact ⟨t.keys_increasing.eq_of_mem_iff strictTotal_textLt g.modules_increasing
      (Set.ext_iff.1 hmodules),
    t.increasing_edges.eq_of_mem_iff Edge.strictTotal_lt g.edges_increasing (Set.ext_iff.1 hedges)⟩

/-- **Changes of a graph.** Whatever modules and edges a graph is made from, and whatever changes
follow, it has the modules and edges that the changes make of the plain sets. A table that is made
and changed in the same way has the modules and edges of the graph, in the same order; so all edges
lead to modules, none of them to its own source, and the table and the graph answer all questions
alike, also whether an edge that is removed was there.

**Proof sketch.** One step of the graph is one of the sets, and so is one step of the table, whether
it is closed or not. So they have the same sets at the end, and their lists are increasing. That the
edges are closed and without loops is known of the graph. -/
theorem changes_exact (ms : List String) (es : List Edge) (cs : List Graph.Change) :
    let g := (Graph.ofLists ms es).changes cs
    let t := (ofLists ms es).changes cs
    g.toPlain = (PlainGraph.ofLists ms es).changes cs ∧
    t.toPlain = (PlainGraph.ofLists ms es).changes cs ∧
    t.modules = g.modules ∧ t.edges = g.edges ∧
    (∀ e ∈ t.edges, e.source ∈ t.modules ∧ e.target ∈ t.modules ∧ e.source ≠ e.target) ∧
    (∀ m, t.contains m = g.contains m ∧ t.dependencies m = g.dependencies m) ∧
    ∀ e, t.hasEdge e = g.hasEdge e ∧ (t.removeEdge e).1 = g.hasEdge e := by
  intro g t
  have hg : g.toPlain = (PlainGraph.ofLists ms es).changes cs := by
    rw [Graph.toPlain_changes, Graph.toPlain_ofLists]
  have ht : t.toPlain = (PlainGraph.ofLists ms es).changes cs := by
    rw [toPlain_changes, toPlain_ofLists]
  obtain ⟨hmodules, hedges⟩ := eq_of_toPlain_eq (ht.trans hg.symm)
  have hhasEdge (e : Edge) : t.hasEdge e = g.hasEdge e := by rw [hasEdge_eq, hedges]; rfl
  refine ⟨hg, ht, hmodules, hedges, fun e he => ?_, fun m => ⟨?_, ?_⟩, fun e => ⟨hhasEdge e, ?_⟩⟩
  · rw [hedges] at he
    rw [hmodules]
    exact ⟨(g.ends_mem e he).1, (g.ends_mem e he).2, g.source_ne_target e he⟩
  · rw [contains_eq, hmodules]
    rfl
  · refine (increasing_dependencies t m).eq_of_mem_iff strictTotal_textLt
      (g.increasing_dependencies m) fun n => ?_
    rw [mem_dependencies, hedges, Graph.mem_dependencies]
  · rw [removeEdge_fst, hhasEdge]

/-- A cycle is cut when one of its modules is removed, and a loop is never there. The module that is
removed comes back without edges, and the edge that is removed last was not there any more. -/
theorem changes_exact_cut :
    let es := [⟨"A", "B"⟩, ⟨"B", "C"⟩, ⟨"C", "A"⟩, ⟨"A", "A"⟩]
    let cs := [.addEdge ⟨"C", "D"⟩, .removeModule "B", .filterEdges (·.target != "D"),
      .addModule "B"]
    let g := (Graph.ofLists [] es).changes cs
    let t := (ofLists [] es).changes cs
    t.modules = ["A", "B", "C", "D"] ∧ t.edges = [⟨"C", "A"⟩] ∧ g.edges = [⟨"C", "A"⟩] ∧
    ("A" ∈ t.modules ∧ "C" ≠ "A") ∧ ((PlainGraph.ofLists [] es).changes cs).edges = {⟨"C", "A"⟩} ∧
    (t.removeEdge ⟨"A", "B"⟩).1 = false := by
  intro es cs g t
  have hmodules : t.modules = ["A", "B", "C", "D"] := by decide
  have hedges : t.edges = [⟨"C", "A"⟩] := by decide
  obtain ⟨-, hplain, -, hsame, hclosed, -, hanswers⟩ := changes_exact [] es cs
  obtain ⟨-, htarget, hne⟩ := hclosed ⟨"C", "A"⟩ (hedges ▸ List.mem_singleton_self _)
  refine ⟨hmodules, hedges, hsame ▸ hedges, ⟨htarget, hne⟩, ?_, ?_⟩
  · rw [← hplain]
    ext e
    exact (iff_of_eq (congrArg (e ∈ ·) hedges)).trans List.mem_singleton
  · rw [(hanswers ⟨"A", "B"⟩).2, ← (hanswers ⟨"A", "B"⟩).1]
    decide

end AdjacencyTable

end BindingRules
