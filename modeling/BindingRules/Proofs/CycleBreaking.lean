import BindingRules.Proofs.DependencyGraph
import BindingRules.Proofs.DepthFirst
import BindingRules.Proofs.Schedule

set_option relaxedAutoImplicit false
set_option autoImplicit false

/-!
# One guard on each cycle

Where a project is content with one guarded edge on each cycle, the complaints are such that it is
enough to answer them: there is none exactly if the edges without guards form no cycle, and guarding
the edges that are named, or deleting them, breaks all cycles.

## Main results

* `Graph.acyclic_of_needs` — cycles that avoid the named edges do not exist.
* `Graph.backEdgeCycles_eq_nil_iff` — there are no complaints exactly if there are no cycles.
* `Graph.unbrokenCycles_anyEdge_exact` — what the complaints say, and that answering them is enough.
-/

namespace BindingRules.Graph

open Relation

variable {g g' : Graph} {guards : Guards} {e : Edge} {cycle : List String}

/-- A closed walk is a cycle. -/
lemma IsCycleFrom.transGen (h : g.IsCycleFrom e cycle) : TransGen g.Needs e.source e.source := by
  obtain ⟨hedge, hback⟩ := liesOnCycle_iff.1 ⟨cycle, h⟩
  exact TransGen.head' hedge hback

/-- A graph of which all edges belong to another one, and none is reported there, has no cycle. -/
lemma acyclic_of_needs (h : ∀ a b, g'.Needs a b →
    g.Needs a b ∧ Edge.mk a b ∉ g.backEdgeCycles.map UnbrokenCycle.edge) : g'.Acyclic :=
  fun m hcycle => not_transGen_silent g m (TransGen.mono h _ _ hcycle)

/-- **There are no reports exactly if there are no cycles.** -/
lemma backEdgeCycles_eq_nil_iff : g.backEdgeCycles = [] ↔ g.Acyclic := by
  refine ⟨acyclic_of_backEdgeCycles, fun h => ?_⟩
  by_contra hne
  obtain ⟨c, hc⟩ := List.exists_mem_of_ne_nil _ hne
  exact h c.edge.source (backEdgeCycles_sound g c hc).transGen

/-- Guards that are added one by one are guards on their edges. -/
lemma isGuarded_foldl_add (guards : Guards) (gs : List Guard) :
    (gs.foldl Guards.add guards).isGuarded e = true ↔
      guards.isGuarded e = true ∨ e ∈ gs.map Guard.edge := by
  induction gs generalizing guards with
  | nil => simp
  | cons guard gs ih =>
    have hadd : (guards.add guard).isGuarded e = true ↔
        guards.isGuarded e = true ∨ e = guard.edge := by
      simp [Guards.isGuarded, Guards.add, eq_comm (a := e)]
    rw [List.foldl_cons, ih, hadd, List.map_cons, List.mem_cons, or_assoc]

/-- **The complaints are enough to break all cycles** where one guard on each cycle is enough.
There is no complaint exactly if the edges without guards form no cycle. No edge is named twice, and
each one that is named has no guard and is shown on a closed walk that begins with it and follows
edges without guards. When exactly the named edges are deleted, or whatever guards are added on
exactly these, the edges without guards form no cycle. -/
theorem unbrokenCycles_anyEdge_exact (g : Graph) (guards : Guards) :
    (g.unbrokenCycles guards .anyEdge = [] ↔ (g.unguarded guards).Acyclic) ∧
    ((g.unbrokenCycles guards .anyEdge).map UnbrokenCycle.edge).Nodup ∧
    (∀ c ∈ g.unbrokenCycles guards .anyEdge, c.edge ∈ g.edges ∧
      guards.isGuarded c.edge = false ∧ (g.unguarded guards).IsCycleFrom c.edge c.cycle) ∧
    ((((g.unbrokenCycles guards .anyEdge).map UnbrokenCycle.edge).foldl removeEdge g).unguarded
      guards).Acyclic ∧
    ∀ gs : List Guard, gs.map Guard.edge =
        (g.unbrokenCycles guards .anyEdge).map UnbrokenCycle.edge →
      (g.unguarded (gs.foldl Guards.add guards)).Acyclic := by
  have hsearch : g.unbrokenCycles guards .anyEdge = (g.unguarded guards).backEdgeCycles := rfl
  rw [hsearch]
  refine ⟨backEdgeCycles_eq_nil_iff, nodup_edge_backEdgeCycles _, fun c hc => ?_, ?_,
    fun gs hgs => ?_⟩
  · have hcycle := backEdgeCycles_sound _ c hc
    have hneeds : (g.unguarded guards).Needs c.edge.source c.edge.target :=
      (liesOnCycle_iff.1 ⟨_, hcycle⟩).1
    obtain ⟨hedge, hfree⟩ := needs_unguarded.1 hneeds
    exact ⟨hedge, hfree, hcycle⟩
  · refine acyclic_of_needs (g := g.unguarded guards) fun a b hab => ?_
    obtain ⟨hkept, hfree⟩ := needs_unguarded.1 hab
    obtain ⟨hedge, hnamed⟩ := mem_edges_foldl_removeEdge.1 hkept
    exact ⟨needs_unguarded.2 ⟨hedge, hfree⟩, hnamed⟩
  · refine acyclic_of_needs (g := g.unguarded guards) fun a b hab => ?_
    obtain ⟨hedge, hfree⟩ := needs_unguarded.1 hab
    rw [← Bool.not_eq_true, isGuarded_foldl_add, not_or, Bool.not_eq_true, hgs] at hfree
    exact ⟨needs_unguarded.2 ⟨hedge, hfree.1⟩, hfree.2⟩

end BindingRules.Graph
