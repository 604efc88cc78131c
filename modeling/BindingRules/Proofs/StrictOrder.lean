import BindingRules.Proofs.CycleCoverage
import BindingRules.Proofs.DependencyGraph
import BindingRules.Proofs.DepthFirst
import BindingRules.Proofs.Schedule

set_option relaxedAutoImplicit false
set_option autoImplicit false

/-!
# The order under strict settings

Two different searches look at the edges without guards: one for cycles to complain about, and one
for the module that comes next. Where the first one has no complaint, the second one never has to
force a module, so every module comes behind what it needs. Strict settings let no complaint pass.

## Main definitions

* `Config.graphOf` — the graph behind a policy.

## Main results

* `Graph.acyclic_unguarded` — without complaints the edges without guards form no cycle.
* `Config.unbrokenCycles_of_resolve` — strict settings let no complaint pass.
* `Config.strict_order_is_topological` — the order respects every dependency that is not guarded.
-/

namespace BindingRules

open Relation

variable {inputs : Inputs} {e : Edge} {m n : String}

/-! ## Cycles of edges without guards -/

namespace Graph

variable {g : Graph} {guards : Guards} {r : Ranking} {coverage : Coverage}

/-- **Every cycle without guards is complained about**, however many guards a cycle needs.

**Proof sketch.** If every edge on a cycle needs a guard, the first edge of a cycle of edges without
guards is complained about, since it is also on a cycle of the whole graph. If one guard on each
cycle is enough, the edges without guards are searched for cycles. -/
lemma acyclic_unguarded (h : g.unbrokenCycles guards coverage = []) :
    (g.unguarded guards).Acyclic := by
  cases coverage with
  | everyEdge =>
    intro m hcycle
    obtain ⟨n, hmn, hnm⟩ := TransGen.head'_iff.1 hcycle
    obtain ⟨hedge, hfree⟩ := needs_unguarded.1 hmn
    have hback : g.Reaches n m :=
      ReflTransGen.mono (fun _ _ h => (needs_unguarded.1 h).1) _ _ hnm
    have hmem : Edge.mk m n ∈ g.uncoveredEdges guards :=
      mem_uncoveredEdges.2 ⟨liesOnCycle_iff.2 ⟨hedge, hback⟩, hfree⟩
    have hnone : g.uncoveredCycles guards = [] := h
    rw [← map_edge_uncoveredCycles, hnone] at hmem
    exact List.not_mem_nil hmem
  | anyEdge => exact acyclic_of_backEdgeCycles h

/-- The order of a graph with guards holds every module once. -/
lemma perm_order_guarded (g : Graph) (guards : Guards) (r : Ranking) :
    (g.order guards r).order.Perm g.modules := perm_order (g.unguarded guards) r

/-- Where the edges without guards form no cycle, every module comes behind what it needs. -/
lemma idxOf_lt_of_acyclic (hacyclic : (g.unguarded guards).Acyclic)
    (hneeds : (g.unguarded guards).Needs m n) :
    (g.order guards r).order.idxOf n < (g.order guards r).order.idxOf m := by
  refine idxOf_lt_of_needs hneeds ?_
  rw [forced_eq_nil_iff.2 hacyclic]
  exact List.not_mem_nil

end Graph

/-! ## Strict settings -/

namespace Config

variable {c : Config} {ruleset : Ruleset} {p : Policy} {name text : String}

/-- The graph behind a policy. -/
def graphOf (c : Config) (r : Ruleset) (inputs : Inputs) : Graph :=
  dependencyGraph (c.policyOf r inputs).store inputs

/-- The guards of a policy are those of its store on edges of its graph. -/
lemma guards_policyOf (c : Config) (r : Ruleset) (inputs : Inputs) : (c.policyOf r inputs).guards =
    guardsWithin (c.policyOf r inputs).store (c.graphOf r inputs) := rfl

/-- The order of a policy is that of its graph, of which the edges with guards do not count. -/
lemma order_policyOf (c : Config) (r : Ruleset) (inputs : Inputs) : (c.policyOf r inputs).order =
    ((c.graphOf r inputs).order (c.policyOf r inputs).guards
      ⟨priorityOf (c.policyOf r inputs).store, r.mentionOf⟩).order := rfl

/-- **Strict settings let no complaint pass**: every cycle that guards do not break is an error. -/
lemma unbrokenCycles_of_resolve (hstrict : c.strict = true) (h : c.resolve ruleset inputs = .ok p) :
    (c.graphOf ruleset inputs).unbrokenCycles (c.policyOf ruleset inputs).guards c.coverage =
      [] := by
  by_contra hne
  obtain ⟨cycle, hcycle⟩ := List.exists_mem_of_ne_nil _ hne
  have hmem : cycle.diagnostic c.severity ∈ (c.policyOf ruleset inputs).diagnostics := by
    have := List.mem_map_of_mem (f := (UnbrokenCycle.diagnostic · c.severity)) hcycle
    simp only [policyOf, List.mem_append]
    exact .inl (.inl (.inr this))
  have herror : (c.policyOf ruleset inputs).diagnostics.any Diagnostic.isError = true :=
    List.any_eq_true.2 ⟨_, hmem, by simp [UnbrokenCycle.diagnostic, Diagnostic.isError, severity,
      hstrict]⟩
  simp [resolve, hstrict, herror] at h

/-- A policy that is resolved is the policy of the rules. -/
lemma eq_policyOf_of_resolve (h : c.resolve ruleset inputs = .ok p) :
    p = c.policyOf ruleset inputs := by
  simp only [resolve] at h
  split at h
  · exact absurd h (by simp)
  · exact (Except.ok.inj h).symm

/-- The order of a policy has the modules of its graph. -/
lemma mem_order_policyOf :
    m ∈ (c.policyOf ruleset inputs).order ↔ m ∈ (c.graphOf ruleset inputs).modules := by
  rw [order_policyOf]
  exact (Graph.perm_order_guarded _ _ _).mem_iff

/-- A dependency between modules of the order that no directive drops or guards is an edge without
guards of the graph. -/
lemma needs_graphOf (he : e ∈ inputs.dependencies) (hne : e.source ≠ e.target)
    (hsource : e.source ∈ (c.policyOf ruleset inputs).order)
    (htarget : e.target ∈ (c.policyOf ruleset inputs).order)
    (hdrop : ¬ (c.policyOf ruleset inputs).store.Drops e)
    (hguard : ¬ (c.policyOf ruleset inputs).store.Guards e) :
    ((c.graphOf ruleset inputs).unguarded (c.policyOf ruleset inputs).guards).Needs
      e.source e.target := by
  refine Graph.needs_unguarded.2 ⟨?_, ?_⟩
  · exact mem_edges_dependencyGraph.2 ⟨⟨he, hne, hdrop⟩,
      excludesModule_of_mem (mem_order_policyOf.1 hsource),
      excludesModule_of_mem (mem_order_policyOf.1 htarget)⟩
  · rw [guards_policyOf]
    by_contra h
    exact hguard (guards_of_isGuarded (Bool.not_eq_false _ ▸ h))

/-- **Under strict settings the order respects every dependency** that is not guarded: if there is
a policy, whatever the rules and the inputs, its order holds no module twice, and of two modules of
the order the needed one comes strictly before the one that needs it, unless a live directive drops
the dependency or guards it. -/
theorem strict_order_is_topological (hstrict : c.strict = true)
    (h : c.resolveText name text inputs = .ok p) :
    p.order.Nodup ∧ ∀ e ∈ inputs.dependencies, e.source ≠ e.target →
      e.source ∈ p.order → e.target ∈ p.order → ¬ p.store.Drops e → ¬ p.store.Guards e →
        p.order.idxOf e.target < p.order.idxOf e.source := by
  unfold resolveText at h
  split at h
  · rename_i ruleset _
    have hacyclic := Graph.acyclic_unguarded (unbrokenCycles_of_resolve hstrict h)
    obtain rfl := eq_policyOf_of_resolve h
    refine ⟨?_, fun e he hne hsource htarget hdrop hguard => ?_⟩
    · rw [order_policyOf]
      exact (Graph.perm_order_guarded _ _ _).nodup_iff.2 (Graph.nodup_modules _)
    · have hneeds := needs_graphOf he hne hsource htarget hdrop hguard
      rw [order_policyOf]
      exact Graph.idxOf_lt_of_acyclic hacyclic hneeds
  · exact absurd h (by simp)

/-- Two modules that need each other, of which one dependency is dropped. -/
theorem strict_order_with_dropped_import : ∃ p,
    resolveText { strict := true, coverage := .anyEdge } "rules" "-import base: core\n"
      { dependencies := [⟨"core", "base"⟩, ⟨"base", "core"⟩] } = .ok p ∧
    p.order.idxOf "base" < p.order.idxOf "core" := by
  have hok : (resolveText { strict := true, coverage := .anyEdge } "rules" "-import base: core\n"
      { dependencies := [⟨"core", "base"⟩, ⟨"base", "core"⟩] }).toOption.any (fun p =>
        "core" ∈ p.order ∧ "base" ∈ p.order ∧ ¬ p.store.Drops ⟨"core", "base"⟩ ∧
          ¬ p.store.Guards ⟨"core", "base"⟩) = true := by decide +kernel
  cases hp : resolveText { strict := true, coverage := .anyEdge } "rules" "-import base: core\n"
      { dependencies := [⟨"core", "base"⟩, ⟨"base", "core"⟩] } with
  | error e => simp [hp, Except.toOption] at hok
  | ok p =>
    rw [hp] at hok
    obtain ⟨hcore, hbase, hdrop, hguard⟩ := of_decide_eq_true hok
    exact ⟨p, rfl, (strict_order_is_topological rfl hp).2 ⟨"core", "base"⟩ List.mem_cons_self
      (by decide) hcore hbase hdrop hguard⟩

end Config

end BindingRules
