import BindingRules.Proofs.Requirements
import BindingRules.Proofs.Schedule

set_option relaxedAutoImplicit false
set_option autoImplicit false

/-!
# Priorities in the generation order

As long as a module with a priority is left, some module that it requires, or the module itself, is
ready in a graph without cycles, and it has inherited that priority. So nothing of a greater
priority is placed, and nothing without one. Where no priorities are in conflict, a module inherits
no priority that is less than its own, so that the stated priorities decide.

## Main results

* `Graph.exists_ready` — in a graph without cycles something that a module requires is ready.
* `Graph.idxOf_lt_of_outranked` — a module comes before all those of greater priority or without
  one.
* `Graph.le_effectivePriority` — without conflicts no module inherits a lesser priority.
* `Graph.order_respects_priorities` — the order respects the stated priorities.
-/

namespace BindingRules.Graph

open Relation

variable {g : Graph} {r : Ranking} {a b m x : String} {p q : ℤ} {emitted : List String}

/-- In a graph without cycles, some module that a module reaches is ready as long as that module is
left. -/
lemma exists_ready (hacyclic : g.Acyclic) (hm : m ∉ emitted) :
    ∃ x, g.Reaches m x ∧ g.Ready emitted x := by
  by_contra hnone
  push Not at hnone
  obtain ⟨c, hc, hlen, -⟩ := exists_closed_of_not_ready hnone hm
  obtain ⟨x, hx⟩ := List.exists_mem_of_length_pos (Nat.lt_of_succ_lt hlen)
  exact hacyclic x (transGen_of_rest (transGen_of_mem_component hc hlen hx))

/-- A module of which the effective priority is at most `p` comes before one of which it is greater,
or which has none. -/
lemma rank_lt_of_outranked {priorities : Table String ℤ} (hx : ∃ q ∈ priorities.get? x, q ≤ p)
    (hb : ∀ q ∈ priorities.get? b, p < q) :
    Rank.lt (rankOf priorities x) (rankOf priorities b) = true := by
  obtain ⟨q, hq, hle⟩ := hx
  cases hb' : priorities.get? b with
  | none => simp [Rank.lt, rankOf, Option.mem_def.1 hq, hb']
  | some q' =>
    have hlt : q < q' := hle.trans_lt (hb q' hb')
    exact (Rank.lt_iff_of_some (Option.mem_def.1 hq) hb').2 (.inl hlt)

/-- **A module with a priority comes before all those of which the effective priority is greater,**
and before those that have none, in a graph without cycles.

**Proof sketch.** As long as the module is left, something that it reaches is ready. That has
inherited its priority, so it has a lesser rank than those. -/
lemma idxOf_lt_of_outranked (hacyclic : g.Acyclic) (ha : a ∈ g.modules)
    (hp : r.priority a = some p) (hb : b ∈ g.modules)
    (hout : ∀ q ∈ (g.effectivePriorities r).get? b, p < q) :
    (g.orderUnguarded r).order.idxOf a < (g.orderUnguarded r).order.idxOf b := by
  refine idxOf_lt_of_forall_step hb fun before forced after hsteps => ?_
  by_contra hleft
  rw [← List.mem_reverse] at hleft
  cases chosen_of_scheduled hsteps with
  | forced _ hentry => exact hacyclic b ((placed_of_cycleEntry hentry).cyclic rfl)
  | ready _ _ hleast =>
    obtain ⟨x, hax, hready⟩ := exists_ready hacyclic hleft
    have hx : ∃ q ∈ (g.effectivePriorities r).get? x, q ≤ p :=
      exists_effectivePriority_le_iff.2 ⟨a, ha, p, hp, le_rfl, hax⟩
    have hlt := rank_lt_of_outranked hx hout
    rw [hleast x (hax.mem_modules ha) hready] at hlt
    exact Bool.noConfusion hlt

/-- Without conflicts no module inherits a priority that is less than its own. -/
lemma le_effectivePriority (hconflicts : g.conflicts r = []) (hq : r.priority b = some q) :
    ∀ e ∈ (g.effectivePriorities r).get? b, q ≤ e := by
  intro e he
  obtain ⟨m, hm, p, hp, hle, hreach⟩ := exists_of_effectivePriority he
  refine le_trans ?_ hle
  by_cases hbm : b = m
  · subst hbm
    rw [Option.some.inj (hq.symm.trans hp)]
  · by_contra hlt
    have hconflict : ⟨m, b, p, q⟩ ∈ g.conflicts r :=
      mem_conflicts.2 ⟨hm, hp, hbm, hreach, hq, not_le.1 hlt⟩
    rw [hconflicts] at hconflict
    exact List.not_mem_nil hconflict

/-- **The order respects the stated priorities.** Whatever the guards and the ranking, if there are
no conflicts and nothing is forced, a module of lesser priority comes before a module of greater
priority, and a module that has no priority and that no module with a priority requires comes behind
all modules with a priority. -/
theorem order_respects_priorities (g : Graph) (guards : Guards) (r : Ranking)
    (hconflicts : (g.order guards r).conflicts = []) (hforced : (g.order guards r).forced = []) :
    (∀ a ∈ g.modules, ∀ b ∈ g.modules, ∀ p q, r.priority a = some p → r.priority b = some q →
      p < q → (g.order guards r).order.idxOf a < (g.order guards r).order.idxOf b) ∧
    ∀ b ∈ g.modules, r.priority b = none →
      (∀ a ∈ g.modules, (r.priority a).isSome → ¬ (g.unguarded guards).Reaches a b) →
        ∀ a ∈ g.modules, (r.priority a).isSome →
          (g.order guards r).order.idxOf a < (g.order guards r).order.idxOf b := by
  have hacyclic : (g.unguarded guards).Acyclic := forced_eq_nil_iff.1 hforced
  constructor
  · intro a ha b hb p q hp hq hlt
    exact idxOf_lt_of_outranked hacyclic ha hp hb fun e he =>
      hlt.trans_le (le_effectivePriority hconflicts hq e he)
  · intro b hb _ hfree a ha hsome
    obtain ⟨p, hp⟩ := Option.isSome_iff_exists.1 hsome
    refine idxOf_lt_of_outranked hacyclic ha hp hb fun e he => ?_
    obtain ⟨m, hm, q, hq, -, hreach⟩ := exists_of_effectivePriority he
    exact absurd hreach (hfree m hm (Option.isSome_iff_exists.2 ⟨q, hq⟩))

/-- Names in the opposite order: the module of lesser priority comes first although it waits for one
without a priority, and the module that nothing requires comes last. -/
theorem order_respects_priorities_inherited :
    let g := Graph.ofLists ["alpha", "beta"] [⟨"zeta", "gamma"⟩]
    let r : Ranking :=
      ⟨fun m => if m = "zeta" then some 1 else if m = "alpha" then some 2 else none, fun _ => none⟩
    ((g.order {} r).conflicts = [] ∧ (g.order {} r).forced = []) ∧
    (g.order {} r).order.idxOf "zeta" < (g.order {} r).order.idxOf "alpha" ∧
    (g.order {} r).order.idxOf "alpha" < (g.order {} r).order.idxOf "beta" := by
  intro g r
  have hconflicts : (g.order {} r).conflicts = [] := by decide +kernel
  have hforced : (g.order {} r).forced = [] := by decide +kernel
  obtain ⟨hlesser, hnone⟩ := order_respects_priorities g {} r hconflicts hforced
  have halpha : "alpha" ∈ g.modules := by decide +kernel
  have hfree : ∀ a ∈ g.modules, (r.priority a).isSome → ¬ (g.unguarded {}).Reaches a "beta" := by
    decide +kernel
  exact ⟨⟨hconflicts, hforced⟩,
    hlesser "zeta" (by decide +kernel) "alpha" halpha 1 2 rfl rfl (by decide),
    hnone "beta" (by decide +kernel) rfl hfree "alpha" halpha rfl⟩

end BindingRules.Graph
