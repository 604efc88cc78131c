import Mathlib
import BindingRules.Proofs.CycleCoverage
import BindingRules.Proofs.Schedule

set_option relaxedAutoImplicit false
set_option autoImplicit false

/-!
# Cycles in the generation order

Modules on a cycle cannot all come behind what they need, so one of them is forced. This is done
only where a component waits for nothing else, and therefore it disturbs no edge but those that lie
on cycles themselves.

What depends on a cycle without being on it waits for those members at which its requirements enter
the cycle, and for no others: once these are placed it may come next, in between the members that
are left, and even ahead of a smaller cycle that these still form.

## Main definitions

* `Graph.Approaches` — the edges on the way to a module by which one cannot come back.

## Main results

* `Graph.mem_of_chosen` — nothing is chosen ahead of what it approaches.
* `Graph.idxOf_lt_of_approaches` — the order keeps such ways.
* `Graph.order_keeps_edges_off_cycles` — the order keeps all edges that lie on no cycle.
* `Graph.cycle_entries_precede_dependents` — where a cycle is entered, its members come first.
-/

namespace BindingRules.Graph

open Relation

variable {g : Graph} {r : Ranking} {m s u v x : String} {forced : Bool}
  {rank : String → Rank} {emitted S : List String}

/-! ## Ways that do not lead back -/

/-- An edge on the way to `s` by which one cannot come back: `a` needs `b`, and `s` does not reach
`a`. -/
def Approaches (g : Graph) (s a b : String) : Prop := g.Needs a b ∧ ¬ g.Reaches s a

/-- A walk to a module that needs `s` is a way to `s`, if `s` does not reach that module. -/
lemma transGen_approaches (hmx : g.Reaches m x) (hxs : g.Needs x s) (hback : ¬ g.Reaches s x) :
    TransGen (g.Approaches s) m s := by
  induction hmx using ReflTransGen.head_induction_on with
  | refl => exact .single ⟨hxs, hback⟩
  | head hab hbx ih => exact .head ⟨hab, fun hsa => hback ((hsa.tail hab).trans hbx)⟩ ih

/-- **Nothing is chosen ahead of what it approaches**: if `s` is placed as soon as a module on a way
to it is, it is placed when such a module is chosen.

**Proof sketch.** If `s` is left, all modules on the way are. So the first one of them is not ready.
If it is forced, it belongs to a component of the modules that are left that no edge leaves, and `s`
does as well, so that `s` reaches it. -/
lemma mem_of_chosen (hchosen : g.Chosen r rank emitted m forced)
    (hway : TransGen (g.Approaches s) m s)
    (hearlier : ∀ x ∈ emitted, TransGen (g.Approaches s) x s → s ∈ emitted) : s ∈ emitted := by
  by_contra hs
  have hleft : ∀ {x}, TransGen (g.Approaches s) x s → x ∉ emitted :=
    fun hx hxe => hs (hearlier _ hxe hx)
  obtain ⟨y, ⟨hmy, hback⟩, hys⟩ := TransGen.head'_iff.1 hway
  cases hchosen with
  | ready _ hready _ =>
    have hy : y ∈ emitted := hready.2 y hmy
    rcases reflTransGen_iff_eq_or_transGen.1 hys with rfl | hys
    · exact hs hy
    · exact hleft hys hy
  | forced _ hentry =>
    have hwalk : (g.rest emitted).Reaches m s := by
      clear hmy hback hys hentry
      induction hway using TransGen.head_induction_on with
      | single h => exact .single (needs_rest.2 ⟨h.1, hleft (.single h), hs⟩)
      | head hab hbs ih =>
        exact ih.head (needs_rest.2 ⟨hab.1, hleft (.head hab hbs), hleft hbs⟩)
    exact hback (reaches_of_cycleEntry hentry hwalk).of_rest

/-- **The order keeps the ways that do not lead back**: a module comes behind all to which there is
such a way.

**Proof sketch.** Induction on the number of modules placed before it. Those of them with a way to
`s` come behind `s`, so nothing is chosen ahead of `s`. -/
lemma idxOf_lt_of_approaches (hway : TransGen (g.Approaches s) m s) :
    (g.orderUnguarded r).order.idxOf s < (g.orderUnguarded r).order.idxOf m := by
  obtain ⟨_, hmy, -⟩ := TransGen.head'_iff.1 hway
  refine idxOf_lt_of_forall_step hmy.1.source_mem fun before => ?_
  clear hmy
  induction hlen : before.length using Nat.strong_induction_on generalizing m before with
  | _ length ih =>
    intro forced after hsteps
    refine List.mem_reverse.1 (mem_of_chosen (chosen_of_scheduled hsteps) hway fun x hx hxs => ?_)
    rw [List.mem_reverse] at hx ⊢
    obtain ⟨⟨_, forced'⟩, hstep, rfl⟩ := List.mem_map.1 hx
    obtain ⟨earlier, between, rfl⟩ := List.append_of_mem hstep
    have hs : s ∈ earlier.map (·.1) :=
      ih earlier.length (by simp [← hlen]) hxs earlier rfl forced' (between ++ (m, forced) :: after)
        (by simpa using hsteps)
    rw [List.map_append]
    exact List.mem_append_left _ hs

/-! ## The order -/

/-- **The order keeps all edges that lie on no cycle.** Whatever the guards and the ranking, if a
module needs another one along an edge without guards and that one does not reach it along such
edges, it comes behind it. The edges that are not kept lie on cycles, and begin at modules that are
forced. -/
theorem order_keeps_edges_off_cycles (g : Graph) (guards : Guards) (r : Ranking)
    (hneeds : (g.unguarded guards).Needs u v) :
    (¬ (g.unguarded guards).Reaches v u →
      (g.order guards r).order.idxOf v < (g.order guards r).order.idxOf u) ∧
    ((g.order guards r).order.idxOf u < (g.order guards r).order.idxOf v →
      u ∈ (g.order guards r).forced ∧ (g.unguarded guards).LiesOnCycle ⟨u, v⟩) := by
  have hkept : ¬ (g.unguarded guards).Reaches v u →
      (g.order guards r).order.idxOf v < (g.order guards r).order.idxOf u :=
    fun hback => idxOf_lt_of_approaches (.single ⟨hneeds, hback⟩)
  refine ⟨hkept, fun hlt => ⟨?_, liesOnCycle_iff.2 ⟨hneeds, ?_⟩⟩⟩
  · by_contra hforced
    exact absurd (idxOf_lt_of_needs hneeds hforced) (Nat.lt_asymm hlt)
  · by_contra hback
    exact absurd (hkept hback) (Nat.lt_asymm hlt)

/-- A module that waits for a cycle and is mentioned first: its edge into the cycle is kept, and an
edge inside the cycle is not. -/
theorem order_keeps_edges_off_cycles_mentioned :
    let g := Graph.ofLists [] [⟨"X", "Y"⟩, ⟨"Y", "X"⟩, ⟨"P", "X"⟩]
    let r : Ranking := ⟨fun _ => none, fun m => if m = "P" then some 0 else none⟩
    ((g.unguarded {}).Needs "P" "X" ∧ ¬ (g.unguarded {}).Reaches "X" "P" ∧
      (g.order {} r).order.idxOf "X" < (g.order {} r).order.idxOf "P") ∧
    (g.unguarded {}).Needs "X" "Y" ∧
      (g.order {} r).order.idxOf "X" < (g.order {} r).order.idxOf "Y" ∧
      "X" ∈ (g.order {} r).forced ∧ (g.unguarded {}).LiesOnCycle ⟨"X", "Y"⟩ := by
  intro g r
  have hPX : (g.unguarded {}).Needs "P" "X" := by decide +kernel
  have hXP : ¬ (g.unguarded {}).Reaches "X" "P" := by decide +kernel
  have hXY : (g.unguarded {}).Needs "X" "Y" := by decide +kernel
  have horder : (g.order {} r).order = ["X", "P", "Y"] := by cbv
  have hlt : (g.order {} r).order.idxOf "X" < (g.order {} r).order.idxOf "Y" := by
    rw [horder]
    decide
  exact ⟨⟨hPX, hXP, (order_keeps_edges_off_cycles g {} r hPX).1 hXP⟩, hXY, hlt,
    (order_keeps_edges_off_cycles g {} r hXY).2 hlt⟩

/-- **Where a cycle is entered, its members come first.** Whatever the guards and the ranking, if a
module requires a component along edges without guards and no member of the component requires it,
then some member comes before it, and so do all members that are needed by it or by a module outside
of the component that it requires. -/
theorem cycle_entries_precede_dependents (g : Graph) (guards : Guards) (r : Ranking)
    (hS : S ∈ (g.unguarded guards).components)
    (hrequires : ∃ s ∈ S, (g.unguarded guards).Reaches m s)
    (hback : ∀ s ∈ S, ¬ (g.unguarded guards).Reaches s m) :
    (∃ s ∈ S, (g.order guards r).order.idxOf s < (g.order guards r).order.idxOf m) ∧
    ∀ s ∈ S, ∀ x ∉ S, (g.unguarded guards).Reaches m x → (g.unguarded guards).Needs x s →
      (g.order guards r).order.idxOf s < (g.order guards r).order.idxOf m := by
  have hentries : ∀ s ∈ S, ∀ x ∉ S, (g.unguarded guards).Reaches m x →
      (g.unguarded guards).Needs x s →
        (g.order guards r).order.idxOf s < (g.order guards r).order.idxOf m := by
    intro s hs x hx hmx hxs
    refine idxOf_lt_of_approaches (transGen_approaches hmx hxs fun hsx => hx ?_)
    rw [eq_component_of_mem hS hs]
    exact mem_component.2 ⟨hxs.source_mem, hsx, .single hxs⟩
  refine ⟨?_, hentries⟩
  obtain ⟨t, ht, hmt⟩ := hrequires
  have hm : m ∉ S := fun hm => hback m hm .refl
  obtain ⟨x, s, hmx, hx, hxs, hs⟩ := exists_entering (S := (· ∈ S)) hmt hm ht
  exact ⟨s, hs, hentries s hs x hx hmx hxs⟩

/-- A module that needs one of three modules on overlapping cycles: that one comes before it. -/
theorem cycle_entries_precede_dependents_overlapping :
    let g := Graph.ofLists [] [⟨"A", "B"⟩, ⟨"B", "A"⟩, ⟨"B", "C"⟩, ⟨"C", "B"⟩, ⟨"D", "A"⟩]
    let r : Ranking := ⟨fun _ => none, fun _ => none⟩
    ["A", "B", "C"] ∈ (g.unguarded {}).components ∧ (g.unguarded {}).Needs "D" "A" ∧
    (∀ s ∈ ["A", "B", "C"], ¬ (g.unguarded {}).Reaches s "D") ∧
    (g.order {} r).order.idxOf "A" < (g.order {} r).order.idxOf "D" := by
  intro g r
  have hS : ["A", "B", "C"] ∈ (g.unguarded {}).components :=
    mem_components.2 ⟨"A", by decide +kernel, by decide +kernel⟩
  have hDA : (g.unguarded {}).Needs "D" "A" := by decide +kernel
  have hback : ∀ s ∈ ["A", "B", "C"], ¬ (g.unguarded {}).Reaches s "D" := by decide +kernel
  exact ⟨hS, hDA, hback, (cycle_entries_precede_dependents g {} r hS
    ⟨"A", List.mem_cons_self, .single hDA⟩ hback).2 "A" List.mem_cons_self "D" (by decide) .refl
      hDA⟩

/-- The two others need each other, and the module requires both of them. But it comes before them:
it waits for nothing any more when the first one has been forced, and they do. -/
theorem dependent_precedes_cycle :
    let g := Graph.ofLists [] [⟨"A", "B"⟩, ⟨"B", "A"⟩, ⟨"B", "C"⟩, ⟨"C", "B"⟩, ⟨"D", "A"⟩]
    let r : Ranking := ⟨fun _ => none, fun _ => none⟩
    ((g.unguarded {}).Reaches "B" "C" ∧ (g.unguarded {}).Reaches "C" "B") ∧
    (g.unguarded {}).Reaches "D" "B" ∧
    (∀ s ∈ ["B", "C"], ¬ (g.unguarded {}).Reaches s "D") ∧
    g.order {} r = { order := ["A", "D", "B", "C"], conflicts := [], forced := ["A", "B"] } := by
  intro g r
  refine ⟨by decide +kernel, by decide +kernel, by decide +kernel, ?_⟩
  cbv

end BindingRules.Graph
