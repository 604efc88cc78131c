import BindingRules.Graph.Coverage
import BindingRules.Proofs.Component
import BindingRules.Proofs.Path
import Mathlib.Data.List.Nodup

set_option relaxedAutoImplicit false
set_option autoImplicit false

/-!
# Guards on every edge of a cycle

Where a project demands a guard on every edge that lies on a cycle, the complaints name exactly the
edges on cycles that have none, each of them once, with a cycle that leads through the edge.

## Main definitions

* `Graph.IsCycleFrom` — closed walks that begin with a given edge.
* `Graph.LiesOnCycle` — edges with which some closed walk begins.
* `Graph.uncoveredEdges` — the edges that are complained about.

## Main results

* `Graph.liesOnCycle_iff`, `Graph.onCycle_iff` — an edge lies on a cycle if its target reaches its
  source, that is, if both belong to one component.
* `Graph.mem_uncoveredEdges`, `Graph.nodup_uncoveredEdges` — the edges that are complained about.
* `Graph.isCycleFrom_cycleThrough` — the cycle in a complaint.
* `Graph.unbrokenCycles_everyEdge_exact` — the complaints are exact.
-/

namespace BindingRules.Graph

open Relation

variable {g : Graph} {guards guards' : Guards} {e : Edge} {a b : String} {c cycle : List String}

/-! ## Cycles through an edge -/

/-- A closed walk along edges that begins with the edge `e`: from its source to its target, and on
until it is back at the source. -/
structure IsCycleFrom (g : Graph) (e : Edge) (cycle : List String) : Prop where
  /-- The walk begins with the edge. -/
  start : ∃ rest, cycle = e.source :: e.target :: rest
  /-- The walk ends where it began. -/
  closed : cycle.getLast? = some e.source
  /-- The walk follows edges. -/
  chain : cycle.IsChain g.Needs

/-- Some closed walk begins with the edge. -/
def LiesOnCycle (g : Graph) (e : Edge) : Prop := ∃ cycle, g.IsCycleFrom e cycle

/-- An edge lies on a cycle exactly if a walk leads from its target back to its source. -/
lemma liesOnCycle_iff : g.LiesOnCycle e ↔ e ∈ g.edges ∧ g.Reaches e.target e.source := by
  constructor
  · rintro ⟨_, ⟨rest, rfl⟩, hclosed, hchain⟩
    obtain ⟨hedge, hrest⟩ := List.isChain_cons_cons.1 hchain
    refine ⟨hedge, List.relationReflTransGen_of_exists_isChain_cons rest hrest ?_⟩
    rw [List.getLast?_cons_cons,
      List.getLast?_eq_getLast_of_ne_nil (List.cons_ne_nil _ _)] at hclosed
    exact Option.some.inj hclosed
  · rintro ⟨hedge, hback⟩
    obtain ⟨rest, hchain, hlast⟩ := List.exists_isChain_cons_of_relationReflTransGen hback
    refine ⟨e.source :: e.target :: rest, ⟨rest, rfl⟩, ?_, .cons_cons hedge hchain⟩
    rw [List.getLast?_cons_cons, List.getLast?_eq_getLast_of_ne_nil (List.cons_ne_nil _ _), hlast]

/-- Tests that agree on a list find the same position. -/
lemma findIdx?_congr {α : Type} {p q : α → Bool} {l : List α} (h : ∀ x ∈ l, p x = q x) :
    l.findIdx? p = l.findIdx? q := by
  induction l with
  | nil => rfl
  | cons x l ih =>
    rw [List.findIdx?_cons, List.findIdx?_cons, h x List.mem_cons_self,
      ih fun y hy => h y (List.mem_cons_of_mem _ hy)]

/-- Two modules belong to the same component if one of the components holds both. -/
lemma sameComponent_iff :
    sameComponent g.components a b = true ↔ ∃ c ∈ g.components, a ∈ c ∧ b ∈ c := by
  unfold sameComponent
  constructor
  · intro h
    split at h
    · rename_i i j hi hj
      obtain rfl := beq_iff_eq.1 h
      obtain ⟨hlt, ha, -⟩ := List.findIdx?_eq_some_iff_getElem.1 hi
      obtain ⟨_, hb, -⟩ := List.findIdx?_eq_some_iff_getElem.1 hj
      exact ⟨_, List.getElem_mem hlt, List.contains_iff_mem.1 ha, List.contains_iff_mem.1 hb⟩
    · exact Bool.noConfusion h
  · rintro ⟨c, hc, ha, hb⟩
    have hsame : ∀ d ∈ g.components, d.contains a = d.contains b := by
      intro d hd
      rw [Bool.eq_iff_iff, List.contains_iff_mem, List.contains_iff_mem]
      constructor
      · intro had
        rwa [eq_component_of_mem hd had, ← eq_component_of_mem hc ha]
      · intro hbd
        rwa [eq_component_of_mem hd hbd, ← eq_component_of_mem hc hb]
    rw [findIdx?_congr hsame]
    cases hi : g.components.findIdx? (·.contains b) with
    | none => simpa [hb] using List.findIdx?_eq_none_iff.1 hi c hc
    | some i => exact beq_self_eq_true i

/-- The test for edges on cycles is exact. -/
lemma onCycle_iff : g.onCycle g.components e = true ↔ g.LiesOnCycle e := by
  rw [liesOnCycle_iff, onCycle, Bool.and_eq_true, hasEdge, List.contains_iff_mem, sameComponent_iff]
  refine and_congr_right fun hedge => ?_
  have hneeds : g.Needs e.source e.target := hedge
  constructor
  · rintro ⟨c, hc, hsource, htarget⟩
    rw [eq_component_of_mem hc hsource] at htarget
    exact (mem_component.1 htarget).2.2
  · intro hback
    exact ⟨g.component e.source, component_mem_components hneeds.source_mem,
      mem_component_self hneeds.source_mem,
      mem_component.2 ⟨hneeds.target_mem, .single hneeds, hback⟩⟩

/-- A walk from a member of a component to another one stays inside the component. -/
lemma needsWithin_component (hab : g.Reaches a b) (hba : g.Reaches b a) :
    ReflTransGen (g.NeedsWithin (g.component b).contains) a b := by
  induction hab using ReflTransGen.head_induction_on with
  | refl => exact .refl
  | @head x y hxy hyb ih =>
    have hby : g.Reaches b y := hba.tail hxy
    refine .head ⟨hxy, ?_⟩ (ih hby)
    exact List.contains_iff_mem.2 (mem_component.2 ⟨hxy.target_mem, hby, hyb⟩)

/-- The way back that a complaint shows is always found, and closes a cycle. -/
lemma isCycleFrom_cycleThrough (h : g.LiesOnCycle e) :
    g.IsCycleFrom e (g.cycleThrough (g.component e.source) e) := by
  obtain ⟨hedge, hback⟩ := liesOnCycle_iff.1 h
  obtain ⟨path, hpath⟩ := exists_pathWithin (needsWithin_component hback (.single hedge))
  obtain ⟨hchain, hhead, hlast⟩ := pathWithin_sound hpath
  obtain ⟨rest, rfl⟩ := List.head?_eq_some_iff.1 hhead
  simp only [cycleThrough, hpath, Option.getD_some]
  exact ⟨⟨rest, rfl⟩, by rwa [List.getLast?_cons_cons], .cons_cons hedge hchain⟩

/-! ## Edges without guards -/

/-- The edges on cycles that have no guard, component by component. -/
def uncoveredEdges (g : Graph) (guards : Guards) : List Edge :=
  (g.components.filter fun members => 1 < members.length).flatMap fun members =>
    members.flatMap (g.uncoveredFrom guards g.components)

/-- These are the edges that are complained about. -/
lemma map_edge_uncoveredCycles (g : Graph) (guards : Guards) :
    (g.uncoveredCycles guards).map UnbrokenCycle.edge = g.uncoveredEdges guards := by
  simp [uncoveredCycles, uncoveredEdges, List.map_flatMap, Function.comp_def]

/-- Of the edges from a module, those on cycles without guards are uncovered. -/
lemma mem_uncoveredFrom {m : String} : e ∈ g.uncoveredFrom guards g.components m ↔
    e.source = m ∧ g.LiesOnCycle e ∧ guards.isGuarded e = false := by
  simp only [uncoveredFrom, List.mem_filter, List.mem_map, mem_dependencies, Bool.and_eq_true,
    onCycle_iff, Bool.not_eq_true']
  constructor
  · rintro ⟨⟨d, -, rfl⟩, h⟩
    exact ⟨rfl, h⟩
  · rintro ⟨rfl, h⟩
    exact ⟨⟨e.target, (liesOnCycle_iff.1 h.1).1, rfl⟩, h⟩

/-- No edge from a module is uncovered twice. -/
lemma nodup_uncoveredFrom (g : Graph) (guards : Guards) (m : String) :
    (g.uncoveredFrom guards g.components m).Nodup := by
  have hinj : Function.Injective (Edge.mk m) := fun _ _ h => (Edge.mk.inj h).2
  exact ((nodup_dependencies g m).map hinj).filter _

/-- Exactly the edges on cycles without guards are uncovered. -/
lemma mem_uncoveredEdges : e ∈ g.uncoveredEdges guards ↔
    g.LiesOnCycle e ∧ guards.isGuarded e = false := by
  simp only [uncoveredEdges, List.mem_flatMap, List.mem_filter, decide_eq_true_eq,
    mem_uncoveredFrom]
  constructor
  · rintro ⟨c, -, m, -, -, h⟩
    exact h
  · intro h
    obtain ⟨hedge, hback⟩ := liesOnCycle_iff.1 h.1
    have hneeds : g.Needs e.source e.target := hedge
    have hsource : e.source ∈ g.component e.source := mem_component_self hneeds.source_mem
    have htarget : e.target ∈ g.component e.source :=
      mem_component.2 ⟨hneeds.target_mem, .single hneeds, hback⟩
    exact ⟨g.component e.source, ⟨component_mem_components hneeds.source_mem,
      one_lt_length_component htarget hsource hneeds.ne.symm⟩, e.source, hsource, rfl, h⟩

/-- No edge is uncovered twice: its source decides where it is listed. -/
lemma nodup_uncoveredEdges (g : Graph) (guards : Guards) : (g.uncoveredEdges guards).Nodup := by
  rw [uncoveredEdges]
  refine List.nodup_flatMap.2 ⟨fun c hc => List.nodup_flatMap.2
    ⟨fun m _ => nodup_uncoveredFrom g guards m, ?_⟩, ?_⟩
  · obtain ⟨m, -, rfl⟩ := mem_components.1 (List.mem_filter.1 hc).1
    refine (nodup_component g m).imp fun {a b} hab e hea heb => hab ?_
    exact (mem_uncoveredFrom.1 hea).1.symm.trans (mem_uncoveredFrom.1 heb).1
  · refine ((pairwise_disjoint_components g).filter _).imp fun {c d} hcd e hec hed => ?_
    obtain ⟨m, hm, hem⟩ := List.mem_flatMap.1 hec
    obtain ⟨n, hn, hen⟩ := List.mem_flatMap.1 hed
    obtain rfl : m = n := (mem_uncoveredFrom.1 hem).1.symm.trans (mem_uncoveredFrom.1 hen).1
    exact hcd hm hn

/-! ## Complaints -/

/-- The cycles that guards do not break depend on the edges that have guards. -/
lemma unbrokenCycles_congr (h : guards.isGuarded = guards'.isGuarded) (g : Graph)
    (coverage : Coverage) :
    g.unbrokenCycles guards coverage = g.unbrokenCycles guards' coverage := by
  cases coverage with
  | everyEdge => simp only [unbrokenCycles, uncoveredCycles, uncoveredFrom, h]
  | anyEdge => simp only [unbrokenCycles, unguarded, h]

/-- **The complaints are exact** where every edge on a cycle needs a guard: there is one for each
edge without guards that lies on a cycle of the whole graph, none twice and no other. Each of them
shows a closed walk that begins with its edge. -/
theorem unbrokenCycles_everyEdge_exact (g : Graph) (guards : Guards) :
    ((g.unbrokenCycles guards .everyEdge).map UnbrokenCycle.edge).Nodup ∧
    (∀ e, e ∈ (g.unbrokenCycles guards .everyEdge).map UnbrokenCycle.edge ↔
      e ∈ g.edges ∧ guards.isGuarded e = false ∧ g.LiesOnCycle e) ∧
    ∀ c ∈ g.unbrokenCycles guards .everyEdge, g.IsCycleFrom c.edge c.cycle := by
  have hedges : (g.unbrokenCycles guards .everyEdge).map UnbrokenCycle.edge =
      g.uncoveredEdges guards := map_edge_uncoveredCycles g guards
  refine ⟨hedges ▸ nodup_uncoveredEdges g guards, fun e => ?_, fun c hc => ?_⟩
  · rw [hedges, mem_uncoveredEdges]
    constructor
    · rintro ⟨hcycle, hfree⟩
      exact ⟨(liesOnCycle_iff.1 hcycle).1, hfree, hcycle⟩
    · rintro ⟨-, hfree, hcycle⟩
      exact ⟨hcycle, hfree⟩
  · simp only [unbrokenCycles, uncoveredCycles, List.mem_flatMap, List.mem_map,
      List.mem_filter] at hc
    obtain ⟨members, ⟨hmembers, -⟩, m, hm, e, he, rfl⟩ := hc
    obtain ⟨rfl, hcycle, -⟩ := mem_uncoveredFrom.1 he
    rw [eq_component_of_mem hmembers hm]
    exact isCycleFrom_cycleThrough hcycle

end BindingRules.Graph
