import BindingRules.Proofs.Agenda
import BindingRules.Proofs.Component

set_option relaxedAutoImplicit false
set_option autoImplicit false

/-!
# The generation order

The schedule places one module after the other. Each step either takes a module of which all
dependencies are placed, or forces a member of a cycle that waits for nothing else; one of the two
is always possible while a module is left, so the order holds every module once.

## Main definitions

* `Graph.Chosen` — which module a step of the schedule may choose.
* `Graph.Placed`, `Graph.PlacedAll` — what a step of the schedule, and all of them, guarantee.
* `Graph.scheduled` — the steps behind an order.

## Main results

* `Graph.reaches_of_cycleEntry`, `Graph.exists_cycleEntry` — what is forced, and that forcing is
  possible when no module is ready.
* `Graph.schedule_succ`, `Graph.placed_of_chosen` — a step of the schedule, and what it guarantees.
* `Graph.chosen_of_schedule` — how the steps in the middle of a schedule choose.
* `Graph.placedAll_schedule`, `Graph.perm_order` — what the whole schedule guarantees.
* `Graph.idxOf_lt_of_needs` — a module that is not forced comes behind what it needs.
* `Graph.order_places_every_module` — the order is complete, and modules are forced for cycles only.
-/

namespace BindingRules.Graph

open Relation

variable {g : Graph} {guards : Guards} {r : Ranking} {a b d m n : String} {forced : Bool}
  {rank : String → Rank} {plan : Agenda}
  {emitted : List String} {steps : List (String × Bool)} {c : List String}

/-! ## Graphs with fewer edges -/

/-- Only edges without guards are left. -/
lemma needs_unguarded : (g.unguarded guards).Needs a b ↔
    g.Needs a b ∧ guards.isGuarded ⟨a, b⟩ = false := by
  simp [Needs, unguarded, filterEdges]

/-- Only edges between modules that are not placed are left. -/
lemma needs_rest : (g.rest emitted).Needs a b ↔ g.Needs a b ∧ a ∉ emitted ∧ b ∉ emitted := by
  simp [Needs, rest, filterEdges]

/-- What a walk among the modules that are left reaches is also reached among all. -/
lemma Reaches.of_rest (h : (g.rest emitted).Reaches a b) : g.Reaches a b :=
  ReflTransGen.mono (fun _ _ h => (needs_rest.1 h).1) _ _ h

/-- A walk of at least one edge among the modules that are left is one among all. -/
lemma transGen_of_rest (h : TransGen (g.rest emitted).Needs a b) : TransGen g.Needs a b :=
  TransGen.mono (fun _ _ h => (needs_rest.1 h).1) _ _ h

/-- A walk among the modules that are left stays among them. -/
lemma Reaches.notMem_of_rest (h : (g.rest emitted).Reaches a b) (ha : a ∉ emitted) :
    b ∉ emitted := by
  rcases ReflTransGen.cases_tail h with rfl | ⟨x, -, hxb⟩
  · exact ha
  · exact (needs_rest.1 hxb).2.2

/-! ## One step -/

/-- What a step guarantees that places a module behind those in `emitted`: the module is a new one,
and what it needs stands before it, unless it is forced because of a cycle through both. -/
structure Placed (g : Graph) (emitted : List String) (m : String) (forced : Bool) : Prop where
  /-- The module belongs to the graph. -/
  mem : m ∈ g.modules
  /-- It has not been placed before. -/
  fresh : m ∉ emitted
  /-- What it needs has been placed, or is on a cycle with it. -/
  needs : ∀ d, g.Needs m d → d ∈ emitted ∨ forced = true ∧ g.Reaches d m
  /-- Only modules on cycles are forced. -/
  cyclic : forced = true → TransGen g.Needs m m

/-- Which module comes behind those in `emitted`: of those that are ready the first one by rank, and
if none is ready one that is forced. -/
inductive Chosen (g : Graph) (r : Ranking) (rank : String → Rank) (emitted : List String) :
    String → Bool → Prop
  /-- The module is ready, and none that is ready has a lesser rank. -/
  | ready {m : String} (mem : m ∈ g.modules) (ready : g.Ready emitted m)
      (least : ∀ n ∈ g.modules, g.Ready emitted n → Rank.lt (rank n) (rank m) = false) :
      Chosen g r rank emitted m false
  /-- No module is ready, and the module is the entry of a cycle. -/
  | forced {m : String} (stuck : ∀ n ∈ g.modules, ¬ g.Ready emitted n)
      (entry : (g.rest emitted).cycleEntry r = some m) : Chosen g r rank emitted m true

/-- What makes a component a closed cycle: several members, and no edge out of it. -/
lemma mem_closedCycles : c ∈ g.closedCycles ↔
    c ∈ g.components ∧ 1 < c.length ∧ ∀ a ∈ c, ∀ b, g.Needs a b → b ∈ c := by
  simp [closedCycles, mem_dependencies, Needs]

/-- A ready module can be placed. -/
lemma placed_of_ready (hm : m ∈ g.modules) (h : g.Ready emitted m) : g.Placed emitted m false where
  mem := hm
  fresh := h.1
  needs d hd := .inl (h.2 d hd)
  cyclic h := nomatch h

/-- Whatever an entry of a cycle reaches among the modules that are left reaches it, too. -/
lemma reaches_of_cycleEntry (h : (g.rest emitted).cycleEntry r = some m)
    (hmd : (g.rest emitted).Reaches m d) : (g.rest emitted).Reaches d m := by
  obtain ⟨c, hc, hm⟩ := List.mem_flatten.1 (mem_of_leastBy? h)
  obtain ⟨hcomp, -, hclosed⟩ := mem_closedCycles.1 hc
  have hd : d ∈ c := by
    induction hmd with
    | refl => exact hm
    | tail _ hab ih => exact hclosed _ ih _ hab
  rw [eq_component_of_mem hcomp hm] at hd
  exact (mem_component.1 hd).2.2

/-- A module that is forced can be placed: all that it waits for is on a cycle with it. -/
lemma placed_of_cycleEntry (h : (g.rest emitted).cycleEntry r = some m) :
    g.Placed emitted m true := by
  obtain ⟨c, hc, hm⟩ := List.mem_flatten.1 (mem_of_leastBy? h)
  obtain ⟨hcomp, hlen, -⟩ := mem_closedCycles.1 hc
  have hcycle : TransGen (g.rest emitted).Needs m m := transGen_of_mem_component hcomp hlen hm
  obtain ⟨x, hmx, -⟩ := TransGen.head'_iff.1 hcycle
  obtain ⟨hgmx, hfresh, -⟩ := needs_rest.1 hmx
  refine ⟨hgmx.source_mem, hfresh, fun d hd => ?_, fun _ => ?_⟩
  · by_cases hde : d ∈ emitted
    · exact .inl hde
    · have hmd : (g.rest emitted).Needs m d := needs_rest.2 ⟨hd, hfresh, hde⟩
      exact .inr ⟨rfl, (reaches_of_cycleEntry h (.single hmd)).of_rest⟩
  · exact transGen_of_rest hcycle

/-- What is chosen can be placed. -/
lemma placed_of_chosen (h : g.Chosen r rank emitted m forced) : g.Placed emitted m forced := by
  cases h with
  | ready hm hready _ => exact placed_of_ready hm hready
  | forced _ hentry => exact placed_of_cycleEntry hentry

/-- While a module is left and none that it reaches is ready, some component of several modules that
are left is left by no edge.

**Proof sketch.** No module that is reached is ready, so each of them that is left needs another one
that is left, and every walk among them can go on. -/
lemma exists_closed_of_not_ready (hstuck : ∀ n, g.Reaches m n → ¬ g.Ready emitted n)
    (hme : m ∉ emitted) : ∃ c ∈ (g.rest emitted).components, 1 < c.length ∧
      ∀ a ∈ c, ∀ b, (g.rest emitted).Needs a b → b ∈ c := by
  have hgo : ∀ n, (g.rest emitted).Reaches m n → ∃ k, (g.rest emitted).Needs n k := by
    intro n hmn
    have hne : n ∉ emitted := hmn.notMem_of_rest hme
    by_contra hend
    push Not at hend
    refine hstuck n hmn.of_rest ⟨hne, fun d hd => ?_⟩
    by_contra hde
    exact hend d (needs_rest.2 ⟨hd, hne, hde⟩)
  exact exists_closed_component hgo

/-- **Cycle entries exist**: while a module is left and none is ready, some module can be forced. -/
lemma exists_cycleEntry (hstuck : ∀ n ∈ g.modules, ¬ g.Ready emitted n)
    (hm : m ∈ g.modules) (hme : m ∉ emitted) : ∃ n, (g.rest emitted).cycleEntry r = some n := by
  obtain ⟨c, hc, hlen, hclosed⟩ :=
    exists_closed_of_not_ready (fun n hmn => hstuck n (hmn.mem_modules hm)) hme
  obtain ⟨x, hx⟩ := List.exists_mem_of_length_pos (Nat.lt_of_succ_lt hlen)
  have hflat : x ∈ (g.rest emitted).closedCycles.flatten :=
    List.mem_flatten.2 ⟨c, mem_closedCycles.2 ⟨hc, hlen, hclosed⟩, hx⟩
  refine Option.ne_none_iff_exists'.1 fun hnone => ?_
  rw [leastBy?_eq_none.1 hnone] at hflat
  exact List.not_mem_nil hflat

/-- **A step of the schedule** chooses a module and goes on with an agenda that agrees with it, or
every module is placed. -/
lemma schedule_succ (hrank : ∀ m, (rank m).name = m) (count : ℕ)
    (hplan : Agenda.Reflects g rank emitted plan) :
    (∃ m forced plan', g.Chosen r rank emitted m forced ∧
      Agenda.Reflects g rank (m :: emitted) plan' ∧
      g.schedule r rank (count + 1) emitted plan =
        (m, forced) :: g.schedule r rank count (m :: emitted) plan') ∨
    (∀ m ∈ g.modules, m ∈ emitted) ∧ g.schedule r rank (count + 1) emitted plan = [] := by
  cases hready : plan.ready with
  | cons k ready =>
    obtain ⟨m, hm, hfree, rfl, hleast, hrest⟩ := hplan.head hrank hready
    have hincreasing : Increasing Rank.lt ready := (hready ▸ hplan.increasing).tail
    refine .inl ⟨m, false, Agenda.place g rank emitted { plan with ready } m,
      .ready hm hfree hleast,
      Agenda.reflects_place hfree.1 hplan.pending hincreasing hrest, ?_⟩
    simp only [schedule, hready, hrank]
  | nil =>
    have hstuck : ∀ n ∈ g.modules, ¬ g.Ready emitted n := hplan.not_ready hready
    cases hentry : (g.rest emitted).cycleEntry r with
    | some m =>
      have hrest : ∀ k, k ∈ plan.ready ↔
          ∃ x ∈ g.modules, (g.Ready emitted x ∧ x ≠ m) ∧ k = rank x := by
        intro k
        rw [hready]
        constructor
        · exact fun hk => absurd hk List.not_mem_nil
        · rintro ⟨x, hx, hfree, -⟩
          exact absurd hfree.1 (hstuck x hx)
      refine .inl ⟨m, true, Agenda.place g rank emitted plan m, .forced hstuck hentry,
        Agenda.reflects_place (placed_of_cycleEntry hentry).fresh hplan.pending
          hplan.increasing hrest, ?_⟩
      simp only [schedule, hready, hentry]
    | none =>
      refine .inr ⟨fun m hm => ?_, by simp only [schedule, hready, hentry]⟩
      by_contra hme
      obtain ⟨n, hn⟩ := exists_cycleEntry (r := r) hstuck hm hme
      simp [hentry] at hn

/-! ## The whole schedule -/

/-- Each step guarantees what `Placed` says behind the modules placed before it. -/
def PlacedAll (g : Graph) : List String → List (String × Bool) → Prop
  | _, [] => True
  | emitted, step :: steps =>
    g.Placed emitted step.1 step.2 ∧ PlacedAll g (step.1 :: emitted) steps

/-- All steps of the schedule keep the guarantee. -/
lemma placedAll_schedule (hrank : ∀ m, (rank m).name = m) (count : ℕ)
    (hplan : Agenda.Reflects g rank emitted plan) :
    g.PlacedAll emitted (g.schedule r rank count emitted plan) := by
  induction count generalizing emitted plan with
  | zero => trivial
  | succ count ih =>
    rcases schedule_succ (r := r) hrank count hplan with
      ⟨m, forced, plan', hchosen, hplan', heq⟩ | ⟨-, heq⟩
    · rw [heq]
      exact ⟨placed_of_chosen hchosen, ih hplan'⟩
    · rw [heq]
      trivial

/-- The schedule does not stop before every module is placed. -/
lemma length_schedule (hrank : ∀ m, (rank m).name = m) (count : ℕ)
    (hplan : Agenda.Reflects g rank emitted plan)
    (hlen : emitted.length + count = g.modules.length) :
    (g.schedule r rank count emitted plan).length = count := by
  induction count generalizing emitted plan with
  | zero => rfl
  | succ count ih =>
    rcases schedule_succ (r := r) hrank count hplan with
      ⟨m, forced, plan', -, hplan', heq⟩ | ⟨hall, -⟩
    · rw [heq, List.length_cons, ih hplan' (by simp; omega)]
    · have := (List.subperm_of_subset g.nodup_modules hall).length_le
      omega

/-- **Each step chooses** by what is placed before it, wherever the schedule begins. -/
lemma chosen_of_schedule (hrank : ∀ m, (rank m).name = m) {count : ℕ}
    (hplan : Agenda.Reflects g rank emitted plan) {before after : List (String × Bool)}
    (hsteps : g.schedule r rank count emitted plan = before ++ (m, forced) :: after) :
    g.Chosen r rank ((before.map (·.1)).reverse ++ emitted) m forced := by
  induction count generalizing emitted plan before with
  | zero => simp [schedule] at hsteps
  | succ count ih =>
    rcases schedule_succ (r := r) hrank count hplan with
      ⟨n, forced', plan', hchosen, hplan', heq⟩ | ⟨-, heq⟩
    · rw [heq] at hsteps
      cases before with
      | nil =>
        obtain ⟨hstep, -⟩ := List.cons.inj hsteps
        obtain ⟨rfl, rfl⟩ := Prod.mk.inj hstep
        exact hchosen
      | cons step before =>
        obtain ⟨rfl, hrest⟩ := List.cons.inj hsteps
        simpa using ih hplan' hrest
    · simp [heq] at hsteps

/-- At each step all modules placed before it count as placed. -/
lemma PlacedAll.placed_at (h : g.PlacedAll emitted steps) {before after : List (String × Bool)}
    (hsteps : steps = before ++ (m, forced) :: after) :
    g.Placed ((before.map (·.1)).reverse ++ emitted) m forced := by
  induction before generalizing emitted steps with
  | nil =>
    subst hsteps
    exact h.1
  | cons step before ih =>
    subst hsteps
    simpa using ih h.2 rfl

/-- No module is placed twice. -/
lemma PlacedAll.nodup (h : g.PlacedAll emitted steps) :
    (steps.map (·.1)).Nodup ∧ ∀ m ∈ emitted, m ∉ steps.map (·.1) := by
  induction steps generalizing emitted with
  | nil => simp
  | cons step steps ih =>
    obtain ⟨hnodup, hfresh⟩ := ih h.2
    refine ⟨List.nodup_cons.2 ⟨hfresh _ List.mem_cons_self, hnodup⟩, fun m hm hms => ?_⟩
    rcases List.mem_cons.1 hms with rfl | hms
    · exact h.1.fresh hm
    · exact hfresh m (List.mem_cons_of_mem _ hm) hms

/-- Only modules are placed. -/
lemma PlacedAll.mem_modules (h : g.PlacedAll emitted steps) (hm : m ∈ steps.map (·.1)) :
    m ∈ g.modules := by
  obtain ⟨⟨n, forced⟩, hn, rfl⟩ := List.mem_map.1 hm
  obtain ⟨before, after, hsteps⟩ := List.append_of_mem hn
  exact (h.placed_at hsteps).mem

/-- A module stands behind those placed before it. -/
lemma PlacedAll.idxOf_lt_of_mem (h : g.PlacedAll [] steps) {before after : List (String × Bool)}
    (hsteps : steps = before ++ (m, forced) :: after) (hd : d ∈ before.map (·.1)) :
    (steps.map (·.1)).idxOf d < (steps.map (·.1)).idxOf m := by
  have hmb : m ∉ before.map (·.1) := by
    simpa using (h.placed_at hsteps).fresh
  rw [hsteps, List.map_append, List.map_cons, List.idxOf_append_of_mem hd,
    List.idxOf_append_of_notMem hmb]
  exact Nat.lt_add_right _ (List.idxOf_lt_length_of_mem hd)

/-- A module stands behind the others it needs, unless it is forced and on a cycle with them. -/
lemma PlacedAll.idxOf_lt (h : g.PlacedAll [] steps) (hm : (m, forced) ∈ steps)
    (hd : g.Needs m d) (hfree : forced = false ∨ ¬ g.Reaches d m) :
    (steps.map (·.1)).idxOf d < (steps.map (·.1)).idxOf m := by
  obtain ⟨before, after, hsteps⟩ := List.append_of_mem hm
  refine h.idxOf_lt_of_mem hsteps ?_
  rcases (h.placed_at hsteps).needs d hd with hde | ⟨hforced, hdm⟩
  · simpa using hde
  · rcases hfree with hfree | hfree
    · simp [hfree] at hforced
    · exact absurd hdm hfree

/-! ## The order -/

/-- The steps behind an order. -/
def scheduled (g : Graph) (r : Ranking) : List (String × Bool) :=
  let rank := rankOf (g.effectivePriorities r)
  g.schedule r rank g.modules.length [] (g.agenda rank)

/-- The steps behind an order keep the guarantee. -/
lemma placedAll_scheduled (g : Graph) (r : Ranking) : g.PlacedAll [] (g.scheduled r) :=
  placedAll_schedule (fun _ => rfl) _ (Agenda.reflects_agenda g _)

/-- The order holds every module once. -/
lemma perm_order (g : Graph) (r : Ranking) : (g.orderUnguarded r).order.Perm g.modules := by
  have hplaced := placedAll_scheduled g r
  have hlen : (g.scheduled r).length = g.modules.length :=
    length_schedule (fun _ => rfl) _ (Agenda.reflects_agenda g _) (Nat.zero_add _)
  refine (List.subperm_of_subset hplaced.nodup.1 fun m hm =>
    hplaced.mem_modules hm).perm_of_length_le ?_
  rw [List.length_map, hlen]

/-- A module of the order is forced or not. -/
lemma exists_step (hm : m ∈ g.modules) : ∃ forced, (m, forced) ∈ g.scheduled r := by
  obtain ⟨⟨n, forced⟩, hn, rfl⟩ := List.mem_map.1 ((perm_order g r).mem_iff.2 hm)
  exact ⟨forced, hn⟩

/-- Each step behind an order chooses by what is placed before it. -/
lemma chosen_of_scheduled {before after : List (String × Bool)}
    (hsteps : g.scheduled r = before ++ (m, forced) :: after) :
    g.Chosen r (rankOf (g.effectivePriorities r)) (before.map (·.1)).reverse m forced := by
  simpa using chosen_of_schedule (fun _ => rfl) (Agenda.reflects_agenda g _) hsteps

/-- A module comes before another one if it is among those placed before the step of that one. -/
lemma idxOf_lt_of_forall_step (hm : m ∈ g.modules)
    (h : ∀ before forced after, g.scheduled r = before ++ (m, forced) :: after →
      d ∈ before.map (·.1)) :
    (g.orderUnguarded r).order.idxOf d < (g.orderUnguarded r).order.idxOf m := by
  obtain ⟨forced, hstep⟩ := exists_step (r := r) hm
  obtain ⟨before, after, hsteps⟩ := List.append_of_mem hstep
  exact (placedAll_scheduled g r).idxOf_lt_of_mem hsteps (h before forced after hsteps)

/-- A module that is not forced comes behind what it needs. -/
lemma idxOf_lt_of_needs (hmd : g.Needs m d) (hm : m ∉ (g.orderUnguarded r).forced) :
    (g.orderUnguarded r).order.idxOf d < (g.orderUnguarded r).order.idxOf m := by
  obtain ⟨forced, hstep⟩ := exists_step (r := r) hmd.source_mem
  refine (placedAll_scheduled g r).idxOf_lt hstep hmd (.inl ?_)
  by_contra hforced
  refine hm (List.mem_map.2 ⟨_, List.mem_filter.2 ⟨hstep, ?_⟩, rfl⟩)
  simpa using hforced

/-- Forced modules lie on cycles. -/
lemma transGen_of_mem_forced (hm : m ∈ (g.orderUnguarded r).forced) : TransGen g.Needs m m := by
  obtain ⟨⟨n, forced⟩, hn, rfl⟩ := List.mem_map.1 hm
  obtain ⟨hmem, hforced⟩ := List.mem_filter.1 hn
  obtain ⟨before, after, hsteps⟩ := List.append_of_mem hmem
  exact ((placedAll_scheduled g r).placed_at hsteps).cyclic hforced

/-- Nothing is forced exactly in graphs without cycles. -/
lemma forced_eq_nil_iff : (g.orderUnguarded r).forced = [] ↔ g.Acyclic := by
  constructor
  · intro hnone m hm
    have hlt : ∀ {a b}, TransGen g.Needs a b →
        (g.orderUnguarded r).order.idxOf b < (g.orderUnguarded r).order.idxOf a := by
      intro a b hab
      induction hab with
      | single hab => exact idxOf_lt_of_needs hab (by simp [hnone])
      | tail _ hbc ih => exact (idxOf_lt_of_needs hbc (by simp [hnone])).trans ih
    exact absurd (hlt hm) (Nat.lt_irrefl _)
  · intro hacyclic
    exact List.eq_nil_iff_forall_not_mem.2 fun m hm => hacyclic m (transGen_of_mem_forced hm)

/-- **The order is complete.** Whatever the guards and the ranking, the order holds every module
exactly once. Whenever no module is ready and some are left, one that is left can be forced. Nothing
is forced exactly if the edges without guards form no cycle, and all that is forced is on such a
cycle. -/
theorem order_places_every_module (g : Graph) (guards : Guards) (r : Ranking) :
    (g.order guards r).order.Nodup ∧
    (g.order guards r).order.Perm g.modules ∧
    (∀ emitted : List String, (∃ m ∈ g.modules, m ∉ emitted) →
      (∀ m ∈ g.modules, ¬ (g.unguarded guards).Ready emitted m) →
      ∃ m ∈ g.modules, m ∉ emitted ∧
        ((g.unguarded guards).rest emitted).cycleEntry r = some m) ∧
    ((g.order guards r).forced = [] ↔ (g.unguarded guards).Acyclic) ∧
    ∀ m ∈ (g.order guards r).forced, TransGen (g.unguarded guards).Needs m m := by
  have hperm : (g.order guards r).order.Perm g.modules := perm_order (g.unguarded guards) r
  refine ⟨hperm.nodup_iff.2 g.nodup_modules, hperm, ?_, forced_eq_nil_iff, fun m hm =>
    transGen_of_mem_forced hm⟩
  rintro emitted ⟨m, hm, hme⟩ hstuck
  obtain ⟨n, hn⟩ := exists_cycleEntry (g := g.unguarded guards) (r := r) hstuck hm hme
  have hplaced := placed_of_cycleEntry hn
  exact ⟨n, hplaced.mem, hplaced.fresh, hn⟩

end BindingRules.Graph
