import BindingRules.Graph.Ordering
import BindingRules.Proofs.Reachability

set_option relaxedAutoImplicit false
set_option autoImplicit false

/-!
# Requirements and inherited priorities

A depth first search with a stack lists what a module requires. Every step takes one module from the
stack and puts what it needs in its place, unless the module was taken before, so as many steps as
the graph has edges are enough.

The priority that a module ends up with is the least one of those stated for the modules that
require it and for itself. Two stated priorities are in conflict if the module that requires the
other one has the lesser priority.

## Main definitions

* `Graph.untaken` — how many edges begin at modules that were not taken yet.
* `Graph.inheritedPriority` — the least priority stated for what reaches a module.

## Main results

* `Graph.mem_requirements` — the search lists what a module reaches.
* `Graph.mem_conflicts` — which priorities are in conflict.
* `Graph.exists_effectivePriority_le_iff`, `Graph.get?_effectivePriorities` — the priorities that
  modules have or inherit.
* `Graph.order_reports_conflicts` — the order comes with exactly the conflicts that there are.
-/

namespace BindingRules.Graph

open Relation

variable {g : Graph} {r : Ranking} {root m x : String} {bound p : ℤ} {t : Table String ℤ}
  {taken : List String}

/-! ## The search with a stack -/

/-- A property of what is on the stack that passes along `next` holds of everything found, and the
root is not found. -/
lemma unstack_induction {next : String → List String} {P : String → Prop}
    (hP : ∀ x y, P x → y ∈ next x → P y) (steps : ℕ) (seen stack : List String)
    (hstack : ∀ x ∈ stack, P x) : ∀ x ∈ unstack next root steps seen stack, x ≠ root ∧ P x := by
  induction steps generalizing seen stack with
  | zero => simp [unstack]
  | succ steps ih =>
    cases stack with
    | nil => simp [unstack]
    | cons m stack =>
      have hm : P m := hstack m List.mem_cons_self
      have hrest : ∀ x ∈ stack, P x := fun x hx => hstack x (List.mem_cons_of_mem _ hx)
      rw [unstack]
      split
      · exact ih seen stack hrest
      · rename_i hfresh
        intro x hx
        rcases List.mem_cons.1 hx with rfl | hx
        · exact ⟨fun h => hfresh (.inl h), hm⟩
        · refine ih _ _ (fun y hy => ?_) x hx
          rcases List.mem_append.1 hy with hy | hy
          · exact hP m y hm (List.mem_reverse.1 hy)
          · exact hrest y hy

/-- The number of edges that begin at modules that are not among those in `taken`. -/
def untaken (g : Graph) (taken : List String) : ℕ := g.edges.countP (·.source ∉ taken)

/-- Before anything is taken, these are all edges. -/
lemma untaken_nil (g : Graph) : g.untaken [] = g.edges.length := by
  simp [untaken]

/-- When a module is taken, the edges to what it needs are not counted any more. -/
lemma length_dependencies_add_untaken (hm : m ∉ taken) :
    (g.dependencies m).length + g.untaken (m :: taken) = g.untaken taken := by
  have hcount : (g.dependencies m).length = g.edges.countP (·.source == m) := by
    rw [dependencies, List.length_map, List.countP_eq_length_filter]
  have hone : ∀ e : Edge, (if e.source == m then 1 else 0) +
      (if decide (e.source ∉ m :: taken) then 1 else 0) =
        if decide (e.source ∉ taken) then 1 else 0 := by
    intro e
    by_cases he : e.source = m
    · simp [he, hm]
    · simp [he]
  rw [hcount, untaken, untaken]
  induction g.edges with
  | nil => rfl
  | cons e es ih =>
    rw [List.countP_cons, List.countP_cons, List.countP_cons, ← hone e]
    omega

/-- With as many steps as there are modules on the stack and edges still to follow, all that is on
the stack is found, and all that is found is found with what it needs, apart from what was seen
before.

**Proof sketch.** Induction on the steps. A module that was seen before leaves the stack. Another
one makes room for what it needs, and the edges to that are not counted any more. -/
lemma unstack_closed (steps : ℕ) (seen stack : List String)
    (hsteps : stack.length + g.untaken (seen ++ [root]) ≤ steps) :
    (∀ x ∈ stack, x ∈ seen ++ [root] ∨ x ∈ unstack g.dependencies root steps seen stack) ∧
    ∀ x ∈ unstack g.dependencies root steps seen stack, ∀ y ∈ g.dependencies x,
      y ∈ seen ++ [root] ∨ y ∈ unstack g.dependencies root steps seen stack := by
  induction steps generalizing seen stack with
  | zero =>
    obtain rfl : stack = [] := List.length_eq_zero_iff.1 (by omega)
    simp [unstack]
  | succ steps ih =>
    cases stack with
    | nil => simp [unstack]
    | cons m stack =>
      rw [List.length_cons] at hsteps
      rw [unstack]
      split
      · rename_i hseen
        obtain ⟨hstack, hclosed⟩ := ih seen stack (by omega)
        refine ⟨fun x hx => ?_, hclosed⟩
        rcases List.mem_cons.1 hx with rfl | hx
        · exact .inl (by simpa [or_comm] using hseen)
        · exact hstack x hx
      · rename_i hfresh
        have hm : m ∉ seen ++ [root] := by simpa [or_comm] using hfresh
        have hcount := length_dependencies_add_untaken (g := g) hm
        obtain ⟨hstack, hclosed⟩ := ih (m :: seen) ((g.dependencies m).reverse ++ stack) (by
          rw [List.length_append, List.length_reverse, List.cons_append]
          omega)
        -- The module counts as seen from here on; it is itself the first one found.
        have hfound : ∀ {y}, y ∈ (m :: seen) ++ [root] ∨
            y ∈ unstack g.dependencies root steps (m :: seen)
              ((g.dependencies m).reverse ++ stack) →
            y ∈ seen ++ [root] ∨ y ∈ m :: unstack g.dependencies root steps (m :: seen)
              ((g.dependencies m).reverse ++ stack) := by
          intro y hy
          rw [List.cons_append, List.mem_cons] at hy
          rw [List.mem_cons]
          tauto
        refine ⟨fun x hx => ?_, fun x hx y hy => ?_⟩
        · rcases List.mem_cons.1 hx with rfl | hx
          · exact .inr List.mem_cons_self
          · exact hfound (hstack x (List.mem_append_right _ hx))
        · rcases List.mem_cons.1 hx with rfl | hx
          · exact hfound (hstack y (List.mem_append_left _ (List.mem_reverse.2 hy)))
          · exact hfound (hclosed x hx y hy)

/-- **The requirements of a module** are the other modules that it reaches. -/
lemma mem_requirements : x ∈ g.requirements m ↔ x ≠ m ∧ g.Reaches m x := by
  have hlen : (g.dependencies m).reverse.length + g.untaken ([] ++ [m]) ≤ g.edges.length + 1 := by
    have hcount := length_dependencies_add_untaken (g := g) (m := m) List.not_mem_nil
    rw [untaken_nil] at hcount
    rw [List.length_reverse, List.nil_append]
    omega
  obtain ⟨hstack, hclosed⟩ := unstack_closed _ [] (g.dependencies m).reverse hlen
  simp only [List.mem_reverse, List.nil_append, List.mem_singleton] at hstack hclosed
  constructor
  · refine unstack_induction (P := g.Reaches m)
      (fun x y hx hy => hx.tail (mem_dependencies.1 hy)) _ _ _ (fun y hy => ?_) x
    exact .single (mem_dependencies.1 (List.mem_reverse.1 hy))
  · rintro ⟨hne, hreach⟩
    refine Or.resolve_left ?_ hne
    clear hne
    induction hreach with
    | refl => exact .inl rfl
    | tail _ hxy ih =>
      rcases ih with rfl | hx
      · exact hstack _ (mem_dependencies.2 hxy)
      · exact hclosed _ hx _ (mem_dependencies.2 hxy)

/-- Nothing is found twice, and nothing that was seen before is found. -/
lemma nodup_unstack {next : String → List String} (steps : ℕ) (seen stack : List String) :
    (unstack next root steps seen stack).Nodup ∧
      (unstack next root steps seen stack).Disjoint seen := by
  induction steps generalizing seen stack with
  | zero => simp [unstack]
  | succ steps ih =>
    cases stack with
    | nil => simp [unstack]
    | cons m stack =>
      rw [unstack]
      split
      · exact ih seen stack
      · rename_i hfresh
        obtain ⟨hnodup, hdisjoint⟩ := ih (m :: seen) ((next m).reverse ++ stack)
        obtain ⟨hm, hrest⟩ := List.disjoint_cons_right.1 hdisjoint
        exact ⟨List.nodup_cons.2 ⟨hm, hnodup⟩,
          List.disjoint_cons_left.2 ⟨fun hseen => hfresh (.inr hseen), hrest⟩⟩

/-- No requirement of a module is listed twice. -/
lemma nodup_requirements (g : Graph) (m : String) : (g.requirements m).Nodup :=
  (nodup_unstack _ _ _).1

/-! ## Priorities that are stated -/

/-- The prioritized modules are the modules for which a priority is stated. -/
lemma mem_prioritized : (m, p) ∈ g.prioritized r ↔ m ∈ g.modules ∧ r.priority m = some p := by
  simp only [prioritized, List.mem_filterMap, Option.map_eq_some_iff, Prod.mk.injEq]
  constructor
  · rintro ⟨_, hm, _, hp, rfl, rfl⟩
    exact ⟨hm, hp⟩
  · rintro ⟨hm, hp⟩
    exact ⟨m, hm, p, hp, rfl, rfl⟩

/-- **The conflicts** are the pairs of prioritized modules of which the first one requires the other
one and has the lesser priority. -/
lemma mem_conflicts {c : OrderingConflict} : c ∈ g.conflicts r ↔
    c.dependent ∈ g.modules ∧ r.priority c.dependent = some c.dependentPriority ∧
    c.dependency ≠ c.dependent ∧ g.Reaches c.dependent c.dependency ∧
    r.priority c.dependency = some c.dependencyPriority ∧
    c.dependentPriority < c.dependencyPriority := by
  simp only [conflicts, conflictsOf, List.mem_flatMap, List.mem_filterMap, mem_requirements,
    Option.bind_eq_some_iff, Option.ite_none_right_eq_some, Option.some.injEq]
  constructor
  · rintro ⟨⟨m, p⟩, hm, d, ⟨hne, hreach⟩, q, hq, hlt, rfl⟩
    obtain ⟨hmem, hp⟩ := mem_prioritized.1 hm
    exact ⟨hmem, hp, hne, hreach, hq, hlt⟩
  · rintro ⟨hmem, hp, hne, hreach, hq, hlt⟩
    exact ⟨(c.dependent, c.dependentPriority), mem_prioritized.2 ⟨hmem, hp⟩, c.dependency,
      ⟨hne, hreach⟩, c.dependencyPriority, hq, hlt, rfl⟩

/-- No module is prioritized twice. -/
lemma pairwise_prioritized (g : Graph) (r : Ranking) :
    (g.prioritized r).Pairwise fun e e' => e.1 ≠ e'.1 := by
  refine List.Pairwise.filterMap _ (fun m m' hne e he e' he' => ?_) g.nodup_modules
  obtain ⟨p, -, rfl⟩ := Option.map_eq_some_iff.1 he
  obtain ⟨p', -, rfl⟩ := Option.map_eq_some_iff.1 he'
  exact hne

/-- No two modules are in conflict twice.

**Proof sketch.** The conflicts of a module differ in what it requires, which is not listed twice;
those of different modules differ in the module. -/
lemma nodup_conflicts (g : Graph) (r : Ranking) :
    ((g.conflicts r).map fun c => (c.dependent, c.dependency)).Nodup := by
  have hends : ∀ {m p d c}, ((r.priority d).bind fun q =>
      if p < q then some (⟨m, d, p, q⟩ : OrderingConflict) else none) = some c →
        c.dependent = m ∧ c.dependency = d := by
    intro m p d c hc
    obtain ⟨q, -, hq⟩ := Option.bind_eq_some_iff.1 hc
    obtain ⟨-, hq⟩ := Option.ite_none_right_eq_some.1 hq
    obtain rfl := Option.some.inj hq
    exact ⟨rfl, rfl⟩
  rw [List.Nodup, List.pairwise_map, conflicts, List.pairwise_flatMap]
  constructor
  · intro e _
    refine List.Pairwise.filterMap _ (fun d d' hne c hc c' hc' heq => hne ?_)
      (nodup_requirements g e.1)
    rw [← (hends hc).2, ← (hends hc').2]
    exact (Prod.mk.inj heq).2
  · refine (pairwise_prioritized g r).imp fun {e e'} hne c hc c' hc' heq => hne ?_
    obtain ⟨d, -, hd⟩ := List.mem_filterMap.1 hc
    obtain ⟨d', -, hd'⟩ := List.mem_filterMap.1 hc'
    rw [← (hends hd).1, ← (hends hd').1]
    exact (Prod.mk.inj heq).1

/-! ## Priorities that are inherited

What a table holds for a module is described by its upper bounds: to lower a priority adds the
bounds of the new one. -/

/-- A module that is lowered is below the bounds of its new priority, too. -/
lemma exists_le_lower : (∃ q ∈ (lower p t m).get? x, q ≤ bound) ↔
    (∃ q ∈ t.get? x, q ≤ bound) ∨ x = m ∧ p ≤ bound := by
  rw [lower, Table.get?_insert]
  split
  · rename_i hx
    subst hx
    cases h : t.get? x <;> simp
  · rename_i hx
    simp [hx]

/-- Several modules that are lowered are below the bounds of their new priority, too. -/
lemma exists_le_foldl_lower {ms : List String} :
    (∃ q ∈ (ms.foldl (lower p) t).get? x, q ≤ bound) ↔
      (∃ q ∈ t.get? x, q ≤ bound) ∨ x ∈ ms ∧ p ≤ bound := by
  induction ms generalizing t with
  | nil => simp
  | cons m ms ih =>
    rw [List.foldl_cons, ih, exists_le_lower, List.mem_cons, or_and_right, or_assoc]

/-- When the requirements of several modules have been lowered to the priorities of these, a module
is below the bounds of the priorities of those that require it, too. -/
lemma exists_le_foldl_requirements {es : List (String × ℤ)} :
    (∃ q ∈ (es.foldl (fun t (m, p) => (g.requirements m).foldl (lower p) t) t).get? x, q ≤ bound) ↔
      (∃ q ∈ t.get? x, q ≤ bound) ∨ ∃ e ∈ es, x ∈ g.requirements e.1 ∧ e.2 ≤ bound := by
  induction es generalizing t with
  | nil => simp
  | cons e es ih =>
    simp only [List.foldl_cons, ih, exists_le_foldl_lower, List.mem_cons, exists_eq_or_imp,
      or_assoc]

/-- Before anything is inherited, the modules have the priorities that are stated for them. -/
lemma get?_own :
    ((g.prioritized r).foldl (fun (t : Table String ℤ) (m, p) => t.insert m p) .empty).get? x =
      if x ∈ g.modules then r.priority x else none := by
  have hvalue : ∀ e ∈ g.prioritized r, (r.priority e.1).getD 0 = e.2 := by
    rintro ⟨m, p⟩ he
    simp [(mem_prioritized.1 he).2]
  have hfold : (g.prioritized r).foldl (fun (t : Table String ℤ) (m, p) => t.insert m p) .empty =
      ((g.prioritized r).map Prod.fst).foldl
        (fun (t : Table String ℤ) m => t.insert m ((r.priority m).getD 0)) .empty := by
    rw [List.foldl_map]
    exact List.foldl_ext _ _ _ fun t e he => by rw [hvalue e he]
  rw [hfold, Table.get?_foldl_insert fun m => (r.priority m).getD 0]
  have hmem : x ∈ (g.prioritized r).map Prod.fst ↔
      x ∈ g.modules ∧ ∃ p, r.priority x = some p := by
    simp [mem_prioritized]
  by_cases hx : x ∈ g.modules
  · cases hp : r.priority x <;> simp [hmem, hx, hp]
  · simp [hmem, hx]

/-- **The priority of a module** is the least of those stated for the modules that reach it, itself
included: it is at most some number exactly if one of these is. -/
lemma exists_effectivePriority_le_iff :
    (∃ q ∈ (g.effectivePriorities r).get? x, q ≤ bound) ↔
      ∃ m ∈ g.modules, ∃ p, r.priority m = some p ∧ p ≤ bound ∧ g.Reaches m x := by
  rw [effectivePriorities, exists_le_foldl_requirements, get?_own]
  constructor
  · rintro (⟨q, hq, hle⟩ | ⟨⟨m, p⟩, he, hx, hle⟩)
    · obtain ⟨hx, hpriority⟩ := Option.ite_none_right_eq_some.1 hq
      exact ⟨x, hx, q, hpriority, hle, .refl⟩
    · obtain ⟨hm, hp⟩ := mem_prioritized.1 he
      exact ⟨m, hm, p, hp, hle, (mem_requirements.1 hx).2⟩
  · rintro ⟨m, hm, p, hp, hle, hreach⟩
    by_cases hxm : x = m
    · subst hxm
      exact .inl ⟨p, by simp [hm, hp], hle⟩
    · exact .inr ⟨(m, p), mem_prioritized.2 ⟨hm, hp⟩, mem_requirements.2 ⟨hxm, hreach⟩, hle⟩

/-- The priority of a module goes back to a module that reaches it, for which no greater one is
stated. -/
lemma exists_of_effectivePriority (hp : p ∈ (g.effectivePriorities r).get? x) :
    ∃ m ∈ g.modules, ∃ q, r.priority m = some q ∧ q ≤ p ∧ g.Reaches m x :=
  exists_effectivePriority_le_iff.1 ⟨p, hp, le_rfl⟩

/-- The least of the priorities that are stated for a module and for those that reach it. -/
def inheritedPriority (g : Graph) (r : Ranking) (m : String) : Option ℤ :=
  ((g.modules.filter fun n => g.Reaches n m).filterMap r.priority).min?

/-- **The priority of a module** is the least of those stated for it and for the modules that reach
it, and it has none if none is stated for these. -/
lemma get?_effectivePriorities (g : Graph) (r : Ranking) (m : String) :
    (g.effectivePriorities r).get? m = g.inheritedPriority r m := by
  have hmem : ∀ {p}, p ∈ (g.modules.filter fun n => g.Reaches n m).filterMap r.priority ↔
      ∃ n ∈ g.modules, r.priority n = some p ∧ g.Reaches n m := by
    intro p
    simp only [List.mem_filterMap, List.mem_filter, decide_eq_true_eq]
    constructor
    · rintro ⟨n, ⟨hn, hreach⟩, hp⟩
      exact ⟨n, hn, hp, hreach⟩
    · rintro ⟨n, hn, hp, hreach⟩
      exact ⟨n, ⟨hn, hreach⟩, hp⟩
  have hle : ∀ {p}, p ∈ (g.effectivePriorities r).get? m →
      ∀ {q}, (∃ n ∈ g.modules, r.priority n = some q ∧ g.Reaches n m) → p ≤ q := by
    rintro p hp q ⟨n, hn, hq, hreach⟩
    obtain ⟨p', hp', hle⟩ := exists_effectivePriority_le_iff.2 ⟨n, hn, q, hq, le_rfl, hreach⟩
    exact (Option.mem_unique hp hp').trans_le hle
  ext p
  rw [inheritedPriority, List.min?_eq_some_iff, hmem]
  constructor
  · intro hp
    obtain ⟨n, hn, q, hq, hqp, hreach⟩ := exists_of_effectivePriority hp
    obtain rfl : p = q := le_antisymm (hle hp ⟨n, hn, hq, hreach⟩) hqp
    exact ⟨⟨n, hn, hq, hreach⟩, fun b hb => hle hp (hmem.1 hb)⟩
  · rintro ⟨⟨n, hn, hp, hreach⟩, hleast⟩
    obtain ⟨q, hq, hqp⟩ := exists_effectivePriority_le_iff.2 ⟨n, hn, p, hp, le_rfl, hreach⟩
    obtain ⟨n', hn', q', hq', hq'q, hreach'⟩ := exists_of_effectivePriority hq
    have hpq' : p ≤ q' := hleast q' (hmem.2 ⟨n', hn', hq', hreach'⟩)
    obtain rfl : p = q := le_antisymm (hpq'.trans hq'q) hqp
    exact hq

/-! ## The conflicts of the order -/

/-- **The order comes with exactly the conflicts that there are.** Whatever the guards and the
ranking, and whether there are cycles or not, two different modules with priorities are reported as
soon as the first one requires the other one along edges without guards and has the lesser priority,
with these priorities and once, and nothing else is reported. The priority by which a module is
placed is the least of its own one and those of the modules that require it. -/
theorem order_reports_conflicts (g : Graph) (guards : Guards) (r : Ranking) :
    (∀ c : OrderingConflict, c ∈ (g.order guards r).conflicts ↔
      (c.dependent ∈ g.modules ∧ r.priority c.dependent = some c.dependentPriority) ∧
      (c.dependency ∈ g.modules ∧ r.priority c.dependency = some c.dependencyPriority) ∧
      c.dependent ≠ c.dependency ∧ (g.unguarded guards).Reaches c.dependent c.dependency ∧
      c.dependentPriority < c.dependencyPriority) ∧
    ((g.order guards r).conflicts.map fun c => (c.dependent, c.dependency)).Nodup ∧
    ∀ m, ((g.unguarded guards).effectivePriorities r).get? m =
      (g.unguarded guards).inheritedPriority r m := by
  refine ⟨fun c => ?_, nodup_conflicts _ r, get?_effectivePriorities _ r⟩
  refine mem_conflicts.trans ⟨?_, ?_⟩
  · rintro ⟨hmem, hp, hne, hreach, hq, hlt⟩
    exact ⟨⟨hmem, hp⟩, ⟨hreach.mem_modules hmem, hq⟩, hne.symm, hreach, hlt⟩
  · rintro ⟨⟨hmem, hp⟩, ⟨-, hq⟩, hne, hreach, hlt⟩
    exact ⟨hmem, hp, hne.symm, hreach, hq, hlt⟩

end BindingRules.Graph
