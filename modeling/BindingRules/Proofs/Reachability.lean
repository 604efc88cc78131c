import BindingRules.Graph.Reach
import Mathlib.Data.Finset.Card
import Mathlib.Data.List.Nodup
import Mathlib.Logic.Relation

set_option relaxedAutoImplicit false
set_option autoImplicit false

/-!
# Reachability

The rounds of `explore` find exactly what can be reached along edges. Every round that goes on
finds a module that was not seen before, so as many rounds as the graph has modules are enough.

## Main definitions

* `Graph.Needs`, `Graph.Reaches` — edges, and walks along any number of them.
* `Graph.Acyclic` — graphs without directed cycles.
* `Graph.unseen` — how many modules a search has still to find.
* `Graph.component` — the modules that reach a module and are reached from it.

## Main results

* `Graph.mem_explore` — what is found from an element is what it reaches.
* `Graph.mem_reachable`, `Graph.mem_reaching` — what is found from a module, ahead of it and
  behind it.
-/

namespace BindingRules.Graph

open Relation

variable {g : Graph} {a b m n : String}

/-! ## Edges and walks -/

/-- The first module needs the second one directly. -/
def Needs (g : Graph) (a b : String) : Prop := Edge.mk a b ∈ g.edges

/-- A walk along edges leads from the first module to the second one. -/
def Reaches (g : Graph) (a b : String) : Prop := ReflTransGen g.Needs a b

/-- No walk of at least one edge leads back to where it began. -/
def Acyclic (g : Graph) : Prop := ∀ m, ¬ TransGen g.Needs m m

/-- The source of an edge is a module. -/
lemma Needs.source_mem (h : g.Needs a b) : a ∈ g.modules := (g.ends_mem _ h).1

/-- The target of an edge is a module. -/
lemma Needs.target_mem (h : g.Needs a b) : b ∈ g.modules := (g.ends_mem _ h).2

/-- No module needs itself. -/
lemma Needs.ne (h : g.Needs a b) : a ≠ b := g.source_ne_target _ h

/-- A module does not need another one twice. -/
lemma nodup_dependencies (g : Graph) (m : String) : (g.dependencies m).Nodup := by
  refine (List.nodup_map_iff_inj_on (g.nodup_edges.filter _)).2 fun x hx y hy hxy => ?_
  simp only [List.mem_filter, beq_iff_eq] at hx hy
  exact Edge.ext (hx.2.trans hy.2.symm) hxy

/-- A module is not needed twice by another one. -/
lemma nodup_dependents (g : Graph) (m : String) : (g.dependents m).Nodup := by
  refine (List.nodup_map_iff_inj_on (g.nodup_edges.filter _)).2 fun x hx y hy hxy => ?_
  simp only [List.mem_filter, beq_iff_eq] at hx hy
  exact Edge.ext hxy (hx.2.trans hy.2.symm)

/-- A walk does not leave the modules. -/
lemma Reaches.mem_modules (h : g.Reaches a b) (ha : a ∈ g.modules) : b ∈ g.modules := by
  rcases ReflTransGen.cases_tail h with rfl | ⟨c, -, hcb⟩
  · exact ha
  · exact hcb.target_mem

/-- A walk from a set to outside of it uses an edge that leaves the set, and goes on from there. -/
lemma exists_leaving {r : String → String → Prop} {S : String → Prop} (h : ReflTransGen r a b)
    (ha : S a) (hb : ¬ S b) : ∃ c d, S c ∧ r c d ∧ ¬ S d ∧ ReflTransGen r d b := by
  induction h with
  | refl => exact absurd ha hb
  | @tail c d _ hcd ih =>
    by_cases hc : S c
    · exact ⟨c, d, hc, hcd, hb, .refl⟩
    · obtain ⟨x, y, hx, hxy, hy, hyc⟩ := ih hc
      exact ⟨x, y, hx, hxy, hy, hyc.tail hcd⟩

/-- A walk from outside of a set into it uses an edge that enters the set, behind a walk to it. -/
lemma exists_entering {r : String → String → Prop} {S : String → Prop} (h : ReflTransGen r a b)
    (ha : ¬ S a) (hb : S b) : ∃ c d, ReflTransGen r a c ∧ ¬ S c ∧ r c d ∧ S d := by
  induction h with
  | refl => exact absurd hb ha
  | @tail c d hac hcd ih =>
    by_cases hc : S c
    · exact ih hc
    · exact ⟨c, d, hac, hc, hcd, hb⟩

/-! ## Rounds of a search -/

/-- The number of modules of `all` that are not in `seen`. -/
def unseen (all seen : List String) : ℕ := (all.toFinset \ seen.toFinset).card

/-- At most all modules are unseen. -/
lemma unseen_le_length (all seen : List String) : unseen all seen ≤ all.length :=
  (Finset.card_le_card Finset.sdiff_subset).trans all.toFinset_card_le

/-- When nothing is unseen, everything is seen. -/
lemma mem_of_unseen_eq_zero {all seen : List String} (h : unseen all seen = 0) (hm : m ∈ all) :
    m ∈ seen := by
  by_contra hms
  have hmem : m ∈ all.toFinset \ seen.toFinset := by simp [hm, hms]
  rw [Finset.card_eq_zero.1 h] at hmem
  exact Finset.notMem_empty m hmem

/-- What is seen is not unseen any more. -/
lemma unseen_le {all seen seen' : List String} (hsub : seen ⊆ seen') :
    unseen all seen' ≤ unseen all seen := by
  refine Finset.card_le_card fun x hx => ?_
  simp only [Finset.mem_sdiff, List.mem_toFinset] at hx ⊢
  exact ⟨hx.1, fun h => hx.2 (hsub h)⟩

/-- A module seen for the first time is one less to find. -/
lemma unseen_lt {all seen seen' : List String} (hsub : seen ⊆ seen') (hm : m ∈ all)
    (hms : m ∉ seen) (hms' : m ∈ seen') : unseen all seen' < unseen all seen := by
  refine Finset.card_lt_card (Finset.ssubset_iff_of_subset ?_ |>.2 ⟨m, ?_, ?_⟩)
  · intro x hx
    simp only [Finset.mem_sdiff, List.mem_toFinset] at hx ⊢
    exact ⟨hx.1, fun h => hx.2 (hsub h)⟩
  · simp [hm, hms]
  · simp [hms']

section Explore

variable {next : String → List String} {all : List String}

/-- What is seen stays seen. -/
lemma subset_explore (rounds : ℕ) (seen frontier : List String) :
    seen ⊆ explore next rounds seen frontier := by
  induction rounds generalizing seen frontier with
  | zero => exact fun _ h => h
  | succ rounds ih =>
    simp only [explore]
    split
    · exact fun _ h => h
    · exact fun x hx => ih _ _ (List.mem_append_left _ hx)

/-- A property of what is seen that passes along `next` holds of everything found. -/
lemma explore_induction {P : String → Prop} (hP : ∀ x y, P x → y ∈ next x → P y) (rounds : ℕ)
    (seen frontier : List String) (hseen : ∀ x ∈ seen, P x) (hfrontier : ∀ x ∈ frontier, P x) :
    ∀ x ∈ explore next rounds seen frontier, P x := by
  induction rounds generalizing seen frontier with
  | zero => exact hseen
  | succ rounds ih =>
    simp only [explore]
    split
    · exact hseen
    · have hfresh : ∀ x ∈ (frontier.flatMap next).eraseDups.filter fun m => !seen.contains m,
          P x := by
        intro x hx
        obtain ⟨y, hy, hxy⟩ := List.mem_flatMap.1 (List.mem_eraseDups.1 (List.mem_filter.1 hx).1)
        exact hP y x (hfrontier y hy) hxy
      refine ih _ _ (fun x hx => ?_) hfresh
      rcases List.mem_append.1 hx with hx | hx
      · exact hseen x hx
      · exact hfresh x hx

/-- With a round for each unseen element, everything that is found is found with all behind it.

**Proof sketch.** Induction on the rounds. Only elements of the frontier may have something unseen
behind them. A round either finds nothing new, and then nothing is behind them, or takes at least
one element from those that are unseen. -/
lemma explore_closed (hnext : ∀ x y, y ∈ next x → y ∈ all) (rounds : ℕ)
    (seen frontier : List String)
    (hseen : ∀ x ∈ seen, x ∈ frontier ∨ ∀ y ∈ next x, y ∈ seen)
    (hrounds : unseen all seen ≤ rounds) :
    ∀ x ∈ explore next rounds seen frontier, ∀ y ∈ next x,
      y ∈ explore next rounds seen frontier := by
  induction rounds generalizing seen frontier with
  | zero =>
    intro x hx y hy
    exact mem_of_unseen_eq_zero (Nat.le_zero.1 hrounds) (hnext x y hy)
  | succ rounds ih =>
    have hfresh : ∀ x ∈ frontier, ∀ y ∈ next x,
        y ∈ seen ∨ y ∈ (frontier.flatMap next).eraseDups.filter fun m => !seen.contains m := by
      intro x hx y hy
      by_cases hys : y ∈ seen
      · exact .inl hys
      · refine .inr (List.mem_filter.2 ⟨?_, by simpa using hys⟩)
        exact List.mem_eraseDups.2 (List.mem_flatMap.2 ⟨x, hx, hy⟩)
    simp only [explore]
    split
    · rename_i hempty
      rw [List.isEmpty_iff] at hempty
      intro x hx y hy
      rcases hseen x hx with hx | hx
      · exact (hfresh x hx y hy).resolve_right (by rw [hempty]; exact List.not_mem_nil)
      · exact hx y hy
    · rename_i hne
      refine ih _ _ (fun x hx => ?_) ?_
      · rcases List.mem_append.1 hx with hx | hx
        · rcases hseen x hx with hx | hx
          · exact .inr fun y hy => List.mem_append.2 (hfresh x hx y hy)
          · exact .inr fun y hy => List.mem_append_left _ (hx y hy)
        · exact .inl hx
      · obtain ⟨y, hy⟩ := List.exists_mem_of_ne_nil _ fun h => hne (List.isEmpty_iff.2 h)
        obtain ⟨hyf, hys⟩ := List.mem_filter.1 hy
        obtain ⟨x, -, hxy⟩ := List.mem_flatMap.1 (List.mem_eraseDups.1 hyf)
        have := unseen_lt (List.subset_append_left seen _) (hnext x y hxy) (by simpa using hys)
          (List.mem_append_right _ hy)
        omega

/-- What is found from one element within as many rounds as there are elements is exactly what
can be reached from it. -/
lemma mem_explore (hnext : ∀ x y, y ∈ next x → y ∈ all) :
    n ∈ explore next all.length [m] [m] ↔ ReflTransGen (fun a b => b ∈ next a) m n := by
  constructor
  · refine explore_induction (P := ReflTransGen (fun a b => b ∈ next a) m)
      (fun x y hx hy => hx.tail hy) _ _ _ ?_ ?_ n
    · simp [ReflTransGen.refl]
    · simp [ReflTransGen.refl]
  · intro h
    induction h with
    | refl => exact subset_explore _ _ _ (List.mem_singleton_self m)
    | tail _ hbc ih =>
      exact explore_closed hnext _ _ _ (fun x hx => .inl hx) (unseen_le_length _ _) _ ih _ hbc

end Explore

/-! ## What a module reaches -/

/-- The modules that `m` reaches along edges, itself included. -/
def reachable (g : Graph) (m : String) : List String :=
  explore g.dependencies g.modules.length [m] [m]

/-- The modules from which `m` is reached along edges, itself included. -/
def reaching (g : Graph) (m : String) : List String :=
  explore g.dependents g.modules.length [m] [m]

/-- The modules that `m` reaches and that reach it, in increasing order. -/
def component (g : Graph) (m : String) : List String :=
  g.modules.filter fun n => (g.reachable m).contains n && (g.reaching m).contains n

/-- The reachable modules are those to which a walk leads. -/
lemma mem_reachable : n ∈ g.reachable m ↔ g.Reaches m n := by
  refine (mem_explore fun x y h => Needs.target_mem (mem_dependencies.1 h)).trans ?_
  simp only [mem_dependencies]
  exact Iff.rfl

/-- The reaching modules are those from which a walk leads here. -/
lemma mem_reaching : n ∈ g.reaching m ↔ g.Reaches n m := by
  refine (mem_explore fun x y h => Needs.source_mem (mem_dependents.1 h)).trans ?_
  simp only [mem_dependents]
  exact reflTransGen_swap (r := g.Needs)

instance (g : Graph) (a b : String) : Decidable (g.Needs a b) :=
  inferInstanceAs (Decidable (_ ∈ g.edges))

instance (g : Graph) (a b : String) : Decidable (g.Reaches a b) :=
  decidable_of_iff _ mem_reachable

/-- A component consists of modules that reach each other. -/
lemma mem_component : n ∈ g.component m ↔ n ∈ g.modules ∧ g.Reaches m n ∧ g.Reaches n m := by
  simp [component, mem_reachable, mem_reaching]

end BindingRules.Graph
