import BindingRules.Proofs.Kosaraju
import Mathlib.Data.List.Perm.Subperm

set_option relaxedAutoImplicit false
set_option autoImplicit false

/-!
# Components

Modules that reach each other form a component. The components of a graph share no module and
together hold all of them, so that a component can stand for each of its members. A graph in which
every walk can go on has a component of several members that no edge leaves.

## Main results

* `Graph.component_eq_of_mem`, `Graph.component_mem_components` — a component is the component of
  each of its members, and it is listed.
* `Graph.mem_components`, `Graph.pairwise_disjoint_components` — what the two passes list, and that
  nothing is listed twice.
* `Graph.components_partition_modules` — the components are the classes of modules that reach each
  other, in increasing order.
* `Graph.exists_closed_component` — a component of several members that no edge leaves.
* `Graph.transGen_of_mem_component` — the members of a component of several members are on cycles.
-/

namespace BindingRules.Graph

open Relation

variable {g : Graph} {m n : String} {c : List String}

/-! ## Components as classes -/

/-- A module belongs to its own component. -/
lemma mem_component_self (hm : m ∈ g.modules) : m ∈ g.component m :=
  mem_component.2 ⟨hm, .refl, .refl⟩

/-- A component does not repeat its members. -/
lemma nodup_component (g : Graph) (m : String) : (g.component m).Nodup :=
  g.nodup_modules.filter _

/-- All members of a component have the same component. -/
lemma component_eq_of_mem (h : n ∈ g.component m) : g.component n = g.component m := by
  obtain ⟨-, hmn, hnm⟩ := mem_component.1 h
  refine List.filter_congr fun x _ => Bool.eq_iff_iff.2 ?_
  simp only [Bool.and_eq_true, List.contains_iff_mem, mem_reachable, mem_reaching]
  constructor
  · rintro ⟨hnx, hxn⟩
    exact ⟨hmn.trans hnx, hxn.trans hnm⟩
  · rintro ⟨hmx, hxm⟩
    exact ⟨hnm.trans hmx, hxm.trans hmn⟩

/-- The listed components are those of the modules. -/
lemma mem_components : c ∈ g.components ↔ ∃ m ∈ g.modules, c = g.component m := by
  obtain ⟨hclasses, -, hcovers⟩ :=
    gatherAll_spec (peeled_finishOrder g) fun m hm => ((postorder_finishOrder g).2.2 m).1 hm
  rw [components, List.mem_mergeSort]
  constructor
  · intro hc
    obtain ⟨m, hm, rfl, -⟩ := hclasses c hc
    exact ⟨m, hm, rfl⟩
  · rintro ⟨m, hm, rfl⟩
    obtain ⟨c, hc, hmc⟩ := (hcovers m hm).resolve_left List.not_mem_nil
    obtain ⟨n, -, rfl, -⟩ := hclasses c hc
    rwa [component_eq_of_mem hmc]

/-- The component of every module is listed. -/
lemma component_mem_components (hm : m ∈ g.modules) : g.component m ∈ g.components :=
  mem_components.2 ⟨m, hm, rfl⟩

/-- A listed component is the component of each of its members. -/
lemma eq_component_of_mem (hc : c ∈ g.components) (hm : m ∈ c) : c = g.component m := by
  obtain ⟨n, -, rfl⟩ := mem_components.1 hc
  exact (component_eq_of_mem hm).symm

/-- Two listed components share no member. -/
lemma pairwise_disjoint_components (g : Graph) : g.components.Pairwise List.Disjoint := by
  obtain ⟨-, hdisjoint, -⟩ :=
    gatherAll_spec (peeled_finishOrder g) fun m hm => ((postorder_finishOrder g).2.2 m).1 hm
  exact ((List.mergeSort_perm _ _).pairwise_iff fun h => h.symm).2 hdisjoint

/-- A component lists its members in increasing order. -/
lemma increasing_component (g : Graph) (m : String) : Increasing textLt (g.component m) :=
  g.modules_increasing.filter _

/-- A listed component is not empty. -/
lemma ne_nil_of_mem_components (hc : c ∈ g.components) : c ≠ [] := by
  obtain ⟨m, hm, rfl⟩ := mem_components.1 hc
  exact List.ne_nil_of_mem (mem_component_self hm)

/-- The components are listed in increasing order: sorting leaves none of them behind a greater one,
and no two of them are equal. -/
lemma increasing_components (g : Graph) : Increasing (fun c d => c.lex d textLt) g.components := by
  have hlex := strictTotal_textLt.lex
  have hsorted : g.components.Pairwise fun c d => (!d.lex c textLt) = true := by
    refine List.pairwise_mergeSort (fun a b c hab hbc => ?_) (fun a b => ?_) _
    · rw [Bool.not_eq_true'] at *
      exact hlex.not_lt_trans hab hbc
    · cases hba : b.lex a textLt with
      | false => rfl
      | true => simp [hlex.asymm hba]
  refine (hsorted.and (pairwise_disjoint_components g)).imp_of_mem fun {c d} hc _ hcd => ?_
  obtain ⟨hle, hdisjoint⟩ := hcd
  by_contra hlt
  obtain rfl : c = d := hlex.eq_of_not_lt (by simpa using hlt) (by simpa using hle)
  obtain ⟨m, hm⟩ := List.exists_mem_of_ne_nil c (ne_nil_of_mem_components hc)
  exact hdisjoint hm hm

/-- Together the components hold every module once. -/
lemma perm_flatten_components (g : Graph) : g.components.flatten.Perm g.modules := by
  have hnodup : g.components.flatten.Nodup := by
    refine List.nodup_flatten.2 ⟨fun c hc => ?_, pairwise_disjoint_components g⟩
    obtain ⟨m, -, rfl⟩ := mem_components.1 hc
    exact nodup_component g m
  refine (List.perm_ext_iff_of_nodup hnodup g.nodup_modules).2 fun m => ?_
  rw [List.mem_flatten]
  constructor
  · rintro ⟨c, hc, hm⟩
    rw [eq_component_of_mem hc hm] at hm
    exact (mem_component.1 hm).1
  · exact fun hm => ⟨_, component_mem_components hm, mem_component_self hm⟩

/-- **The components are the classes of modules that reach each other.** In every graph, the listed
components are not empty, each of them is in increasing order, they share no members and stand in
increasing order themselves, together they hold every module exactly once, and two modules belong to
the same one exactly if each of them reaches the other. -/
theorem components_partition_modules (g : Graph) :
    (∀ c ∈ g.components, c ≠ [] ∧ Increasing textLt c) ∧
    g.components.Pairwise List.Disjoint ∧
    Increasing (fun c d => c.lex d textLt) g.components ∧
    g.components.flatten.Perm g.modules ∧
    ∀ m ∈ g.modules, ∀ n ∈ g.modules,
      (∃ c ∈ g.components, m ∈ c ∧ n ∈ c) ↔ g.Reaches m n ∧ g.Reaches n m := by
  refine ⟨fun c hc => ⟨ne_nil_of_mem_components hc, ?_⟩, pairwise_disjoint_components g,
    increasing_components g, perm_flatten_components g, fun m hm n hn => ⟨?_, fun hreach => ?_⟩⟩
  · obtain ⟨m, -, rfl⟩ := mem_components.1 hc
    exact increasing_component g m
  · rintro ⟨c, hc, hmc, hnc⟩
    rw [eq_component_of_mem hc hmc] at hnc
    exact (mem_component.1 hnc).2
  · exact ⟨g.component m, component_mem_components hm, mem_component_self hm,
      mem_component.2 ⟨hn, hreach⟩⟩

/-! ## Components with several members -/

/-- A component with two different members has several. -/
lemma one_lt_length_component (hn : n ∈ g.component m) (hm : m ∈ g.component m) (hne : n ≠ m) :
    1 < (g.component m).length := by
  have hsub : [n, m] ⊆ g.component m := by
    simp [hn, hm]
  have hnodup : [n, m].Nodup := by simp [hne]
  exact (List.subperm_of_subset hnodup hsub).length_le

/-- A member of a component with several members lies on a cycle. -/
lemma transGen_of_mem_component (hc : c ∈ g.components) (hlen : 1 < c.length) (hm : m ∈ c) :
    TransGen g.Needs m m := by
  obtain rfl := eq_component_of_mem hc hm
  obtain ⟨n, hn, hne⟩ : ∃ n ∈ g.component m, n ≠ m := by
    by_contra hall
    push Not at hall
    have hsub : g.component m ⊆ [m] := fun x hx => List.mem_singleton.2 (hall x hx)
    have := (List.subperm_of_subset (nodup_component g m) hsub).length_le
    simp only [List.length_singleton] at this
    omega
  obtain ⟨-, hmn, hnm⟩ := mem_component.1 hn
  rcases ReflTransGen.cases_head hmn with rfl | ⟨x, hmx, hxn⟩
  · exact absurd rfl hne
  · exact TransGen.head' hmx (hxn.trans hnm)

/-! ## Components that no edge leaves -/

/-- Where every walk from a module can go on, some component of several members is left by no edge.

**Proof sketch.** Induction on the number of modules that `m` reaches. If all of them reach `m`
again, they are its component, which has a second member since `m` needs something. If one of them
does not, it reaches fewer modules, for `m` is not among them. -/
lemma exists_closed_component (hgo : ∀ n, g.Reaches m n → ∃ k, g.Needs n k) :
    ∃ c ∈ g.components, 1 < c.length ∧ ∀ a ∈ c, ∀ b, g.Needs a b → b ∈ c := by
  induction hcard : (g.reachable m).toFinset.card using Nat.strong_induction_on generalizing m with
  | _ size ih =>
    subst hcard
    obtain ⟨k, hmk⟩ := hgo m .refl
    by_cases hback : ∀ n, g.Reaches m n → g.Reaches n m
    · have hm : m ∈ g.component m := mem_component_self hmk.source_mem
      have hk : k ∈ g.component m :=
        mem_component.2 ⟨hmk.target_mem, .single hmk, hback k (.single hmk)⟩
      refine ⟨g.component m, component_mem_components hmk.source_mem,
        one_lt_length_component hk hm hmk.ne.symm, fun x hx y hxy => ?_⟩
      have hmy : g.Reaches m y := (mem_component.1 hx).2.1.tail hxy
      exact mem_component.2 ⟨hxy.target_mem, hmy, hback y hmy⟩
    · push Not at hback
      obtain ⟨n, hmn, hnm⟩ := hback
      refine ih _ (Finset.card_lt_card ?_) (fun x hx => hgo x (hmn.trans hx)) rfl
      refine (Finset.ssubset_iff_of_subset fun x hx => ?_).2 ⟨m, ?_, ?_⟩
      · simp only [List.mem_toFinset, mem_reachable] at hx ⊢
        exact hmn.trans hx
      · simp [mem_reachable, Reaches, ReflTransGen.refl]
      · simp [mem_reachable, hnm]

end BindingRules.Graph
