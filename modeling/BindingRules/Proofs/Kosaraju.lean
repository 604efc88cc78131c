import BindingRules.Proofs.Reachability
import Mathlib.Data.List.Basic

set_option relaxedAutoImplicit false
set_option autoImplicit false

/-!
# Components in two passes

The first pass puts the modules into the order in which a depth first search leaves them. When a
module is left, edges from what has been left so far lead only to such modules, or to modules that
the search is still in and that reach the module. So the last module left reaches everything by
which it is reached, and all that reaches it is its component; the second pass takes component after
component away in this manner.

## Main definitions

* `Graph.Postorder` — what the first pass guarantees.
* `Graph.Traversal.Inv` — what holds of the first pass at all times.
* `Graph.Peeled` — what holds of the second pass at all times.

## Main results

* `Graph.Traversal.visit_spec`, `Graph.postorder_finishOrder` — the first pass.
* `Graph.reaches_of_postorder` — what reaches the last module left is reached from it.
* `Graph.gather_eq_component`, `Graph.gatherAll_spec` — the second pass.
-/

namespace BindingRules.Graph

open Relation

variable {g : Graph} {a b m n root : String} {depth : ℕ} {t t' : Traversal}
  {before order roots assigned : List String}

/-! ## Orders in which a search leaves modules -/

/-- In a list of modules, the last one left first: edges from a module and those left before it lead
to such modules, or to modules that reach it. -/
def Postorder (g : Graph) : List String → Prop
  | [] => True
  | m :: order =>
    (∀ a ∈ m :: order, ∀ b, g.Needs a b → b ∈ m :: order ∨ g.Reaches b m) ∧ Postorder g order

/-- The guarantee for one of the modules. -/
lemma Postorder.of_append {later : List String} (h : g.Postorder (later ++ m :: order)) :
    ∀ a ∈ m :: order, ∀ b, g.Needs a b → b ∈ m :: order ∨ g.Reaches b m := by
  induction later with
  | nil => exact h.1
  | cons x later ih => exact ih h.2

/-! ## The first pass -/

namespace Traversal

/-- While a search follows the path `before`, the modules it has visited are those it has left and
those on the path, edges lead from the former to either, and the former are in the order that the
first pass guarantees. -/
structure Inv (g : Graph) (before : List String) (t : Traversal) : Prop where
  /-- Only modules have been visited. -/
  subset_modules : t.visited ⊆ g.modules
  /-- The visited modules have been left or are on the path. -/
  mem_visited : ∀ m, m ∈ t.visited ↔ m ∈ t.finished ∨ m ∈ before
  /-- No module has been left twice, and none on the path has been left. -/
  nodup : (before ++ t.finished).Nodup
  /-- Edges lead from modules that have been left to visited ones. -/
  mem_of_needs : ∀ a ∈ t.finished, ∀ b, g.Needs a b → b ∈ t.visited
  /-- The order in which the modules have been left. -/
  postorder : g.Postorder t.finished

/-- Before a module is searched, it goes on the path. -/
lemma Inv.enter (h : Inv g before t) (hmodule : m ∈ g.modules) (hm : m ∉ t.visited) :
    Inv g (m :: before) { t with visited := m :: t.visited } where
  subset_modules := List.cons_subset.2 ⟨hmodule, h.subset_modules⟩
  mem_visited n := by
    rw [List.mem_cons, List.mem_cons, h.mem_visited]
    exact or_left_comm
  nodup := by
    refine List.nodup_cons.2 ⟨fun hmem => hm ((h.mem_visited m).2 ?_), h.nodup⟩
    exact (List.mem_append.1 hmem).symm
  mem_of_needs a ha b hab := List.mem_cons_of_mem _ (h.mem_of_needs a ha b hab)
  postorder := h.postorder

/-- When all that a module needs has been visited, it is left. -/
lemma Inv.leave (h : Inv g (m :: before) t) (hbefore : ∀ b ∈ before, g.Reaches b m)
    (hneeds : ∀ b, g.Needs m b → b ∈ t.visited) :
    Inv g before { t with finished := m :: t.finished } := by
  have hall : ∀ a ∈ m :: t.finished, ∀ b, g.Needs a b → b ∈ t.visited := by
    intro a ha b hab
    rcases List.mem_cons.1 ha with rfl | ha
    · exact hneeds b hab
    · exact h.mem_of_needs a ha b hab
  refine ⟨h.subset_modules, fun n => ?_, List.perm_middle.nodup_iff.2 h.nodup, hall,
    fun a ha b hab => ?_, h.postorder⟩
  · rw [List.mem_cons, h.mem_visited, List.mem_cons]
    tauto
  · rcases (h.mem_visited b).1 (hall a ha b hab) with hb | hb
    · exact .inl (List.mem_cons_of_mem _ hb)
    · rcases List.mem_cons.1 hb with rfl | hb
      · exact .inl List.mem_cons_self
      · exact .inr (hbefore b hb)

/-- Visits of several modules keep what a visit of each of them keeps. -/
lemma foldl_spec {f : Traversal → String → Traversal} (ms : List String)
    (hf : ∀ m ∈ ms, ∀ t', Inv g before t' → t.visited ⊆ t'.visited →
      Inv g before (f t' m) ∧ t'.visited ⊆ (f t' m).visited ∧ m ∈ (f t' m).visited)
    (h : Inv g before t') (hsub : t.visited ⊆ t'.visited) :
    Inv g before (ms.foldl f t') ∧ t'.visited ⊆ (ms.foldl f t').visited ∧
      ∀ m ∈ ms, m ∈ (ms.foldl f t').visited := by
  induction ms generalizing t' with
  | nil => exact ⟨h, fun _ hx => hx, fun m hm => absurd hm List.not_mem_nil⟩
  | cons m ms ih =>
    obtain ⟨hinv, hgrow, hm⟩ := hf m List.mem_cons_self t' h hsub
    obtain ⟨hinv', hgrow', hms⟩ := ih (fun n hn => hf n (List.mem_cons_of_mem _ hn)) hinv
      fun x hx => hgrow (hsub hx)
    refine ⟨hinv', fun x hx => hgrow' (hgrow hx), fun n hn => ?_⟩
    rcases List.mem_cons.1 hn with rfl | hn
    · exact hgrow' hm
    · exact hms n hn

/-- **A visit keeps the invariant** and visits its module, if the search may go as deep as there are
modules that it has not visited.

**Proof sketch.** Induction on how deep the search may go. A module that was not visited is one less
to visit for the search of what it needs. -/
lemma visit_spec (h : Inv g before t) (hm : m ∈ g.modules) (hbefore : ∀ b ∈ before, g.Reaches b m)
    (hdepth : unseen g.modules t.visited ≤ depth) :
    Inv g before (visit g.dependencies depth t m) ∧
      t.visited ⊆ (visit g.dependencies depth t m).visited ∧
      m ∈ (visit g.dependencies depth t m).visited := by
  induction depth generalizing before t m with
  | zero => exact ⟨h, fun _ hx => hx, mem_of_unseen_eq_zero (Nat.le_zero.1 hdepth) hm⟩
  | succ depth ih =>
    unfold visit
    split
    · rename_i hvisited
      exact ⟨h, fun _ hx => hx, List.contains_iff_mem.1 hvisited⟩
    · rename_i hvisited
      rw [List.contains_iff_mem] at hvisited
      have hsub : t.visited ⊆ m :: t.visited := List.subset_cons_self _ _
      have hless : unseen g.modules (m :: t.visited) ≤ depth := by
        have := unseen_lt hsub hm hvisited List.mem_cons_self
        omega
      obtain ⟨hinv, hgrow, hall⟩ := foldl_spec (f := visit g.dependencies depth)
        (t := { t with visited := m :: t.visited }) (g.dependencies m)
        (fun n hn t' hinv hgrow => by
          have hmn : g.Needs m n := mem_dependencies.1 hn
          refine ih hinv hmn.target_mem (fun b hb => ?_) ((unseen_le hgrow).trans hless)
          rcases List.mem_cons.1 hb with rfl | hb
          · exact .single hmn
          · exact (hbefore b hb).tail hmn)
        (h.enter hm hvisited) fun _ hx => hx
      exact ⟨hinv.leave hbefore fun b hb => hall b (mem_dependencies.2 hb),
        fun x hx => hgrow (hsub hx), hgrow List.mem_cons_self⟩

end Traversal

/-- The first pass leaves every module, once and in the right order. -/
lemma postorder_finishOrder (g : Graph) :
    g.Postorder g.finishOrder ∧ g.finishOrder.Nodup ∧ ∀ m, m ∈ g.finishOrder ↔ m ∈ g.modules := by
  have hstart : Traversal.Inv g [] {} := ⟨by simp, by simp, by simp, by simp, trivial⟩
  obtain ⟨hinv, -, hall⟩ := Traversal.foldl_spec (t := {})
    (f := Traversal.visit g.dependencies g.modules.length) g.modules
    (fun m hm t hinv _ => Traversal.visit_spec hinv hm (by simp) (unseen_le_length _ _))
    hstart fun _ hx => hx
  have hfinished : ∀ m, m ∈ g.finishOrder ↔
      m ∈ (g.modules.foldl (Traversal.visit g.dependencies g.modules.length) {}).visited := by
    intro m
    rw [hinv.mem_visited]
    simp [finishOrder]
  refine ⟨hinv.postorder, by simpa [finishOrder] using hinv.nodup, fun m => ?_⟩
  rw [hfinished]
  exact ⟨fun hm => hinv.subset_modules hm, hall m⟩

/-! ## The second pass -/

/-- When the components of the modules in `assigned` have been taken away, the others are among
`roots`, in the order that the first pass guarantees. -/
structure Peeled (g : Graph) (assigned roots : List String) : Prop where
  /-- Whole components have been taken away. -/
  closed : ∀ m ∈ assigned, ∀ n, g.Reaches m n → g.Reaches n m → n ∈ assigned
  /-- The other modules are among the roots. -/
  covers : ∀ m ∈ g.modules, m ∈ assigned ∨ m ∈ roots
  /-- No root is listed twice. -/
  nodup : roots.Nodup
  /-- The roots are in the order in which modules have been left. -/
  postorder : g.Postorder roots

/-- A walk along edges from modules that have not been taken away. -/
def ReachesFree (g : Graph) (assigned : List String) (a b : String) : Prop :=
  ReflTransGen (fun a b => g.Needs a b ∧ a ∉ assigned) a b

/-- Such a walk is a walk. -/
lemma ReachesFree.reaches (h : g.ReachesFree assigned a b) : g.Reaches a b :=
  ReflTransGen.mono (fun _ _ h => h.1) _ _ h

/-- What is gathered has a walk to the root. -/
lemma mem_gather : n ∈ g.gather assigned root ↔
    ReflTransGen (fun a b => g.Needs b a ∧ b ∉ assigned) root n := by
  rw [gather, Sorted.mem_ofList strictTotal_textLt, mem_explore fun x y hxy => ?_]
  · simp [mem_dependents, Needs]
  · exact Needs.source_mem (mem_dependents.1 (List.mem_filter.1 hxy).1)

/-- **What reaches the last module left is reached from it**, along edges from modules that have not
been taken away.

**Proof sketch.** Induction on how many modules have been left later than `n`. A walk from `n` to
the root leaves the modules that were left no later than `n`, if `n` is not the root itself. It
leaves them for a module that was left later and reaches `n`, and by induction the root reaches that
one. -/
lemma reaches_of_postorder (h : g.Peeled assigned (root :: roots)) (hroot : root ∉ assigned)
    {later : List String} (hlist : root :: roots = later ++ n :: order)
    (hwalk : g.ReachesFree assigned n root) : g.Reaches root n := by
  induction hlen : later.length using Nat.strong_induction_on generalizing later n order with
  | _ len ih =>
    subst hlen
    rcases later with _ | ⟨x, later⟩
    · obtain ⟨rfl, -⟩ := List.cons.inj hlist
      exact .refl
    · obtain ⟨rfl, htail⟩ := List.cons.inj hlist
      have hnot : root ∉ n :: order := fun hmem =>
        (List.nodup_cons.1 h.nodup).1 (htail ▸ List.mem_append_right _ hmem)
      obtain ⟨c, d, hc, hcd, hd, hdroot⟩ := exists_leaving (S := (· ∈ n :: order)) hwalk
        List.mem_cons_self hnot
      have hpost : g.Postorder ((root :: later) ++ n :: order) := hlist ▸ h.postorder
      have hdn : g.Reaches d n := (hpost.of_append c hc d hcd.1).resolve_left hd
      have hdfree : d ∉ assigned := by
        rcases ReflTransGen.cases_head hdroot with rfl | ⟨x, hdx, -⟩
        · exact hroot
        · exact hdx.2
      have hdlater : d ∈ root :: later := by
        have hmem := (h.covers d hcd.1.target_mem).resolve_left hdfree
        rw [hlist] at hmem
        exact (List.mem_append.1 hmem).resolve_right hd
      obtain ⟨first, between, hsplit⟩ := List.append_of_mem hdlater
      have hshort : first.length < (root :: later).length := by
        rw [hsplit, List.length_append, List.length_cons]
        omega
      have hlist' : root :: roots = first ++ d :: (between ++ n :: order) := by
        rw [hlist, hsplit, List.append_assoc, List.cons_append]
      exact (ih _ hshort hlist' hdroot rfl).trans hdn

/-- What is gathered is the component of the root. -/
lemma mem_gather_iff (h : g.Peeled assigned (root :: roots)) (hroot : root ∉ assigned) :
    n ∈ g.gather assigned root ↔ g.Reaches root n ∧ g.Reaches n root := by
  rw [mem_gather]
  constructor
  · intro hgather
    have hwalk : g.ReachesFree assigned n root := reflTransGen_swap.1 hgather
    have hmem : n ∈ root :: roots := by
      rcases ReflTransGen.cases_head hwalk with rfl | ⟨x, hnx, -⟩
      · exact List.mem_cons_self
      · exact (h.covers n hnx.1.source_mem).resolve_left hnx.2
    obtain ⟨later, order, hlist⟩ := List.append_of_mem hmem
    exact ⟨reaches_of_postorder h hroot hlist hwalk, hwalk.reaches⟩
  · rintro ⟨hrn, hnr⟩
    induction hnr using ReflTransGen.head_induction_on with
    | refl => exact .refl
    | @head x y hxy hyr ih =>
      have hry : g.Reaches root y := hrn.tail hxy
      refine (ih hry).tail ⟨hxy, fun hx => hroot ?_⟩
      exact h.closed x hx root (hyr.head hxy) hrn

/-- **What is gathered is the component of the root.** -/
lemma gather_eq_component (h : g.Peeled assigned (root :: roots)) (hroot : root ∉ assigned)
    (hmodule : root ∈ g.modules) : g.gather assigned root = g.component root := by
  refine Increasing.eq_of_mem_iff strictTotal_textLt
    (Sorted.increasing_ofList strictTotal_textLt _) (g.modules_increasing.filter _) fun n => ?_
  rw [mem_gather_iff h hroot, mem_component]
  exact (and_iff_right_of_imp fun hn => hn.1.mem_modules hmodule).symm

/-- When the component of a root is taken away, only whole components have been taken away. -/
lemma Peeled.take (h : g.Peeled assigned (root :: roots)) :
    g.Peeled (g.component root ++ assigned) roots where
  closed m hm n hmn hnm := by
    rcases List.mem_append.1 hm with hm | hm
    · obtain ⟨hmodule, hrm, hmr⟩ := mem_component.1 hm
      refine List.mem_append_left _ (mem_component.2 ⟨hmn.mem_modules hmodule, ?_⟩)
      exact ⟨hrm.trans hmn, hnm.trans hmr⟩
    · exact List.mem_append_right _ (h.closed m hm n hmn hnm)
  covers m hm := by
    rcases h.covers m hm with hassigned | hmem
    · exact .inl (List.mem_append_right _ hassigned)
    · rcases List.mem_cons.1 hmem with rfl | hmem
      · exact .inl (List.mem_append_left _ (mem_component.2 ⟨hm, .refl, .refl⟩))
      · exact .inr hmem
  nodup := (List.nodup_cons.1 h.nodup).2
  postorder := h.postorder.2

/-- A root that has been taken away can be passed over. -/
lemma Peeled.skip (h : g.Peeled assigned (root :: roots)) (hroot : root ∈ assigned) :
    g.Peeled assigned roots where
  closed := h.closed
  covers m hm := by
    rcases h.covers m hm with hassigned | hmem
    · exact .inl hassigned
    · rcases List.mem_cons.1 hmem with rfl | hmem
      · exact .inl hroot
      · exact .inr hmem
  nodup := (List.nodup_cons.1 h.nodup).2
  postorder := h.postorder.2

/-- **The second pass takes away the components** that are left, each of them once. -/
lemma gatherAll_spec (h : g.Peeled assigned roots) (hroots : ∀ m ∈ roots, m ∈ g.modules) :
    (∀ c ∈ g.gatherAll assigned roots, ∃ m ∈ g.modules, c = g.component m ∧ c.Disjoint assigned) ∧
      (g.gatherAll assigned roots).Pairwise List.Disjoint ∧
      ∀ m ∈ g.modules, m ∈ assigned ∨ ∃ c ∈ g.gatherAll assigned roots, m ∈ c := by
  induction roots generalizing assigned with
  | nil =>
    refine ⟨fun c hc => absurd hc List.not_mem_nil, List.Pairwise.nil, fun m hm => ?_⟩
    exact .inl ((h.covers m hm).resolve_right List.not_mem_nil)
  | cons root roots ih =>
    have hroots' : ∀ m ∈ roots, m ∈ g.modules := fun m hm => hroots m (List.mem_cons_of_mem _ hm)
    unfold gatherAll
    split
    · rename_i hroot
      exact ih (h.skip (List.contains_iff_mem.1 hroot)) hroots'
    · rename_i hroot
      rw [List.contains_iff_mem] at hroot
      have hmodule : root ∈ g.modules := hroots root List.mem_cons_self
      rw [gather_eq_component h hroot hmodule]
      obtain ⟨hclasses, hdisjoint, hcovers⟩ := ih h.take hroots'
      have hfree : (g.component root).Disjoint assigned := by
        intro n hn hassigned
        obtain ⟨-, hrn, hnr⟩ := mem_component.1 hn
        exact hroot (h.closed n hassigned root hnr hrn)
      refine ⟨fun c hc => ?_, List.pairwise_cons.2 ⟨fun c hc => ?_, hdisjoint⟩, fun m hm => ?_⟩
      · rcases List.mem_cons.1 hc with rfl | hc
        · exact ⟨root, hmodule, rfl, hfree⟩
        · obtain ⟨m, hm, heq, hdis⟩ := hclasses c hc
          exact ⟨m, hm, heq, fun n hn hassigned => hdis hn (List.mem_append_right _ hassigned)⟩
      · obtain ⟨m, hm, heq, hdis⟩ := hclasses c hc
        exact fun n hn hnc => hdis hnc (List.mem_append_left _ hn)
      · rcases hcovers m hm with hmem | ⟨c, hc, hmc⟩
        · rcases List.mem_append.1 hmem with hmem | hmem
          · exact .inr ⟨_, List.mem_cons_self, hmem⟩
          · exact .inl hmem
        · exact .inr ⟨c, List.mem_cons_of_mem _ hc, hmc⟩

/-- Before the second pass nothing has been taken away. -/
lemma peeled_finishOrder (g : Graph) : g.Peeled [] g.finishOrder := by
  obtain ⟨hpostorder, hnodup, hmem⟩ := postorder_finishOrder g
  exact ⟨by simp, fun m hm => .inr ((hmem m).2 hm), hnodup, hpostorder⟩

end BindingRules.Graph
