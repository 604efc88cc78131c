import BindingRules.Policy.Resolve
import BindingRules.Proofs.CycleCoverage
import BindingRules.Proofs.Schedule
import BindingRules.Proofs.StoreAnswers

set_option relaxedAutoImplicit false
set_option autoImplicit false

/-!
# Answers that depend on statements alone

Two histories may state the same with different positions and at different places: then their
stores answer with directives that state the same. What is made of the answers (the dependency
graph, the guards, the generation order) takes no notice of places at all, and of positions only
which one is first.

## Main definitions

* `Alike` — lists of which the same is seen through a view.
* `Store.AnswersAlike` — stores whose answers state the same.
* `Graph.ForcesAlike` — rankings that force modules on cycles in the same succession.
* `Guards.Alike` — guards that differ in their places alone.

## Main results

* `Store.Reflects.query_alike`, `Store.Reflects.queryText_alike`,
  `Store.Reflects.directivesOf_alike` — answers depend on what the admitted directives of the kind
  state.
* `Store.Reflects.answersAlike` — stores behind histories that state the same answer alike.
* `Store.AnswersAlike.dependencyGraph_eq`, `Store.AnswersAlike.guardsWithin`,
  `Store.AnswersAlike.priorityOf_eq` — what is made of the answers.
* `Graph.order_congr` — the generation order depends on priorities and on which of two modules on
  cycles is forced before the other.
* `Ruleset.forcedBefore_mentionOf` — which module is forced first does not depend on positions.
-/

namespace BindingRules

/-! ## Lists -/

section Lists

variable {α β γ : Type} {view : α → β} {l l' m m' : List α}

/-- Two lists are alike if the same is seen of them. -/
def Alike (view : α → β) (l l' : List α) : Prop := l.map view = l'.map view

namespace Alike

/-- Lists that are alike begin alike, and go on alike. -/
lemma cons_iff {a : α} : Alike view (a :: l) l' ↔
    ∃ a' m, l' = a' :: m ∧ view a = view a' ∧ Alike view l m := by
  rw [Alike, List.map_cons, eq_comm, List.map_eq_cons_iff]
  exact exists_congr fun a' => exists_congr fun m => and_congr_right fun _ =>
    and_congr eq_comm eq_comm

/-- What a function makes of what is seen is the same. -/
lemma map_eq (h : Alike view l l') (f : β → γ) :
    l.map (fun a => f (view a)) = l'.map (fun a => f (view a)) := by
  simpa only [List.map_map, Function.comp_def] using congrArg (List.map f) h

/-- The same is left where only what is seen decides. -/
lemma filter (h : Alike view l l') (p : β → Bool) :
    Alike view (l.filter fun a => p (view a)) (l'.filter fun a => p (view a)) := by
  simpa only [Alike, List.filter_map, Function.comp_def] using congrArg (List.filter p) h

/-- What a partial function makes of what is seen is the same. -/
lemma filterMap_eq (h : Alike view l l') (f : β → Option γ) :
    l.filterMap (fun a => f (view a)) = l'.filterMap (fun a => f (view a)) := by
  simpa only [List.filterMap_map, Function.comp_def] using congrArg (List.filterMap f) h

/-- What a partial function gathers is the same if only what is seen decides. -/
lemma filterMap_congr (h : Alike view l l') (f : α → Option γ)
    (hf : ∀ a a', view a = view a' → f a = f a') : l.filterMap f = l'.filterMap f := by
  induction l generalizing l' with
  | nil =>
    obtain rfl := List.map_eq_nil_iff.1 (Eq.symm h)
    rfl
  | cons a l ih =>
    obtain ⟨a', m, rfl, ha, hm⟩ := Alike.cons_iff.1 h
    rw [List.filterMap_cons, List.filterMap_cons, hf a a' ha, ih hm]

/-- Whether anything has a property is the same if only what is seen decides. -/
lemma any_eq (h : Alike view l l') (p : β → Bool) :
    l.any (fun a => p (view a)) = l'.any (fun a => p (view a)) := by
  simpa only [List.any_map, Function.comp_def] using congrArg (List.any · p) h

/-- The first position with a property is the same if only what is seen decides. -/
lemma findIdx_eq (h : Alike view l l') (p : β → Bool) :
    l.findIdx (fun a => p (view a)) = l'.findIdx (fun a => p (view a)) := by
  simpa only [List.findIdx_map, Function.comp_def] using congrArg (List.findIdx p) h

/-- What is gathered of what is seen is the same. -/
lemma foldl_eq (h : Alike view l l') (f : γ → β → γ) (start : γ) :
    l.foldl (fun c a => f c (view a)) start = l'.foldl (fun c a => f c (view a)) start := by
  simpa only [List.foldl_map] using congrArg (List.foldl f start) h

/-- The same is seen of the last ones. -/
lemma getLast?_eq (h : Alike view l l') : l.getLast?.map view = l'.getLast?.map view := by
  simpa only [List.getLast?_map] using congrArg List.getLast? h

/-- The last ones are alike. -/
lemma getLast?_toList (h : Alike view l l') :
    Alike view l.getLast?.toList l'.getLast?.toList := by
  have := congrArg Option.toList h.getLast?_eq
  rwa [Option.toList_map, Option.toList_map] at this

/-- Lists put together from lists that are alike are alike. -/
lemma append (h : Alike view l l') (h' : Alike view m m') : Alike view (l ++ m) (l' ++ m') := by
  rw [Alike, List.map_append, List.map_append, h, h']

/-- Lists that are alike are empty together. -/
lemma isEmpty_eq (h : Alike view l l') : l.isEmpty = l'.isEmpty := by
  simpa only [List.isEmpty_map] using congrArg List.isEmpty h

end Alike

end Lists

/-! ## Stores -/

section Stores

variable {platform : Option String} {before before' ds ds' : List Directive} {s s' : Store}
  {d e d' e' : Directive}

/-- Which directive yields to which is stated. -/
lemma yieldsTo_congr (hd : d.toStatement = d'.toStatement) (he : e.toStatement = e'.toStatement) :
    d.YieldsTo e ↔ d'.YieldsTo e' := by
  simp only [Directive.YieldsTo, Directive.address, hd, he]

/-- What stands of histories that state the same states the same. -/
lemma Alike.standing (h : Alike Directive.toStatement ds ds') :
    Alike Directive.toStatement (standing ds) (standing ds') := by
  induction ds generalizing ds' with
  | nil =>
    obtain rfl := List.map_eq_nil_iff.1 (Eq.symm h)
    rfl
  | cons d ds ih =>
    obtain ⟨d', m, rfl, hd, hm⟩ := Alike.cons_iff.1 h
    have hyields : (∃ e ∈ ds, d.YieldsTo e) ↔ ∃ e ∈ m, d'.YieldsTo e := by
      have hany := hm.any_eq fun e => decide (d.kind.resolution = .exclusive ∧ d.kind = e.kind ∧
        d.address = Address.ofTarget e.target)
      rw [Bool.eq_iff_iff, List.any_eq_true, List.any_eq_true] at hany
      simp only [decide_eq_true_eq] at hany
      refine hany.trans (exists_congr fun e => and_congr_right fun _ => ?_)
      exact yieldsTo_congr hd rfl
    rw [BindingRules.standing, BindingRules.standing]
    by_cases hcond : ∃ e ∈ ds, d.YieldsTo e
    · rw [if_pos hcond, if_pos (hyields.1 hcond)]
      exact ih hm
    · rw [if_neg hcond, if_neg (mt hyields.2 hcond)]
      exact Alike.cons_iff.2 ⟨d', _, rfl, hd, ih hm⟩

/-- What stands of a history is known kind by kind. -/
lemma filter_kind_standing (kind : DirectiveKind) (ds : List Directive) :
    (standing ds).filter (·.kind == kind) = standing (ds.filter (·.kind == kind)) := by
  induction ds with
  | nil => rfl
  | cons d ds ih =>
    by_cases hkind : d.kind = kind
    · have hyields : (∃ e ∈ ds.filter (·.kind == kind), d.YieldsTo e) ↔ ∃ e ∈ ds, d.YieldsTo e := by
        refine exists_congr fun e => ⟨fun ⟨he, h⟩ => ?_, fun ⟨he, h⟩ => ?_⟩
        · exact ⟨(List.mem_filter.1 he).1, h⟩
        · exact ⟨List.mem_filter.2 ⟨he, beq_iff_eq.2 (h.2.1.symm.trans hkind)⟩, h⟩
      rw [List.filter_cons_of_pos (by simpa using hkind), standing, standing]
      simp only [hyields]
      split
      · exact ih
      · rw [List.filter_cons_of_pos (by simpa using hkind), ih]
    · rw [List.filter_cons_of_neg (by simpa using hkind), standing]
      split
      · exact ih
      · rw [List.filter_cons_of_neg (by simpa using hkind), ih]

/-- Only directives of the kind are about a name. -/
lemma filter_concerns (kind : DirectiveKind) (n : Name) (ds : List Directive) :
    (ds.filter (·.kind == kind)).filter (fun d => d.toStatement.concerns kind n) =
      ds.filter fun d => d.toStatement.concerns kind n := by
  rw [List.filter_filter]
  refine List.filter_congr fun d _ => ?_
  cases h : d.kind == kind <;> simp [Statement.concerns, h]

/-- Only directives of the kind are looked up by a key. -/
lemma keyed_filter_kind (kind : DirectiveKind) (key : String) (ds : List Directive) :
    keyed kind key (ds.filter (·.kind == kind)) = keyed kind key ds := by
  rw [keyed, List.filter_filter]
  refine List.filter_congr fun d _ => ?_
  cases d.kind == kind <;> simp

namespace Store.Reflects

variable {platform' : Option String} {kind : DirectiveKind}

/-- Stores answer queries of an exclusive kind for a name alike if the admitted directives of that
kind state the same. -/
lemma query_alike (hs : s.Reflects platform before) (hs' : s'.Reflects platform' before')
    (h : Alike Directive.toStatement ((admitted platform before).filter (·.kind == kind))
      ((admitted platform' before').filter (·.kind == kind)))
    (hkind : kind.resolution = .exclusive) (n : Name) :
    (s.query kind n).map Directive.toStatement = (s'.query kind n).map Directive.toStatement := by
  have hconcerns := h.filter fun d => d.concerns kind n
  rw [filter_concerns, filter_concerns] at hconcerns
  rw [hs.query_eq hkind, hs'.query_eq hkind]
  exact hconcerns.getLast?_eq

/-- Stores answer queries for a text alike if the admitted directives of the kind state the same. -/
lemma queryText_alike (hs : s.Reflects platform before) (hs' : s'.Reflects platform' before')
    (h : Alike Directive.toStatement ((admitted platform before).filter (·.kind == kind))
      ((admitted platform' before').filter (·.kind == kind))) (raw : String) :
    Alike Directive.toStatement (s.queryText kind raw) (s'.queryText kind raw) := by
  unfold Store.queryText
  split
  · next n _ =>
    have hconcerns := h.filter fun d => d.concerns kind n
    rw [filter_concerns, filter_concerns] at hconcerns
    rw [hs.queryAll_eq, hs'.queryAll_eq]
    split
    · exact hconcerns.getLast?_toList
    · exact hconcerns
  · have hkeyed : Alike Directive.toStatement (keyed kind (Text.trimmed raw) _)
        (keyed kind (Text.trimmed raw) _) := h.filter fun d => d.hasKey kind (Text.trimmed raw)
    rw [keyed_filter_kind, keyed_filter_kind] at hkeyed
    rw [hs.atKey_eq, hs'.atKey_eq]
    split
    · exact hkeyed.getLast?_toList
    · exact hkeyed

/-- Stores have directives of a kind that state the same if the admitted ones of that kind do. -/
lemma directivesOf_alike (hs : s.Reflects platform before) (hs' : s'.Reflects platform' before')
    (h : Alike Directive.toStatement ((admitted platform before).filter (·.kind == kind))
      ((admitted platform' before').filter (·.kind == kind))) :
    Alike Directive.toStatement (s.directivesOf kind) (s'.directivesOf kind) := by
  rw [hs.directivesOf_eq, hs'.directivesOf_eq, filter_kind_standing, filter_kind_standing]
  exact h.standing

end Store.Reflects

/-- Stores answer alike if what they answer states the same. -/
structure Store.AnswersAlike (s s' : Store) : Prop where
  /-- Queries for a name of an exclusive kind. -/
  query : ∀ kind n, kind.resolution = .exclusive →
    (s.query kind n).map Directive.toStatement = (s'.query kind n).map Directive.toStatement
  /-- Queries for a text. -/
  queryText : ∀ kind raw, Alike Directive.toStatement (s.queryText kind raw) (s'.queryText kind raw)
  /-- All directives of a kind. -/
  directivesOf : ∀ kind, Alike Directive.toStatement (s.directivesOf kind) (s'.directivesOf kind)

/-- **Stores answer alike** behind histories of which the admitted directives state the same, even
if they are for different platforms. -/
lemma Store.Reflects.answersAlike_of_admitted {platform' : Option String}
    (hs : s.Reflects platform before) (hs' : s'.Reflects platform' before')
    (h : Alike Directive.toStatement (admitted platform before) (admitted platform' before')) :
    s.AnswersAlike s' where
  query kind n hkind := hs.query_alike hs' (h.filter fun d => d.kind == kind) hkind n
  queryText kind raw := hs.queryText_alike hs' (h.filter fun d => d.kind == kind) raw
  directivesOf kind := hs.directivesOf_alike hs' (h.filter fun d => d.kind == kind)

/-- Stores for one platform answer alike behind histories of which the active directives state the
same. -/
lemma Store.Reflects.answersAlike (hs : s.Reflects platform before)
    (hs' : s'.Reflects platform before')
    (h : Alike Directive.toStatement (before.filter (·.active)) (before'.filter (·.active))) :
    s.AnswersAlike s' := by
  refine hs.answersAlike_of_admitted hs' ?_
  have := h.filter fun d => d.appliesTo platform
  simpa only [admitted, List.filter_filter, Bool.and_comm] using this

end Stores

/-! ## What is made of the answers -/

/-- Which names a kind excludes is known from the answers to its queries. -/
lemma Store.isExcluded_congr {s s' : Store} {kind : DirectiveKind}
    (h : ∀ n, kind.resolution = .exclusive →
      (s.query kind n).map Directive.toStatement = (s'.query kind n).map Directive.toStatement) :
    s.isExcluded kind = s'.isExcluded kind := by
  funext n
  unfold Store.isExcluded
  cases hkind : kind.isExclusion with
  | false => rfl
  | true =>
    have hexclusive : kind.resolution = .exclusive := by
      cases kind <;> first | rfl | cases hkind
    simpa only [Option.isSome_map, Bool.true_and] using congrArg Option.isSome (h n hexclusive)

namespace Store.AnswersAlike

variable {s s' : Store}

/-- Stores that answer alike exclude the same. -/
lemma isExcluded_eq (h : s.AnswersAlike s') : s.isExcluded = s'.isExcluded :=
  funext fun kind => isExcluded_congr fun n hkind => h.query kind n hkind

/-- Stores that answer alike exclude the same modules. -/
lemma excludesModule_eq (h : s.AnswersAlike s') : s.excludesModule = s'.excludesModule := by
  funext m
  simp only [Store.excludesModule, h.isExcluded_eq]

/-- **The dependency graph** is the same for stores that answer alike. -/
lemma dependencyGraph_eq (h : s.AnswersAlike s') (inputs : Inputs) :
    dependencyGraph s inputs = dependencyGraph s' inputs := by
  have hsorted := (h.directivesOf .sortPriority).foldl_eq
    (fun (g : Graph) (d : Statement) => g.addModule (Text.trimmed d.target))
    (Graph.ofLists inputs.modules inputs.dependencies)
  have hdropped : (s.directivesOf .importExclude).filterMap droppedEdge? =
      (s'.directivesOf .importExclude).filterMap droppedEdge? :=
    (h.directivesOf .importExclude).filterMap_eq
      fun d => d.payload.module?.map (Edge.mk (Text.trimmed d.target))
  simp only [dependencyGraph, hsorted, hdropped, h.excludesModule_eq]

/-- **The priorities of modules** are the same for stores that answer alike. -/
lemma priorityOf_eq (h : s.AnswersAlike s') : priorityOf s = priorityOf s' := by
  funext m
  have := ((h.directivesOf .sortPriority).filter
    fun d => Text.trimmed d.target == m).filterMap_eq fun d => d.payload.priority?
  exact congrArg List.getLast? this

end Store.AnswersAlike

/-! ## Guards -/

namespace Guard

/-- What a guard says, apart from its place. -/
def content (guard : Guard) : Edge × GuardKind × String := (guard.edge, guard.kind, guard.anchor)

/-- What the guard of a directive says is stated. -/
def contentOf? (d : Statement) : Option (Edge × GuardKind × String) := do
  let kind ← kindOf? d.kind
  let target ← d.payload.module?
  return (⟨Name.moduleOf d.target, target⟩, kind, d.target)

/-- What the guard of a directive says is stated. -/
lemma map_content_ofDirective? (d : Directive) :
    (ofDirective? d).map content = contentOf? d.toStatement := by
  unfold ofDirective? contentOf?
  cases kindOf? d.kind <;> cases d.payload.module? <;> rfl

end Guard

namespace Guards

/-- Guards are alike if they say the same. -/
def Alike (guards guards' : Guards) : Prop :=
  BindingRules.Alike Guard.content guards.list guards'.list

namespace Alike

variable {guards guards' : Guards}

/-- Guards that are alike are on the same edges. -/
lemma isGuarded_eq (h : guards.Alike guards') : guards.isGuarded = guards'.isGuarded := by
  funext e
  exact h.any_eq fun content => content.1 == e

/-- Guards that are alike are on the same edges. -/
lemma edges_eq (h : guards.Alike guards') : guards.edges = guards'.edges :=
  congrArg (Sorted.ofList Edge.lt) (h.map_eq Prod.fst)

/-- The guards on one edge are alike. -/
lemma onEdge (h : guards.Alike guards') (e : Edge) :
    BindingRules.Alike Guard.content (guards.onEdge e) (guards'.onEdge e) :=
  h.filter fun content => content.1 == e

/-- The guards on one edge are of the same sorts. -/
lemma hasKind_eq (h : guards.Alike guards') (e : Edge) (kind : GuardKind) :
    guards.hasKind e kind = guards'.hasKind e kind :=
  (h.onEdge e).any_eq fun content => content.2.1 == kind

/-- The guards on one edge name the same places for the reference. -/
lemma anchors_eq (h : guards.Alike guards') (e : Edge) :
    (guards.onEdge e).map Guard.anchor = (guards'.onEdge e).map Guard.anchor :=
  (h.onEdge e).map_eq fun content => content.2.2

/-- The edges without guards are the same. -/
lemma unguarded_eq (h : guards.Alike guards') (g : Graph) :
    g.unguarded guards = g.unguarded guards' := by
  rw [Graph.unguarded, Graph.unguarded, h.isGuarded_eq]

/-- The generation order is the same. -/
lemma order_eq (h : guards.Alike guards') (g : Graph) (r : Ranking) :
    g.order guards r = g.order guards' r := by
  rw [Graph.order, Graph.order, h.unguarded_eq]

/-- **What is decided for guarded edges** is the same. -/
lemma placements_eq (h : guards.Alike guards') (g : Graph) :
    g.placements guards = g.placements guards' := by
  have hplacement : g.placement guards = g.placement guards' := by
    funext components e
    simp only [Graph.placement, Guards.isRedundant, h.hasKind_eq, h.anchors_eq]
  rw [Graph.placements, Graph.placements, h.edges_eq, hplacement]

/-- **The cycles that guards do not break** are the same. -/
lemma unbrokenCycles_eq (h : guards.Alike guards') (g : Graph) (coverage : Coverage) :
    g.unbrokenCycles guards coverage = g.unbrokenCycles guards' coverage :=
  Graph.unbrokenCycles_congr h.isGuarded_eq g coverage

end Alike

end Guards

/-- **The guards** of stores that answer alike are alike. -/
lemma Store.AnswersAlike.guardsWithin {s s' : Store} (h : s.AnswersAlike s') (g : Graph) :
    (guardsWithin s g).Alike (guardsWithin s' g) := by
  have hstated := ((h.directivesOf .importGuard).append (h.directivesOf .callGuard)).filterMap_eq
    Guard.contentOf?
  have hofStore : Guards.Alike (Guards.ofStore s) (Guards.ofStore s') := by
    rw [Guards.Alike, Alike, Guards.ofStore, Guards.ofStore, List.map_filterMap,
      List.map_filterMap]
    simpa only [Guard.map_content_ofDirective?] using hstated
  exact hofStore.filter fun content =>
    content.1.source != content.1.target && g.contains content.1.source &&
      g.contains content.1.target

/-! ## The generation order -/

namespace Graph

open Relation

variable {g : Graph} {r r' : Ranking}

/-- Which of two modules on cycles is forced before the other is the same under two rankings. -/
def ForcesAlike (g : Graph) (r r' : Ranking) : Prop :=
  ∀ a b, TransGen g.Needs a a → TransGen g.Needs b b → forcedBefore r a b = forcedBefore r' a b

/-- What is on a closed cycle of what is left is on a cycle of the graph. -/
lemma transGen_of_mem_closedCycles {emitted : List String} {m : String}
    (hm : m ∈ (g.rest emitted).closedCycles.flatten) : TransGen g.Needs m m := by
  obtain ⟨c, hc, hmc⟩ := List.mem_flatten.1 hm
  obtain ⟨hcomponent, hlength, -⟩ := mem_closedCycles.1 hc
  exact TransGen.mono (fun _ _ h => (needs_rest.1 h).1) _ _
    (transGen_of_mem_component hcomponent hlength hmc)

/-- The module to force depends on which of two modules on cycles is forced before the other. -/
lemma ForcesAlike.cycleEntry_eq (h : g.ForcesAlike r r') (emitted : List String) :
    (g.rest emitted).cycleEntry r = (g.rest emitted).cycleEntry r' :=
  leastBy?_congr fun a ha b hb =>
    h a b (transGen_of_mem_closedCycles ha) (transGen_of_mem_closedCycles hb)

/-- The schedule depends on which of two modules on cycles is forced before the other. -/
lemma ForcesAlike.schedule_eq (h : g.ForcesAlike r r') (rank : String → Rank) (count : Nat)
    (emitted : List String) (a : Agenda) :
    g.schedule r rank count emitted a = g.schedule r' rank count emitted a := by
  induction count generalizing emitted a with
  | zero => rfl
  | succ count ih => simp only [schedule, h.cycleEntry_eq, ih]

/-- **The generation order** depends on the priorities, and on which of two modules on cycles
without guards is forced before the other. -/
lemma order_congr {guards : Guards} (hpriority : r.priority = r'.priority)
    (h : (g.unguarded guards).ForcesAlike r r') : g.order guards r = g.order guards r' := by
  have hprioritized : ∀ g : Graph, g.prioritized r = g.prioritized r' := fun g => by
    rw [prioritized, prioritized, hpriority]
  simp only [order, orderUnguarded, effectivePriorities, conflicts, conflictsOf, hprioritized,
    hpriority, h.schedule_eq]

/-- **Conflicts** depend on the priorities alone. -/
lemma conflicts_congr {guards : Guards} (hpriority : r.priority = r'.priority) :
    (g.order guards r).conflicts = (g.order guards r').conflicts := by
  simp only [order, orderUnguarded, conflicts, conflictsOf, prioritized, hpriority]

end Graph

namespace Ruleset

/-- The mention of a module, or that of a module that is not mentioned, is the position at an index
of the active directives. -/
lemma getD_mentionOf (r : Ruleset) (m : String) :
    (r.mentionOf m).getD Graph.unmentioned =
      (r.activeDirectives[r.activeDirectives.findIdx (·.mentions m)]?.map (·.order)).getD
        Graph.unmentioned := by
  rw [mentionOf, List.find?_eq_getElem?_findIdx]

/-- Positions increase with the indices, up to that behind the last directive. -/
lemma getD_order_lt_iff {ds : List Directive} (h : ds.Pairwise fun d e => d.order < e.order)
    (hlt : ∀ d ∈ ds, d.order < Graph.unmentioned) {i j : Nat} (hi : i ≤ ds.length)
    (hj : j ≤ ds.length) :
    (ds[i]?.map (·.order)).getD Graph.unmentioned < (ds[j]?.map (·.order)).getD Graph.unmentioned ↔
      i < j := by
  have hmono : ∀ {i j : Nat}, i < j → j ≤ ds.length →
      (ds[i]?.map (·.order)).getD Graph.unmentioned <
        (ds[j]?.map (·.order)).getD Graph.unmentioned := by
    intro i j hij hj
    have hi : i < ds.length := Nat.lt_of_lt_of_le hij hj
    rw [List.getElem?_eq_getElem hi]
    rcases Nat.lt_or_eq_of_le hj with hj | rfl
    · rw [List.getElem?_eq_getElem hj]
      exact List.pairwise_iff_getElem.1 h i j hi hj hij
    · rw [List.getElem?_eq_none (Nat.le_refl _)]
      exact hlt _ (List.getElem_mem hi)
  constructor
  · intro hlt'
    by_contra hnot
    rcases Nat.lt_or_eq_of_le (Nat.not_lt.1 hnot) with hji | rfl
    · exact Nat.lt_asymm hlt' (hmono hji hi)
    · exact Nat.lt_irrefl _ hlt'
  · exact fun hij => hmono hij hj

/-- **Which module is forced first** depends on which is mentioned by an earlier active directive,
whatever the positions of the directives are. -/
lemma forcedBefore_mentionOf {r : Ruleset} {priority : String → Option Int}
    (h : r.activeDirectives.Pairwise fun d e => d.order < e.order)
    (hlt : ∀ d ∈ r.activeDirectives, d.order < Graph.unmentioned) (a b : String) :
    Graph.forcedBefore ⟨priority, r.mentionOf⟩ a b =
      let i := r.activeDirectives.findIdx (·.mentions a)
      let j := r.activeDirectives.findIdx (·.mentions b)
      decide (i < j) || (i == j && textLt a b) := by
  have hless : ∀ a b : String, _ < _ ↔ _ < _ := fun a b =>
    getD_order_lt_iff h hlt (List.findIdx_le_length (p := (·.mentions a)))
      (List.findIdx_le_length (p := (·.mentions b)))
  have hequal : ∀ x y i j : Nat, (x < y ↔ i < j) → (y < x ↔ j < i) → (x == y) = (i == j) := by
    intro x y i j hxy hyx
    rw [Bool.eq_iff_iff, beq_iff_eq, beq_iff_eq]
    omega
  simp only [Graph.forcedBefore, getD_mentionOf, hequal _ _ _ _ (hless a b) (hless b a), hless]

end Ruleset

end BindingRules
