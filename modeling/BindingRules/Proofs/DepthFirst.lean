import BindingRules.Graph.Coverage
import BindingRules.Proofs.CycleCoverage
import Mathlib.Data.List.Nodup

set_option relaxedAutoImplicit false
set_option autoImplicit false

/-!
# Depth first search for cycles

Where one guard on each cycle is enough, a depth first search reports the edges that lead back to
the path it is following. It keeps what is pending at each module of its path, the path itself, and
the colours of the modules; the three agree at all times.

A module is finished when everything behind it has been searched. The finished modules, last one
first, are such that every edge from one of them is reported or leads to a module that was finished
before it; so the edges that are not reported form no cycle.

## Main definitions

* `Graph.Settled` — lists in which a relation only leads from the front to the back.
* `Graph.Followed` — what a search has done about the edges from the modules of its path.
* `Graph.Search.Inv` — what holds of a search at all times.
* `Graph.Search.work` — how many steps a search has still to make at most.

## Main results

* `Graph.Settled.acyclic` — a relation that only leads to the back has no cycle.
* `Graph.Search.Inv.step`, `Graph.Search.Inv.work_step_lt` — one step of a search.
* `Graph.Search.Inv.run` — a search comes to its end.
* `Graph.backEdgeCycles_sound`, `Graph.nodup_edge_backEdgeCycles` — what is reported.
* `Graph.not_transGen_silent`, `Graph.acyclic_of_backEdgeCycles` — what is not reported has no
  cycle, and without reports there is none.
-/

namespace BindingRules.Graph

open Relation

variable {g : Graph} {m n node : String} {s : Search} {pending covered covered' done : List String}
  {stack : List Frame} {es es' : List Edge} {r r' : String → String → Prop}

/-! ## Settled lists -/

/-- Whatever an element of the list leads to stands behind it in the list. -/
def Settled (r : String → String → Prop) : List String → Prop
  | [] => True
  | m :: done => (∀ n, r m n → n ∈ done) ∧ Settled r done

/-- A list that is settled for a relation is settled for a smaller one. -/
lemma Settled.mono (hr : ∀ a b, r' a b → r a b) (h : Settled r done) : Settled r' done := by
  induction done with
  | nil => trivial
  | cons m done ih => exact ⟨fun n hn => h.1 n (hr m n hn), ih h.2⟩

/-- Nothing leads out of a settled list. -/
lemma Settled.mem_of_rel (h : Settled r done) (hm : m ∈ done) (hmn : r m n) : n ∈ done := by
  induction done with
  | nil => exact absurd hm List.not_mem_nil
  | cons d done ih =>
    rcases List.mem_cons.1 hm with rfl | hm
    · exact List.mem_cons_of_mem _ (h.1 n hmn)
    · exact List.mem_cons_of_mem _ (ih h.2 hm)

/-- No walk leads out of a settled list. -/
lemma Settled.mem_of_reflTransGen (h : Settled r done) (hm : m ∈ done) (hmn : ReflTransGen r m n) :
    n ∈ done := by
  induction hmn with
  | refl => exact hm
  | tail _ hxy ih => exact h.mem_of_rel ih hxy

/-- No cycle leads through a settled list: what stands behind an element does not lead back to
it. -/
lemma Settled.acyclic (h : Settled r done) (hm : m ∈ done) : ¬ TransGen r m m := by
  induction done with
  | nil => exact absurd hm List.not_mem_nil
  | cons d done ih =>
    by_cases hmd : m ∈ done
    · exact ih h.2 hmd
    · obtain rfl : m = d := (List.mem_cons.1 hm).resolve_right hmd
      intro hcycle
      obtain ⟨x, hmx, hxm⟩ := TransGen.head'_iff.1 hcycle
      exact hmd (h.2.mem_of_reflTransGen (h.1 x hmx) hxm)

/-! ## Colours and reports -/

namespace Search

/-- The edges that a search has reported. -/
def reported (s : Search) : List Edge := s.cycles.map UnbrokenCycle.edge

/-- An edge that a search has not reported. -/
def Silent (g : Graph) (s : Search) (a b : String) : Prop := g.Needs a b ∧ Edge.mk a b ∉ s.reported

/-- A path that goes on to a module makes it grey. -/
lemma colour_enter (next : String → List String) (m n : String) (s : Search) :
    (s.enter next m).colour n = if n = m then .grey else s.colour n := by
  simp only [colour, enter, Table.get?_insert]
  split <;> rfl

/-- A path that goes back from a module makes it black. -/
lemma colour_leave (node n : String) (stack : List Frame) (s : Search) :
    (s.leave node stack).colour n = if n = node then .black else s.colour n := by
  simp only [colour, leave, Table.get?_insert]
  split <;> rfl

/-- Taking up a module changes no colour. -/
lemma colour_takeUp (node : String) (pending : List String) (stack : List Frame) (s : Search)
    (n : String) : (s.takeUp node pending stack).colour n = s.colour n := rfl

/-- A path is empty, or something is pending at its end, or nothing is. -/
lemma stack_cases (s : Search) : s.stack = [] ∨ (∃ node stack, s.stack = ⟨node, []⟩ :: stack) ∨
    ∃ node m pending stack, s.stack = ⟨node, m :: pending⟩ :: stack := by
  rcases hstack : s.stack with _ | ⟨⟨node, _ | ⟨m, pending⟩⟩, stack⟩
  · exact .inl rfl
  · exact .inr (.inl ⟨node, stack, rfl⟩)
  · exact .inr (.inr ⟨node, m, pending, stack, rfl⟩)

/-- A step from a path that has nothing pending at its end. -/
lemma step_of_nil (next : String → List String) (h : s.stack = ⟨node, []⟩ :: stack) :
    s.step next = s.leave node stack := by
  simp only [step, h]

/-- A step from a path that has a module pending at its end. -/
lemma step_of_cons (next : String → List String) (h : s.stack = ⟨node, m :: pending⟩ :: stack) :
    s.step next =
      match s.colour m with
      | .white => (s.takeUp node pending stack).enter next m
      | .grey => (s.takeUp node pending stack).report node m
      | .black => s.takeUp node pending stack := by
  simp only [step, h]
  rfl

/-- The reported edges after one more. -/
lemma reported_report (node m : String) (s : Search) :
    (s.report node m).reported = s.reported ++ [⟨node, m⟩] := by
  simp [reported, report]

end Search

/-! ## Followed edges -/

/-- What a search has done about the edges from a module of its path: those it has looked at are
reported or lead to something covered, and those that are pending are not reported. -/
def Frame.Followed (g : Graph) (es : List Edge) (covered : List String) (f : Frame) : Prop :=
  ∃ seen, g.dependencies f.node = seen ++ f.pending ∧
    (∀ n ∈ seen, n ∈ covered ∨ Edge.mk f.node n ∈ es) ∧
    ∀ n ∈ f.pending, Edge.mk f.node n ∉ es

/-- What a search has done about the edges from all modules of its path. For each of them, the
modules behind it on the path are covered as well, since they are finished before it. -/
def Followed (g : Graph) (es : List Edge) : (covered : List String) → List Frame → Prop
  | _, [] => True
  | covered, f :: stack =>
    f.Followed g es covered ∧ Followed g es (f.node :: covered) stack

/-- A module is followed as before when more is covered, and when edges from other modules are
reported. -/
lemma Frame.Followed.mono {f : Frame} (h : f.Followed g es covered)
    (hcovered : covered ⊆ covered') (hsub : es ⊆ es')
    (hother : ∀ n, Edge.mk f.node n ∈ es' → Edge.mk f.node n ∈ es) :
    f.Followed g es' covered' := by
  obtain ⟨seen, hseen, hdone, hpending⟩ := h
  refine ⟨seen, hseen, fun n hn => ?_, fun n hn he => hpending n hn (hother n he)⟩
  exact (hdone n hn).imp (fun h => hcovered h) fun h => hsub h

/-- A path is followed as before when more is covered, and when edges from other modules are
reported. -/
lemma Followed.mono (h : Followed g es covered stack) (hcovered : covered ⊆ covered')
    (hsub : es ⊆ es')
    (hother : ∀ f ∈ stack, ∀ n, Edge.mk f.node n ∈ es' → Edge.mk f.node n ∈ es) :
    Followed g es' covered' stack := by
  induction stack generalizing covered covered' with
  | nil => trivial
  | cons f stack ih =>
    exact ⟨h.1.mono hcovered hsub (hother f List.mem_cons_self),
      ih h.2 (List.cons_subset_cons _ hcovered) fun f' hf' =>
        hother f' (List.mem_cons_of_mem _ hf')⟩

/-- One more edge has been looked at, of which the end is covered or which is reported. -/
lemma Frame.Followed.next (h : Frame.Followed g es covered ⟨node, m :: pending⟩)
    (hcovered : covered ⊆ covered') (hsub : es ⊆ es')
    (hm : m ∈ covered' ∨ Edge.mk node m ∈ es')
    (hpending : ∀ n ∈ pending, Edge.mk node n ∈ es' → Edge.mk node n ∈ es) :
    Frame.Followed g es' covered' ⟨node, pending⟩ := by
  obtain ⟨seen, hseen, hdone, hfresh⟩ := h
  refine ⟨seen ++ [m], by simpa using hseen, fun n hn => ?_, fun n hn he => ?_⟩
  · rcases List.mem_append.1 hn with hn | hn
    · exact (hdone n hn).imp (fun h => hcovered h) fun h => hsub h
    · rwa [List.mem_singleton.1 hn]
  · exact hfresh n (List.mem_cons_of_mem _ hn) (hpending n hn he)

/-- What is pending at a module is needed by it. -/
lemma Frame.Followed.needs (h : Frame.Followed g es covered ⟨node, m :: pending⟩) :
    g.Needs node m := by
  obtain ⟨seen, hseen, -, -⟩ := h
  have hmem : m ∈ g.dependencies node := by
    rw [hseen]
    exact List.mem_append_right _ List.mem_cons_self
  exact mem_dependencies.1 hmem

/-- Nothing is pending twice at a module. -/
lemma Frame.Followed.notMem (h : Frame.Followed g es covered ⟨node, m :: pending⟩) :
    m ∉ pending := by
  obtain ⟨seen, hseen, -, -⟩ := h
  have hnodup := nodup_dependencies g node
  rw [hseen] at hnodup
  exact (List.nodup_cons.1 (List.nodup_append.1 hnodup).2.1).1

/-! ## The invariant of a search -/

namespace Search

/-- The parts of a search agree, and what it has reported is right, when the modules `done` are
finished. -/
structure Consistent (g : Graph) (done : List String) (s : Search) : Prop where
  /-- The path holds the modules on the stack. -/
  path_eq : s.path = (s.stack.map Frame.node).reverse
  /-- No module is on the path twice. -/
  nodup_path : s.path.Nodup
  /-- The path follows edges. -/
  chain : s.path.IsChain g.Needs
  /-- The modules on the path are grey. -/
  grey_iff : ∀ m, s.colour m = .grey ↔ m ∈ s.path
  /-- The finished modules are black. -/
  black_iff : ∀ m, s.colour m = .black ↔ m ∈ done
  /-- Edges that are not reported lead from finished modules to those finished earlier. -/
  settled : Settled (s.Silent g) done
  /-- No edge is reported twice. -/
  nodup_reported : s.reported.Nodup
  /-- Edges are reported only from modules that were visited. -/
  visited : ∀ e ∈ s.reported, s.colour e.source ≠ .white
  /-- What is reported is a cycle that begins with the edge. -/
  sound : ∀ c ∈ s.cycles, g.IsCycleFrom c.edge c.cycle

/-- What holds of a search at all times, when the modules `done` are finished. -/
structure Inv (g : Graph) (done : List String) (s : Search) : Prop extends
    Consistent g done s where
  /-- The edges from the modules of the path are looked at in their order. -/
  followed : Followed g s.reported done s.stack

/-- The last module of the path, with those before it. -/
lemma Consistent.path_eq_concat (h : Consistent g done s)
    (hstack : s.stack = ⟨node, pending⟩ :: stack) :
    s.path = (stack.map Frame.node).reverse ++ [node] := by
  rw [h.path_eq, hstack, List.map_cons, List.reverse_cons]

/-- The last module of the path is not before it on the path. -/
lemma Consistent.node_ne (h : Consistent g done s) (hstack : s.stack = ⟨node, pending⟩ :: stack) :
    ∀ f ∈ stack, f.node ≠ node := by
  intro f hf heq
  have hnodup := h.nodup_path
  rw [h.path_eq_concat hstack] at hnodup
  exact (List.nodup_append.1 hnodup).2.2 f.node (List.mem_reverse.2 (List.mem_map_of_mem hf)) node
    (List.mem_singleton_self _) heq

/-- The last module of the path is on the path. -/
lemma Consistent.node_mem (h : Consistent g done s) (hstack : s.stack = ⟨node, pending⟩ :: stack) :
    node ∈ s.path := by
  rw [h.path_eq_concat hstack]
  exact List.mem_append_right _ (List.mem_singleton_self _)

/-- A module that was visited is on the path or finished. -/
lemma Consistent.mem_of_ne_white (h : Consistent g done s) (hm : s.colour m ≠ .white) :
    m ∈ s.path ∨ m ∈ done := by
  cases hcolour : s.colour m with
  | white => exact absurd hcolour hm
  | grey => exact .inl ((h.grey_iff m).1 hcolour)
  | black => exact .inr ((h.black_iff m).1 hcolour)

/-- Taking up a module leaves the search consistent. -/
lemma Consistent.takeUp (h : Consistent g done s)
    (hstack : s.stack = ⟨node, m :: pending⟩ :: stack) :
    Consistent g done (s.takeUp node pending stack) := by
  refine ⟨?_, h.nodup_path, h.chain, h.grey_iff, h.black_iff, h.settled, h.nodup_reported,
    h.visited, h.sound⟩
  have hpath := h.path_eq
  rw [hstack] at hpath
  exact hpath

/-- The path may go on to a white module that its last module needs. -/
lemma Consistent.enter (h : Consistent g done s) (hm : s.colour m = .white)
    (hlast : ∀ a ∈ s.path.getLast?, g.Needs a m) :
    Consistent g done (s.enter g.dependencies m) := by
  have hmpath : m ∉ s.path := fun hmem =>
    Colour.noConfusion (hm.symm.trans ((h.grey_iff m).2 hmem))
  have hmdone : m ∉ done := fun hmem =>
    Colour.noConfusion (hm.symm.trans ((h.black_iff m).2 hmem))
  refine ⟨?_, ?_, ?_, fun n => ?_, fun n => ?_, h.settled, h.nodup_reported, fun e he => ?_,
    h.sound⟩
  · simp [Search.enter, h.path_eq]
  · exact List.nodup_append.2 ⟨h.nodup_path, List.nodup_singleton m, fun a ha b hb hab =>
      hmpath (List.mem_singleton.1 hb ▸ hab ▸ ha)⟩
  · refine List.IsChain.append h.chain (List.isChain_singleton m) fun a ha b hb => ?_
    obtain rfl : m = b := Option.some.inj hb
    exact hlast a ha
  · rw [colour_enter]
    by_cases hn : n = m
    · simp [hn, Search.enter]
    · rw [if_neg hn, h.grey_iff]
      simp [hn, Search.enter]
  · rw [colour_enter]
    by_cases hn : n = m
    · simpa [hn] using hmdone
    · rw [if_neg hn, h.black_iff]
  · rw [colour_enter]
    split
    · exact Colour.noConfusion
    · exact h.visited e he

/-- The part of a list from an element on. -/
lemma exists_drop_idxOf? {l : List String} (h : m ∈ l) :
    ∃ rest, l.drop ((l.idxOf? m).getD 0) = m :: rest := by
  induction l with
  | nil => exact absurd h List.not_mem_nil
  | cons a l ih =>
    rw [List.idxOf?_cons]
    by_cases ha : a = m
    · exact ⟨l, by simp [ha]⟩
    · obtain ⟨rest, hrest⟩ := ih ((List.mem_cons.1 h).resolve_left (Ne.symm ha))
      cases hidx : l.idxOf? m with
      | none => exact absurd (List.idxOf?_eq_none_iff.1 hidx) (by simpa [Ne.symm ha] using h)
      | some i =>
        rw [hidx] at hrest
        exact ⟨rest, by simpa [ha] using hrest⟩

/-- An edge from the end of the path back to the path closes a cycle that begins with it. -/
lemma Consistent.isCycleFrom (h : Consistent g done s) (hneeds : g.Needs node m)
    (hstack : s.stack = ⟨node, pending⟩ :: stack) (hm : m ∈ s.path) :
    g.IsCycleFrom ⟨node, m⟩ (node :: s.path.drop ((s.path.idxOf? m).getD 0)) := by
  obtain ⟨rest, hrest⟩ := exists_drop_idxOf? hm
  refine ⟨⟨rest, by rw [hrest]⟩, ?_, ?_⟩
  · have hlast : (s.path.drop ((s.path.idxOf? m).getD 0)).getLast? = s.path.getLast? := by
      rw [List.getLast?_drop, if_neg]
      intro hle
      rw [List.drop_eq_nil_of_le hle] at hrest
      exact List.cons_ne_nil _ _ hrest.symm
    rw [List.getLast?_cons, hlast, h.path_eq_concat hstack, List.getLast?_concat, Option.getD_some]
  · have hchain := h.chain.drop ((s.path.idxOf? m).getD 0)
    rw [hrest] at hchain ⊢
    exact .cons_cons hneeds hchain

/-- An edge from the end of the path back to the path may be reported, if it was not before. -/
lemma Consistent.report (h : Consistent g done s) (hneeds : g.Needs node m)
    (hstack : s.stack = ⟨node, pending⟩ :: stack) (hm : m ∈ s.path)
    (hnew : Edge.mk node m ∉ s.reported) : Consistent g done (s.report node m) := by
  refine ⟨h.path_eq, h.nodup_path, h.chain, h.grey_iff, h.black_iff, ?_, ?_, fun e he => ?_,
    fun c hc => ?_⟩
  · refine h.settled.mono fun a b hab => ⟨hab.1, fun he => hab.2 ?_⟩
    rw [reported_report]
    exact List.mem_append_left _ he
  · rw [reported_report]
    exact List.nodup_append.2 ⟨h.nodup_reported, List.nodup_singleton _, fun a ha b hb hab =>
      hnew (List.mem_singleton.1 hb ▸ hab ▸ ha)⟩
  · rw [reported_report] at he
    rcases List.mem_append.1 he with he | he
    · exact h.visited e he
    · have hgrey : s.colour node = .grey := (h.grey_iff node).2 (h.node_mem hstack)
      rw [List.mem_singleton.1 he]
      exact fun hwhite => Colour.noConfusion (hgrey.symm.trans hwhite)
  · rcases List.mem_append.1 hc with hc | hc
    · exact h.sound c hc
    · rw [List.mem_singleton.1 hc]
      exact h.isCycleFrom hneeds hstack hm

/-! ## One step -/

/-- **Going back**: the last module of the path is finished when nothing is pending there. -/
lemma Inv.leave (h : Inv g done s) (hstack : s.stack = ⟨node, []⟩ :: stack) :
    Inv g (node :: done) (s.leave node stack) := by
  have hfollowed := h.followed
  rw [hstack] at hfollowed
  obtain ⟨⟨seen, hseen, hdone, -⟩, hrest⟩ := hfollowed
  have hpath := h.path_eq_concat hstack
  have hdrop : (s.leave node stack).path = (stack.map Frame.node).reverse := by
    rw [Search.leave, hpath, List.dropLast_concat]
  refine ⟨⟨hdrop, h.nodup_path.sublist (List.dropLast_sublist _), h.chain.dropLast, fun m => ?_,
    fun m => ?_, ⟨fun n hn => ?_, h.settled⟩, h.nodup_reported, fun e he => ?_, h.sound⟩, hrest⟩
  · rw [colour_leave, hdrop]
    by_cases hm : m = node
    · simpa [hm] using h.node_ne hstack
    · rw [if_neg hm, h.grey_iff, hpath]
      simp [hm]
  · rw [colour_leave, List.mem_cons]
    by_cases hm : m = node
    · simp [hm]
    · rw [if_neg hm, h.black_iff]
      simp [hm]
  · -- every edge from the module has been looked at
    have hmem : n ∈ seen := by
      rw [List.append_nil] at hseen
      rw [← hseen]
      exact mem_dependencies.2 hn.1
    exact (hdone n hmem).resolve_right hn.2
  · rw [colour_leave]
    split
    · exact Colour.noConfusion
    · exact h.visited e he

/-- **Going on**: a white module that is pending at the end of the path comes onto the path. -/
lemma Inv.enter (h : Inv g done s) (hstack : s.stack = ⟨node, m :: pending⟩ :: stack)
    (hm : s.colour m = .white) :
    Inv g done ((s.takeUp node pending stack).enter g.dependencies m) := by
  have hfollowed := h.followed
  rw [hstack] at hfollowed
  obtain ⟨htop, hrest⟩ := hfollowed
  have hlast : ∀ a ∈ s.path.getLast?, g.Needs a m := by
    intro a ha
    rw [h.path_eq_concat hstack, List.getLast?_concat] at ha
    exact Option.some.inj ha ▸ htop.needs
  refine ⟨(h.takeUp hstack).enter hm hlast, ?_, ?_, ?_⟩
  · exact ⟨[], rfl, by simp, fun n _ he => h.visited _ he hm⟩
  · exact htop.next (List.subset_cons_self _ _) (List.Subset.refl _) (.inl List.mem_cons_self)
      fun _ _ he => he
  · exact hrest.mono (List.cons_subset_cons _ (List.subset_cons_self _ _)) (List.Subset.refl _)
      fun _ _ _ he => he

/-- **A report**: an edge from the end of the path back to the path is reported. -/
lemma Inv.report (h : Inv g done s) (hstack : s.stack = ⟨node, m :: pending⟩ :: stack)
    (hm : s.colour m = .grey) : Inv g done ((s.takeUp node pending stack).report node m) := by
  have hfollowed := h.followed
  rw [hstack] at hfollowed
  obtain ⟨htop, hrest⟩ := hfollowed
  have hnew : Edge.mk node m ∉ s.reported := by
    obtain ⟨_, _, _, hpending⟩ := htop
    exact hpending m List.mem_cons_self
  have hsub : s.reported ⊆ s.reported ++ [⟨node, m⟩] := List.subset_append_left _ _
  refine ⟨(h.takeUp hstack).report htop.needs rfl ((h.grey_iff m).1 hm) hnew, ?_⟩
  rw [reported_report]
  refine ⟨htop.next (List.Subset.refl _) hsub (.inr (by simp)) fun n hn he => ?_,
    hrest.mono (List.Subset.refl _) hsub fun f hf n he => ?_⟩
  · refine (List.mem_append.1 he).resolve_right fun he => htop.notMem ?_
    rwa [← (Edge.mk.inj (List.mem_singleton.1 he)).2]
  · exact (List.mem_append.1 he).resolve_right fun he =>
      h.node_ne hstack f hf (Edge.mk.inj (List.mem_singleton.1 he)).1

/-- **Passing over**: an edge from the end of the path to a finished module closes no cycle. -/
lemma Inv.pass (h : Inv g done s) (hstack : s.stack = ⟨node, m :: pending⟩ :: stack)
    (hm : s.colour m = .black) : Inv g done (s.takeUp node pending stack) := by
  have hfollowed := h.followed
  rw [hstack] at hfollowed
  exact ⟨h.takeUp hstack, hfollowed.1.next (List.Subset.refl _) (List.Subset.refl _)
    (.inl ((h.black_iff m).1 hm)) fun _ _ he => he, hfollowed.2⟩

/-- **One step** keeps the invariant. -/
lemma Inv.step (h : Inv g done s) : ∃ done', Inv g done' (s.step g.dependencies) := by
  obtain hstack | ⟨node, stack, hstack⟩ | ⟨node, m, pending, stack, hstack⟩ := s.stack_cases
  · exact ⟨done, by simpa [Search.step, hstack] using h⟩
  · exact ⟨node :: done, step_of_nil g.dependencies hstack ▸ h.leave hstack⟩
  · rw [step_of_cons g.dependencies hstack]
    cases hm : s.colour m with
    | white => exact ⟨done, h.enter hstack hm⟩
    | grey => exact ⟨done, h.report hstack hm⟩
    | black => exact ⟨done, h.pass hstack hm⟩

/-! ## The end of a search -/

/-- The number of steps to go back along a path and look at what is pending there. -/
def pendingSteps : List Frame → ℕ
  | [] => 0
  | f :: stack => f.pending.length + 1 + pendingSteps stack

/-- The number of steps that a search has still to make at most: it goes back from each module of
its path and looks at what is pending there, and makes all steps for the white modules. -/
def work (g : Graph) (s : Search) : ℕ :=
  pendingSteps s.stack + g.searchSteps (g.modules.filter fun m => s.colour m = .white)

/-- The steps for a module are left when it is taken from a list. -/
lemma searchSteps_filter_ne {ms : List String} (hnodup : ms.Nodup) (hm : m ∈ ms) :
    g.searchSteps ms = g.searchSteps (ms.filter (· != m)) + ((g.dependencies m).length + 2) := by
  induction ms with
  | nil => exact absurd hm List.not_mem_nil
  | cons n ms ih =>
    obtain ⟨hn, hms⟩ := List.nodup_cons.1 hnodup
    rcases List.mem_cons.1 hm with rfl | hm
    · have hothers : ms.filter (· != m) = ms :=
        List.filter_eq_self.2 fun k hk => bne_iff_ne.2 fun heq => hn (heq ▸ hk)
      rw [List.filter_cons_of_neg (by simp), hothers, searchSteps]
      omega
    · have hne : n ≠ m := fun heq => hn (heq ▸ hm)
      rw [List.filter_cons_of_pos (by simpa using hne), searchSteps, searchSteps, ih hms hm]
      omega

/-- Some of the modules of a list need no more steps than all of them. -/
lemma searchSteps_filter_le (p : String → Bool) (ms : List String) :
    g.searchSteps (ms.filter p) ≤ g.searchSteps ms := by
  induction ms with
  | nil => exact Nat.le_refl _
  | cons m ms ih =>
    rw [List.filter_cons]
    split
    · rw [searchSteps, searchSteps]
      omega
    · rw [searchSteps]
      omega

/-- The path has gone on to a white module: one of the steps for that module has been made. -/
lemma work_enter (hm : m ∈ g.modules) (hwhite : s.colour m = .white) :
    work g (s.enter g.dependencies m) + 1 = work g s := by
  have hfilter : (g.modules.filter fun n => (s.enter g.dependencies m).colour n = .white) =
      (g.modules.filter fun n => s.colour n = .white).filter (· != m) := by
    rw [List.filter_filter]
    refine List.filter_congr fun n _ => ?_
    rw [colour_enter]
    by_cases hn : n = m <;> simp [hn]
  have hnodup := (nodup_modules g).filter fun n => s.colour n = .white
  have hsteps := searchSteps_filter_ne (g := g) hnodup
    (List.mem_filter.2 ⟨hm, decide_eq_true hwhite⟩)
  rw [work, work, hfilter, hsteps]
  simp only [enter, pendingSteps]
  omega

/-- The path has gone back: that was one of the steps to make. -/
lemma Inv.work_leave (h : Inv g done s) (hstack : s.stack = ⟨node, []⟩ :: stack) :
    work g (s.leave node stack) + 1 = work g s := by
  have hgrey : s.colour node = .grey := (h.grey_iff node).2 (h.node_mem hstack)
  have hfilter : (g.modules.filter fun n => (s.leave node stack).colour n = .white) =
      g.modules.filter fun n => s.colour n = .white := by
    refine List.filter_congr fun n _ => ?_
    rw [colour_leave]
    by_cases hn : n = node <;> simp [hn, hgrey]
  have hleft : (s.leave node stack).stack = stack := rfl
  rw [work, work, hfilter, hstack, hleft, pendingSteps, List.length_nil]
  omega

/-- A module has been taken up: that was one of the steps to make. -/
lemma work_takeUp (hstack : s.stack = ⟨node, m :: pending⟩ :: stack) :
    work g (s.takeUp node pending stack) + 1 = work g s := by
  have hfilter : (g.modules.filter fun n => (s.takeUp node pending stack).colour n = .white) =
      g.modules.filter fun n => s.colour n = .white :=
    List.filter_congr fun n _ => by rw [colour_takeUp]
  have hleft : (s.takeUp node pending stack).stack = ⟨node, pending⟩ :: stack := rfl
  rw [work, work, hfilter, hstack, hleft]
  simp only [pendingSteps, List.length_cons]
  omega

/-- Every step leaves fewer steps to make. -/
lemma Inv.work_step_lt (h : Inv g done s) (hstack : s.stack ≠ []) :
    work g (s.step g.dependencies) < work g s := by
  obtain hnil | ⟨node, stack, hnil⟩ | ⟨node, m, pending, stack, hcons⟩ := s.stack_cases
  · exact absurd hnil hstack
  · rw [step_of_nil _ hnil]
    exact Nat.lt_of_succ_le (Nat.le_of_eq (h.work_leave hnil))
  · have htake : work g (s.takeUp node pending stack) < work g s :=
      Nat.lt_of_succ_le (Nat.le_of_eq (work_takeUp hcons))
    have hfollowed := h.followed
    rw [hcons] at hfollowed
    rw [step_of_cons _ hcons]
    cases hm : s.colour m with
    | white =>
      have henter := work_enter (s := s.takeUp node pending stack) hfollowed.1.needs.target_mem hm
      exact (Nat.lt_of_succ_le (Nat.le_of_eq henter)).trans htake
    | grey => exact htake
    | black => exact htake

/-- A module that was visited stays visited. -/
lemma step_ne_white (hm : s.colour m ≠ .white) : (s.step g.dependencies).colour m ≠ .white := by
  obtain hnil | ⟨node, stack, hnil⟩ | ⟨node, n, pending, stack, hcons⟩ := s.stack_cases
  · simpa [Search.step, hnil] using hm
  · rw [step_of_nil _ hnil, colour_leave]
    split
    · exact Colour.noConfusion
    · exact hm
  · rw [step_of_cons _ hcons]
    cases hn : s.colour n with
    | white =>
      simp only [colour_enter]
      split
      · exact Colour.noConfusion
      · exact hm
    | grey => exact hm
    | black => exact hm

/-- **A search comes to its end** within as many steps as it has to make: it keeps the invariant,
goes back to where its path began, and forgets no module. -/
lemma Inv.run (h : Inv g done s) {count : ℕ} (hcount : work g s ≤ count) :
    ∃ done', Inv g done' (Search.run g.dependencies count s) ∧
      (Search.run g.dependencies count s).stack = [] ∧
      ∀ m, s.colour m ≠ .white → (Search.run g.dependencies count s).colour m ≠ .white := by
  induction count generalizing s done with
  | zero =>
    refine ⟨done, h, ?_, fun _ hm => hm⟩
    -- a path that is not empty has a step to make
    by_contra hstack
    exact Nat.not_lt_zero _ ((h.work_step_lt hstack).trans_le hcount)
  | succ count ih =>
    simp only [Search.run, List.isEmpty_iff]
    split
    · rename_i hstack
      exact ⟨done, h, hstack, fun _ hm => hm⟩
    · rename_i hstack
      obtain ⟨done', h'⟩ := h.step
      obtain ⟨done'', hinv, hend, hvisited⟩ :=
        ih h' (Nat.le_of_lt_succ ((h.work_step_lt hstack).trans_le hcount))
      exact ⟨done'', hinv, hend, fun m hm => hvisited m (step_ne_white hm)⟩

/-! ## The whole search -/

/-- Between two parts of the whole search the path is empty. -/
structure Rests (g : Graph) (done : List String) (s : Search) : Prop extends
    Consistent g done s where
  /-- The path is empty. -/
  stack_eq : s.stack = []

/-- An empty stack goes with an empty path. -/
lemma Rests.path_eq_nil (h : Rests g done s) : s.path = [] := by
  rw [h.path_eq, h.stack_eq]
  rfl

/-- A module that was visited is finished when the path is empty. -/
lemma Rests.mem_done (h : Rests g done s) (hm : s.colour m ≠ .white) : m ∈ done := by
  refine (h.mem_of_ne_white hm).resolve_left fun hpath => ?_
  rw [h.path_eq_nil] at hpath
  exact List.not_mem_nil hpath

/-- The path begins with one module. -/
lemma Rests.enter (h : Rests g done s) (hm : s.colour m = .white) :
    Inv g done (s.enter g.dependencies m) := by
  refine ⟨h.toConsistent.enter hm ?_, ⟨[], rfl, by simp, fun n _ he => h.visited _ he hm⟩, ?_⟩
  · rw [h.path_eq_nil]
    exact fun a ha => absurd ha (Option.not_mem_none a)
  · rw [h.stack_eq]
    trivial

/-- **After the whole search has begun at a module**, that module has been visited, and no other one
has been forgotten. -/
lemma Rests.start (h : Rests g done s) (hm : m ∈ g.modules) :
    ∃ done', Rests g done' (Search.start g s m) ∧ (Search.start g s m).colour m ≠ .white ∧
      ∀ n, s.colour n ≠ .white → (Search.start g s m).colour n ≠ .white := by
  unfold Search.start
  split
  · rename_i hwhite
    have hsame : ({ s with stack := [], path := [] } : Search) = s := by
      rw [← h.stack_eq, ← h.path_eq_nil]
    have hwork : work g (s.enter g.dependencies m) ≤ g.searchSteps g.modules := by
      have hstart : work g s ≤ g.searchSteps g.modules := by
        rw [work, h.stack_eq, pendingSteps, Nat.zero_add]
        exact searchSteps_filter_le _ _
      have henter := work_enter hm hwhite
      omega
    obtain ⟨done', hinv, hend, hvisited⟩ := (h.enter hwhite).run hwork
    have hentered : ∀ n, n = m ∨ s.colour n ≠ .white →
        (s.enter g.dependencies m).colour n ≠ .white := by
      intro n hn
      rw [colour_enter]
      split
      · exact Colour.noConfusion
      · rename_i hne
        exact hn.resolve_left hne
    rw [hsame]
    exact ⟨done', ⟨hinv.toConsistent, hend⟩, hvisited m (hentered m (.inl rfl)),
      fun n hn => hvisited n (hentered n (.inr hn))⟩
  · rename_i hvisited
    exact ⟨done, h, hvisited, fun _ hn => hn⟩

/-- The whole search visits every module at which it begins, and comes to rest. -/
lemma Rests.foldl_start (h : Rests g done s) {ms : List String} (hms : ms ⊆ g.modules) :
    ∃ done', Rests g done' (ms.foldl (Search.start g) s) ∧
      ∀ m, m ∈ ms ∨ s.colour m ≠ .white → (ms.foldl (Search.start g) s).colour m ≠ .white := by
  induction ms generalizing s done with
  | nil => exact ⟨done, h, fun m hm => hm.resolve_left List.not_mem_nil⟩
  | cons n ms ih =>
    obtain ⟨hn, hms⟩ := List.cons_subset.1 hms
    obtain ⟨done₁, h₁, hnew, hold⟩ := h.start hn
    obtain ⟨done₂, h₂, hvisited⟩ := ih h₁ hms
    refine ⟨done₂, h₂, fun m hm => hvisited m ?_⟩
    rcases hm with hm | hm
    · rcases List.mem_cons.1 hm with rfl | hm
      · exact .inr hnew
      · exact .inl hm
    · exact .inr (hold m hm)

/-- A search that has not begun is at rest. -/
lemma rests_empty (g : Graph) : Rests g [] {} := by
  refine ⟨⟨rfl, List.nodup_nil, .nil, fun m => ?_, fun m => ?_, trivial, List.nodup_nil, ?_, ?_⟩,
    rfl⟩
  · simp [colour]
  · simp [colour]
  · simp [reported]
  · simp

end Search

/-- **The whole search** comes to rest with every module finished. -/
lemma exists_rests (g : Graph) : ∃ done s, Search.Rests g done s ∧ s.cycles = g.backEdgeCycles ∧
    ∀ m ∈ g.modules, m ∈ done := by
  obtain ⟨done, h, hvisited⟩ := (Search.rests_empty g).foldl_start (List.Subset.refl g.modules)
  exact ⟨done, _, h, rfl, fun m hm => h.mem_done (hvisited m (.inl hm))⟩

/-- Every reported edge is reported with a cycle that begins with it. -/
lemma backEdgeCycles_sound (g : Graph) : ∀ c ∈ g.backEdgeCycles, g.IsCycleFrom c.edge c.cycle := by
  obtain ⟨_, s, h, hcycles, -⟩ := exists_rests g
  exact hcycles ▸ h.sound

/-- No edge is reported twice. -/
lemma nodup_edge_backEdgeCycles (g : Graph) :
    (g.backEdgeCycles.map UnbrokenCycle.edge).Nodup := by
  obtain ⟨_, s, h, hcycles, -⟩ := exists_rests g
  exact hcycles ▸ h.nodup_reported

/-- The edges that the whole search does not report form no cycle.

**Proof sketch.** All modules are finished in the end. An edge that is not reported leads from each
of them to one that was finished earlier, so that no walk along such edges comes back. -/
lemma not_transGen_silent (g : Graph) (m : String) :
    ¬ TransGen (fun a b => g.Needs a b ∧ Edge.mk a b ∉ g.backEdgeCycles.map UnbrokenCycle.edge)
      m m := by
  obtain ⟨done, s, h, hcycles, hall⟩ := exists_rests g
  intro hcycle
  obtain ⟨x, hmx, -⟩ := TransGen.head'_iff.1 hcycle
  rw [← hcycles] at hcycle
  exact h.settled.acyclic (hall m hmx.1.source_mem) hcycle

/-- **Without reports there are no cycles.** -/
theorem acyclic_of_backEdgeCycles (h : g.backEdgeCycles = []) : g.Acyclic := by
  intro m hcycle
  refine not_transGen_silent g m (TransGen.mono (fun a b hab => ⟨hab, ?_⟩) _ _ hcycle)
  rw [h]
  exact List.not_mem_nil

end BindingRules.Graph
