import BindingRules.Proofs.CycleCoverage
import BindingRules.Proofs.DependencyGraph
import Mathlib.Data.List.Forall2

set_option relaxedAutoImplicit false
set_option autoImplicit false

/-!
# Placements of guards

Guards are added one by one, in any order, and may come back to an edge that has some already. What
is decided is decided for one edge at a time, from all the guards on it: the edges come in
increasing order, and the guards on an edge in the order in which they were added. So the order of
the additions is seen in nothing but the order in which a placement lists its anchors.

## Main definitions

* `Guards.added` — guards that are added one by one.
* `Guards.groups`, `Guards.putInGroup` — the guards by edges, and how one more goes to its group.
* `Placement.Decides` — what is decided for an edge, and why.
* `Placement.Warns` — the warning about a redundant guard.

## Main results

* `Guards.groups_added` — the groups that additions one by one lead to.
* `Location.strictTotal_not_le` — of several locations one is the greatest.
* `Graph.placements_exact` — what is decided for guarded edges, whatever the order of additions.
-/

namespace BindingRules

variable {guards : Guards} {gs gs' : List Guard} {guard : Guard} {e : Edge}
  {kind : GuardKind}

/-! ## Locations -/

namespace Location

variable {a b c : Location}

/-- A location stands behind another one: its source comes later, or it is the same and the line
comes later. -/
lemma not_le_iff : (!a.le b) = true ↔
    b.source < a.source ∨ b.source = a.source ∧ b.line < a.line := by
  unfold le
  rw [Bool.not_eq_true', Bool.or_eq_false_iff, Bool.and_eq_false_iff, decide_eq_false_iff_not,
    decide_eq_false_iff_not, beq_eq_false_iff_ne]
  constructor
  · rintro ⟨hsource, hline⟩
    by_cases hba : b.source < a.source
    · exact .inl hba
    · have heq : a.source = b.source :=
        String.le_antisymm (String.not_lt.1 hba) (String.not_lt.1 hsource)
      exact .inr ⟨heq.symm, Nat.lt_of_not_le (hline.resolve_left (not_not.2 heq))⟩
  · rintro (hba | ⟨heq, hline⟩)
    · refine ⟨fun hab => String.lt_irrefl _ (String.lt_trans hab hba), .inl fun heq => ?_⟩
      exact String.lt_irrefl _ (heq ▸ hba)
    · exact ⟨fun hab => String.lt_irrefl _ (heq ▸ hab), .inr (Nat.not_le_of_lt hline)⟩

/-- Of two different locations one stands behind the other, and of several one is the greatest. -/
lemma strictTotal_not_le : StrictTotal fun a b : Location => !a.le b where
  irrefl a := by simp [le]
  trans {a b c} hab hbc := by
    rw [not_le_iff] at *
    rcases hab with hab | ⟨hs, hab⟩ <;> rcases hbc with hbc | ⟨ht, hbc⟩
    · exact .inl (String.lt_trans hbc hab)
    · exact .inl (ht ▸ hab)
    · exact .inl (hs ▸ hbc)
    · exact .inr ⟨ht.trans hs, Nat.lt_trans hbc hab⟩
  eq_of_not_lt {a b} hab hba := by
    have hab : ¬ (b.source < a.source ∨ b.source = a.source ∧ b.line < a.line) := by
      rw [← not_le_iff, hab]
      exact Bool.false_ne_true
    have hba : ¬ (a.source < b.source ∨ a.source = b.source ∧ a.line < b.line) := by
      rw [← not_le_iff, hba]
      exact Bool.false_ne_true
    have hsource : a.source = b.source :=
      String.le_antisymm (String.not_lt.1 (not_or.1 hab).1) (String.not_lt.1 (not_or.1 hba).1)
    have hline : a.line = b.line := by
      have hle : ¬ b.line < a.line := fun h => hab (.inr ⟨hsource.symm, h⟩)
      have hge : ¬ a.line < b.line := fun h => hba (.inr ⟨hsource, h⟩)
      omega
    obtain ⟨source, line⟩ := a
    obtain ⟨source', line'⟩ := b
    obtain rfl : source = source' := hsource
    obtain rfl : line = line' := hline
    rfl

end Location

/-! ## Guards that are added one by one -/

namespace Guards

/-- Guards that are added one by one. -/
def added (gs : List Guard) : Guards := gs.foldl add {}

/-- Additions one by one leave what was there, with the added guards behind it. -/
lemma list_foldl_add (guards : Guards) (gs : List Guard) :
    (gs.foldl add guards).list = guards.list ++ gs := by
  induction gs generalizing guards with
  | nil => simp
  | cons guard gs ih => rw [List.foldl_cons, ih, add, List.append_assoc, List.singleton_append]

/-- Guards that are added one by one come in the order of the additions. -/
@[simp]
lemma list_added (gs : List Guard) : (added gs).list = gs := list_foldl_add {} gs

/-- The guards on an edge are those of the added ones that are on it, in their order. -/
lemma onEdge_added (gs : List Guard) (e : Edge) :
    (added gs).onEdge e = gs.filter (·.edge == e) := by
  rw [onEdge, list_added]

/-- An edge is guarded if some of the guards is on it. -/
lemma mem_edges_added : e ∈ (added gs).edges ↔ ∃ guard ∈ gs, guard.edge = e := by
  rw [mem_edges, list_added]

/-- The guarded edges come in increasing order. -/
lemma increasing_edges (guards : Guards) : Increasing Edge.lt guards.edges :=
  Sorted.increasing_ofList Edge.strictTotal_lt _

/-! ## Groups -/

/-- The guards on each guarded edge, in the order of the edges. -/
def groups (guards : Guards) : List (Edge × List Guard) :=
  guards.edges.map fun e => (e, guards.onEdge e)

/-- Lets a guard go to the end of the group of its edge. If there is none yet, a new one goes
between those of lesser and those of greater edges. -/
def putInGroup (guard : Guard) : List (Edge × List Guard) → List (Edge × List Guard)
  | [] => [(guard.edge, [guard])]
  | (e, group) :: rest =>
    if guard.edge.lt e then (guard.edge, [guard]) :: (e, group) :: rest
    else if e.lt guard.edge then (e, group) :: putInGroup guard rest
    else (e, group ++ [guard]) :: rest

/-- One more guard is the last one on its edge. -/
lemma onEdge_add_self (guards : Guards) (guard : Guard) :
    (guards.add guard).onEdge guard.edge = guards.onEdge guard.edge ++ [guard] := by
  simp [onEdge, add]

/-- One more guard leaves the other edges alone. -/
lemma onEdge_add_of_ne (h : guard.edge ≠ e) : (guards.add guard).onEdge e = guards.onEdge e := by
  simp [onEdge, add, h]

/-- Edges that are not the one of the guard keep their groups. -/
lemma map_onEdge_add {es : List Edge} (h : guard.edge ∉ es) :
    (es.map fun e => (e, (guards.add guard).onEdge e)) = es.map fun e => (e, guards.onEdge e) := by
  refine List.map_congr_left fun e he => ?_
  rw [onEdge_add_of_ne]
  rintro rfl
  exact h he

/-- What one more guard changes in the groups of some edges, among which its own one is if it has
guards already. -/
lemma map_insert_onEdge {es : List Edge} (hes : Increasing Edge.lt es)
    (hmem : guards.onEdge guard.edge ≠ [] → guard.edge ∈ es) :
    ((Sorted.insert Edge.lt guard.edge es).map fun e => (e, (guards.add guard).onEdge e)) =
      putInGroup guard (es.map fun e => (e, guards.onEdge e)) := by
  have hnew : ∀ {es : List Edge}, (guards.onEdge guard.edge ≠ [] → guard.edge ∈ es) →
      guard.edge ∉ es → (guards.add guard).onEdge guard.edge = [guard] := by
    intro es hmem hnot
    rw [onEdge_add_self, not_not.1 (mt hmem hnot), List.nil_append]
  induction es with
  | nil =>
    rw [Sorted.insert, List.map_singleton, hnew hmem List.not_mem_nil]
    rfl
  | cons e es ih =>
    obtain ⟨he, htail⟩ := List.pairwise_cons.1 hes
    rw [Sorted.insert, List.map_cons, putInGroup]
    split
    · next hlt =>
      -- the edge comes before all edges with guards
      have hnot : guard.edge ∉ e :: es := by
        intro hin
        rcases List.mem_cons.1 hin with heq | hin
        · rw [heq, Edge.strictTotal_lt.irrefl] at hlt
          cases hlt
        · have hback := Edge.strictTotal_lt.asymm hlt
          rw [he _ hin] at hback
          cases hback
      rw [List.map_cons, hnew hmem hnot, map_onEdge_add hnot, List.map_cons]
    · next hlt =>
      split
      · next hgt =>
        have hne : guard.edge ≠ e := by
          intro heq
          rw [heq, Edge.strictTotal_lt.irrefl] at hgt
          cases hgt
        have hmem' : guards.onEdge guard.edge ≠ [] → guard.edge ∈ es := fun h =>
          (List.mem_cons.1 (hmem h)).resolve_left hne
        rw [List.map_cons, ih htail hmem', onEdge_add_of_ne hne]
      · next hgt =>
        have heq : guard.edge = e := Edge.strictTotal_lt.eq_of_not_lt
          (Bool.eq_false_iff.2 hlt) (Bool.eq_false_iff.2 hgt)
        subst heq
        have hnot : guard.edge ∉ es := fun hin => by
          have := he _ hin
          rw [Edge.strictTotal_lt.irrefl] at this
          cases this
        rw [List.map_cons, map_onEdge_add hnot, onEdge_add_self]

/-- **One step**: a guard that is added goes to the end of the group of its edge. -/
lemma groups_add (guards : Guards) (guard : Guard) :
    (guards.add guard).groups = putInGroup guard guards.groups := by
  have hedges : (guards.add guard).edges = Sorted.insert Edge.lt guard.edge guards.edges := by
    simp [edges, add, Sorted.ofList]
  rw [groups, hedges, groups]
  refine map_insert_onEdge (increasing_edges guards) fun hne => ?_
  obtain ⟨other, hother⟩ := List.exists_mem_of_ne_nil _ hne
  obtain ⟨hmem, hedge⟩ := List.mem_filter.1 hother
  exact mem_edges.2 ⟨other, hmem, by simpa using hedge⟩

/-- **A whole run**: guards that are added one by one go to the groups of their edges one by one. -/
lemma groups_added (gs : List Guard) :
    (added gs).groups = gs.foldl (fun groups guard => putInGroup guard groups) [] := by
  have hrun : ∀ guards : Guards, (gs.foldl add guards).groups =
      gs.foldl (fun groups guard => putInGroup guard groups) guards.groups := by
    induction gs with
    | nil => exact fun _ => rfl
    | cons guard gs ih =>
      intro guards
      rw [List.foldl_cons, List.foldl_cons, ih, groups_add]
  exact hrun {}

end Guards

/-! ## What is decided for an edge -/

/-- What is decided for an edge, from the guards on it, and whether the edge lies on a cycle. -/
structure Placement.Decides (g : Graph) (gs : List Guard) (p : Placement) : Prop where
  /-- A declaration takes the place of the reference if there is an import guard. -/
  site : p.site = .declaration ↔ ∃ guard ∈ gs, guard.edge = p.edge ∧ guard.kind = .importGuard
  /-- A guard is redundant if there are guards of both sorts. -/
  redundant : p.redundant = true ↔ ∀ kind, ∃ guard ∈ gs, guard.edge = p.edge ∧ guard.kind = kind
  /-- The edge is one of the graph, and its target reaches its source. -/
  onCycle : p.onCycle = true ↔ p.edge ∈ g.edges ∧ g.Reaches p.edge.target p.edge.source
  /-- The anchors are those of the guards on the edge, in their order. -/
  anchors : p.anchors = (gs.filter (·.edge == p.edge)).map Guard.anchor

/-- The warning about a redundant guard: it is located at the last one of the guards on the edge. -/
structure Placement.Warns (gs : List Guard) (p : Placement) (d : Diagnostic) : Prop where
  /-- It is a warning. -/
  severity : d.severity = .warning
  /-- It is about a redundant guard. -/
  kind : d.kind = .redundantGuard
  /-- It names the edge. -/
  message : d.message = p.edge.source ++ " -> " ++ p.edge.target ++
    " has both an import guard and a call guard; the import guard is used"
  /-- It stands at the greatest of the locations of the guards. -/
  location : ∃ guard ∈ gs, guard.edge = p.edge ∧ d.location = some guard.location ∧
    ∀ other ∈ gs, other.edge = p.edge → other.location.le guard.location = true

/-- An edge has a guard of a sort if one of the guards on it is of that sort. -/
lemma Guards.hasKind_added : (added gs).hasKind e kind = true ↔
    ∃ guard ∈ gs, guard.edge = e ∧ guard.kind = kind := by
  simp [hasKind, onEdge]

/-- An edge has guards of both sorts if for each sort one of the added guards is on it. -/
lemma Guards.isRedundant_added : (added gs).isRedundant e = true ↔
    ∀ kind, ∃ guard ∈ gs, guard.edge = e ∧ guard.kind = kind := by
  rw [isRedundant, Bool.and_eq_true, hasKind_added, hasKind_added]
  constructor
  · rintro ⟨himport, hcall⟩ kind
    cases kind with
    | importGuard => exact himport
    | callGuard => exact hcall
  · exact fun h => ⟨h .importGuard, h .callGuard⟩

/-- A declaration takes the place of a reference if its edge has an import guard. -/
lemma Graph.site_placement_iff {g : Graph} {components : List (List String)} :
    (g.placement guards components e).site = .declaration ↔
      guards.hasKind e .importGuard = true := by
  simp only [placement]
  split <;> simp_all

/-- **What is decided for an edge**, from the guards that were added. -/
lemma Graph.decides_placement (g : Graph) (gs : List Guard) (e : Edge) :
    (g.placement (Guards.added gs) g.components e).Decides g gs where
  site := site_placement_iff.trans Guards.hasKind_added
  redundant := Guards.isRedundant_added
  onCycle := onCycle_iff.trans liesOnCycle_iff
  anchors := congrArg (List.map Guard.anchor) (Guards.onEdge_added gs e)

/-- The warning about an edge that has guards stands at the last one of these. -/
lemma Graph.warns_redundancy (g : Graph) (he : e ∈ (Guards.added gs).edges) :
    (g.placement (Guards.added gs) g.components e).Warns gs ((Guards.added gs).redundancy e) where
  severity := rfl
  kind := rfl
  message := rfl
  location := by
    obtain ⟨guard, hguard, hedge⟩ := Guards.mem_edges_added.1 he
    have hmem : ∀ {l : Location}, l ∈ ((Guards.added gs).onEdge e).map Guard.location ↔
        ∃ guard ∈ gs, guard.edge = e ∧ guard.location = l := by
      intro l
      simp [Guards.onEdge_added, and_assoc]
    cases hlast : (Guards.added gs).lastLocation? e with
    | none =>
      have hnil := leastBy?_eq_none.1 hlast
      exact absurd (hnil ▸ hmem.2 ⟨guard, hguard, hedge, rfl⟩) List.not_mem_nil
    | some l =>
      obtain ⟨hl, hleast⟩ := (leastBy?_eq_some_iff Location.strictTotal_not_le).1 hlast
      obtain ⟨last, hin, hon, rfl⟩ := hmem.1 hl
      refine ⟨last, hin, hon, hlast, fun other hother hedge => ?_⟩
      simpa using hleast _ (hmem.2 ⟨other, hother, hedge, rfl⟩)

/-! ## Other orders of the additions -/

namespace Guards

/-- The guarded edges do not depend on the order of the additions. -/
lemma edges_added_congr (h : gs.Perm gs') : (added gs).edges = (added gs').edges := by
  refine (increasing_edges _).eq_of_mem_iff Edge.strictTotal_lt (increasing_edges _) fun e => ?_
  simp only [mem_edges_added, h.mem_iff]

/-- Additions in another order leave the same guards on an edge, perhaps in another order. -/
lemma onEdge_added_perm (h : gs.Perm gs') (e : Edge) :
    ((added gs).onEdge e).Perm ((added gs').onEdge e) := by
  rw [onEdge_added, onEdge_added]
  exact h.filter _

/-- Which sorts of guards an edge has does not depend on the order of the additions. -/
lemma hasKind_added_congr (h : gs.Perm gs') (e : Edge) (kind : GuardKind) :
    (added gs).hasKind e kind = (added gs').hasKind e kind := by
  rw [Bool.eq_iff_iff, hasKind_added, hasKind_added]
  simp only [h.mem_iff]

/-- Which edges have guards of both sorts does not depend on the order of the additions. -/
lemma isRedundant_added_congr (h : gs.Perm gs') :
    (added gs).isRedundant = (added gs').isRedundant := by
  funext e
  rw [isRedundant, isRedundant, hasKind_added_congr h, hasKind_added_congr h]

/-- The greatest location is the same in whatever order the guards come. -/
lemma lastLocation?_added_congr (h : gs.Perm gs') (e : Edge) :
    (added gs).lastLocation? e = (added gs').lastLocation? e := by
  have hmem := fun l => ((onEdge_added_perm h e).map Guard.location).mem_iff (a := l)
  ext l
  simp only [lastLocation?, leastBy?_eq_some_iff Location.strictTotal_not_le, hmem]

/-- Which edges are guarded does not depend on the order of the additions. -/
lemma isGuarded_added_congr (h : gs.Perm gs') : (added gs).isGuarded = (added gs').isGuarded := by
  funext e
  rw [Bool.eq_iff_iff, isGuarded, isGuarded, List.any_eq_true, List.any_eq_true, list_added,
    list_added]
  simp only [h.mem_iff]

/-- **The warnings** do not depend on the order of the additions. -/
lemma redundancies_added_congr (h : gs.Perm gs') :
    (added gs).redundancies = (added gs').redundancies := by
  have hredundancy : (added gs).redundancy = (added gs').redundancy := by
    funext e
    rw [redundancy, redundancy, lastLocation?_added_congr h]
  rw [redundancies, redundancies, edges_added_congr h, isRedundant_added_congr h, hredundancy]

end Guards

/-- Two placements are the same but for the order of their anchors. -/
def Placement.SameButOrder (p p' : Placement) : Prop :=
  p' = { p with anchors := p'.anchors } ∧ p.anchors.Perm p'.anchors

namespace Graph

/-- **Placements of guards.** Whatever the graph and the guards, however they are mixed, there is
one placement for each edge with guards, in increasing order of the edges. It is decided from the
guards on the edge, and by whether the edge lies on a cycle. There is one warning for each redundant
placement, in their order, located at the last one of the guards on the edge. If the guards are
added in another order, the complaints and the warnings are the same, and so are the placements but
for the order of their anchors. -/
theorem placements_exact (g : Graph) (gs : List Guard) :
    Increasing Edge.lt ((g.placements (Guards.added gs)).map Placement.edge) ∧
    (∀ e, e ∈ (g.placements (Guards.added gs)).map Placement.edge ↔
      ∃ guard ∈ gs, guard.edge = e) ∧
    (∀ p ∈ g.placements (Guards.added gs), p.Decides g gs) ∧
    List.Forall₂ (Placement.Warns gs)
      ((g.placements (Guards.added gs)).filter (·.redundant)) (Guards.added gs).redundancies ∧
    ∀ gs', gs.Perm gs' →
      (∀ coverage, g.unbrokenCycles (Guards.added gs) coverage =
        g.unbrokenCycles (Guards.added gs') coverage) ∧
      (Guards.added gs).redundancies = (Guards.added gs').redundancies ∧
      List.Forall₂ Placement.SameButOrder (g.placements (Guards.added gs))
        (g.placements (Guards.added gs')) := by
  have hedges : (g.placements (Guards.added gs)).map Placement.edge = (Guards.added gs).edges := by
    simp [placements, placement, Function.comp_def]
  refine ⟨?_, fun e => ?_, fun p hp => ?_, ?_, fun gs' hperm => ⟨fun coverage => ?_, ?_, ?_⟩⟩
  · rw [hedges]
    exact Guards.increasing_edges _
  · rw [hedges]
    exact Guards.mem_edges_added
  · obtain ⟨e, -, rfl⟩ := List.mem_map.1 hp
    exact decides_placement g gs e
  · rw [placements, List.filter_map, Guards.redundancies, List.forall₂_map_left_iff,
      List.forall₂_map_right_iff]
    exact List.forall₂_same.2 fun e he => warns_redundancy g (List.mem_filter.1 he).1
  · exact unbrokenCycles_congr (Guards.isGuarded_added_congr hperm) g coverage
  · exact Guards.redundancies_added_congr hperm
  · rw [placements, placements, ← Guards.edges_added_congr hperm, List.forall₂_map_left_iff,
      List.forall₂_map_right_iff]
    refine List.forall₂_same.2 fun e _ => ⟨?_, (Guards.onEdge_added_perm hperm e).map _⟩
    simp only [placement, Guards.hasKind_added_congr hperm, Guards.isRedundant_added_congr hperm]

/-- Guards of both sorts on an edge of a cycle, added in both orders. -/
theorem placements_exact_swap :
    let importing : Guard := ⟨⟨"A", "B"⟩, .importGuard, "A_Curve", ⟨"rules", 3⟩⟩
    let calling : Guard := ⟨⟨"A", "B"⟩, .callGuard, "A_Tool::Run", ⟨"rules", 1⟩⟩
    let g := ofLists ["A", "B"] [⟨"A", "B"⟩, ⟨"B", "A"⟩]
    [importing, calling].Perm [calling, importing] ∧
    (∀ p ∈ g.placements (Guards.added [importing, calling]),
      p.onCycle = true ∧ p.anchors = ["A_Curve", "A_Tool::Run"]) ∧
    List.Forall₂ Placement.SameButOrder (g.placements (Guards.added [importing, calling]))
      (g.placements (Guards.added [calling, importing])) ∧
    (Guards.added [importing, calling]).redundancies =
      (Guards.added [calling, importing]).redundancies ∧
    (Guards.added [calling, importing]).redundancies.map (·.location) = [some ⟨"rules", 3⟩] := by
  intro importing calling g
  have hperm : [importing, calling].Perm [calling, importing] := .swap calling importing []
  obtain ⟨-, hedges, hdecides, -, horders⟩ := placements_exact g [importing, calling]
  obtain ⟨-, hwarnings, hplacements⟩ := horders _ hperm
  refine ⟨hperm, fun p hp => ?_, hplacements, hwarnings, by decide +kernel⟩
  have hp' := hdecides p hp
  have hedge : p.edge = ⟨"A", "B"⟩ := by
    obtain ⟨guard, hguard, heq⟩ := (hedges p.edge).1 (List.mem_map_of_mem hp)
    rcases List.mem_pair.1 hguard with rfl | rfl
    · exact heq.symm
    · exact heq.symm
  have hback : g.Needs "B" "A" := show (⟨"B", "A"⟩ : Edge) ∈ g.edges by decide +kernel
  have hin : (⟨"A", "B"⟩ : Edge) ∈ g.edges := by decide +kernel
  rw [hp'.onCycle, hp'.anchors, hedge]
  exact ⟨⟨hin, .single hback⟩, rfl⟩

end Graph

end BindingRules
