import BindingRules.Proofs.GuardPlacements
import Mathlib.Data.List.Dedup

set_option relaxedAutoImplicit false
set_option autoImplicit false

/-!
# Guards that come and go

Guards can be kept as a table with a row for each guarded edge, which lists the guards on it. The
table itself does not demand that a row lists any guard at all, or that the guards in a row are on
its edge. All the same, whatever additions and removals a table goes through, it lists the guards
that were added and that no later removal has taken away, each of them in the row of its edge, and
no row is empty. So all questions about guards are answered from the same guards: an edge counts as
guarded exactly if it has a row, and a reference goes to a call site only if a guard says so.

## Main definitions

* `Guards.Change`, `Guards.change` — additions and removals of guards.
* `Guards.lasting` — the guards that were added and passed all that came later.
* `GuardTable`, `GuardTable.change` — tables with a row for each guarded edge.
* `GuardTable.Holds` — what a table with the given guards, and no others, answers.

## Main results

* `Guards.mem_lasting` — which guards last.
* `Guards.list_changes` — the guards after several changes.
* `guardsWithin_eq_changes` — the guards of a policy come from additions and one removal.
* `GuardTable.rows_changes` — the rows after several changes are the groups of the guards.
* `GuardTable.holds_changes` — tables hold the guards that lasted.
-/

namespace BindingRules

variable {guards : Guards} {guard : Guard} {e : Edge} {group : List Guard}

/-! ## Changes -/

/-- A change of the guards. -/
inductive Guards.Change where
  /-- A guard is added. -/
  | add (guard : Guard)
  /-- The guards without a property are removed. -/
  | retain (keep : Guard → Bool)

namespace Guards

/-- Whether a change lets a guard stay that is there before it. -/
def Change.spares (guard : Guard) : Change → Bool
  | .add _ => true
  | .retain keep => keep guard

/-- The guards after a change. -/
def change (guards : Guards) : Change → Guards
  | .add guard => guards.add guard
  | .retain keep => guards.retain keep

/-- The guards after several changes. -/
def changes (guards : Guards) (cs : List Change) : Guards := cs.foldl change guards

/-- Changes follow each other. -/
lemma changes_append (guards : Guards) (cs cs' : List Change) :
    guards.changes (cs ++ cs') = (guards.changes cs).changes cs' := List.foldl_append

/-- The guards that are added by one of several changes and that all later ones let stay, in the
order of the additions. -/
def lasting : List Change → List Guard
  | [] => []
  | .add guard :: later =>
    if later.all (Change.spares guard) then guard :: lasting later else lasting later
  | .retain _ :: later => lasting later

/-- Several changes let a guard stay if it has all properties that they demand. -/
lemma all_spares_iff {cs : List Change} :
    cs.all (Change.spares guard) = true ↔ ∀ keep, .retain keep ∈ cs → keep guard = true := by
  rw [List.all_eq_true]
  constructor
  · exact fun h keep hkeep => h (.retain keep) hkeep
  · intro h c hc
    cases c with
    | add other => rfl
    | retain keep => exact h keep hc

/-- A guard lasts if it is added at some time and has all properties demanded later. -/
lemma mem_lasting {cs : List Change} : guard ∈ lasting cs ↔
    ∃ before later, cs = before ++ .add guard :: later ∧
      ∀ keep, .retain keep ∈ later → keep guard = true := by
  simp only [← all_spares_iff]
  induction cs with
  | nil => simp [lasting]
  | cons c cs ih =>
    -- the guard is added by the first change, or by one of the others
    have hsplit : (∃ before later, c :: cs = before ++ .add guard :: later ∧
          later.all (Change.spares guard) = true) ↔
        c = .add guard ∧ cs.all (Change.spares guard) = true ∨ guard ∈ lasting cs := by
      rw [ih]
      simp only [List.cons_eq_append_iff]
      constructor
      · rintro ⟨_, later, ⟨rfl, heq⟩ | ⟨before, rfl, rfl⟩, hlater⟩
        · obtain ⟨rfl, rfl⟩ := List.cons.inj heq
          exact .inl ⟨rfl, hlater⟩
        · exact .inr ⟨before, later, rfl, hlater⟩
      · rintro (⟨rfl, hlater⟩ | ⟨before, later, rfl, hlater⟩)
        · exact ⟨[], cs, .inl ⟨rfl, rfl⟩, hlater⟩
        · exact ⟨c :: before, later, .inr ⟨before, rfl, rfl⟩, hlater⟩
    rw [hsplit]
    cases c with
    | add other =>
      rw [lasting, Change.add.injEq]
      split
      · next hlater =>
        rw [List.mem_cons, eq_comm]
        exact or_congr_left (and_iff_left_of_imp fun h => h ▸ hlater).symm
      · next hlater =>
        exact (or_iff_right fun ⟨heq, h⟩ => hlater (heq ▸ h)).symm
    | retain keep => simp [lasting]

/-- **The history.** After several changes there are the guards that were there before and stayed,
and then those that were added and lasted. -/
lemma list_changes (guards : Guards) (cs : List Change) :
    (guards.changes cs).list =
      guards.list.filter (fun guard => cs.all (Change.spares guard)) ++ lasting cs := by
  induction cs generalizing guards with
  | nil => simp [changes, lasting]
  | cons c cs ih =>
    rw [changes, List.foldl_cons, ← changes, ih]
    cases c with
    | add guard =>
      -- the new guard stands between the older ones and those that are added later
      rw [change, add, List.filter_append, List.append_assoc, lasting, List.filter_singleton]
      congr 1
      cases cs.all (Change.spares guard) <;> rfl
    | retain keep =>
      rw [change, retain, List.filter_filter, lasting]
      congr 1
      exact List.filter_congr fun guard _ => Bool.and_comm _ _

/-- Guards that are added one by one come from changes. -/
lemma added_eq_changes (gs : List Guard) : added gs = ({} : Guards).changes (gs.map .add) := by
  rw [changes, List.foldl_map]
  rfl

end Guards

/-- The guards of a policy come from additions and one removal. -/
lemma guardsWithin_eq_changes (s : Store) (g : Graph) :
    guardsWithin s g = ({} : Guards).changes
      (((s.directivesOf .importGuard ++ s.directivesOf .callGuard).filterMap
        Guard.ofDirective?).map .add ++
      [.retain fun guard => guard.edge.source != guard.edge.target &&
        g.contains guard.edge.source && g.contains guard.edge.target]) := by
  rw [Guards.changes_append, ← Guards.added_eq_changes, Guards.changes, List.foldl_cons,
    List.foldl_nil, Guards.change, guardsWithin, Guards.ofStore, Guards.retain, Guards.retain,
    Guards.list_added]

/-! ## Groups -/

namespace Guards

/-- The edge of a guard belongs to those with a group afterwards. -/
lemma map_fst_putInGroup (guard : Guard) (rows : List (Edge × List Guard)) :
    (putInGroup guard rows).map Prod.fst =
      Sorted.insert Edge.lt guard.edge (rows.map Prod.fst) := by
  induction rows with
  | nil => rfl
  | cons row rows ih =>
    simp only [putInGroup, List.map_cons, Sorted.insert, ← ih]
    split
    · rfl
    · split <;> rfl

/-- A guard that goes to its group is one more guard in the groups. -/
lemma perm_putInGroup (guard : Guard) (rows : List (Edge × List Guard)) :
    ((putInGroup guard rows).flatMap Prod.snd).Perm (guard :: rows.flatMap Prod.snd) := by
  induction rows with
  | nil => exact .refl _
  | cons row rows ih =>
    obtain ⟨e, group⟩ := row
    rw [putInGroup]
    split
    · exact .refl _
    · split
      · exact (ih.append_left group).trans List.perm_middle
      · simp only [List.flatMap_cons, List.append_assoc]
        exact List.perm_middle

/-- The groups hold each guard once. -/
lemma perm_flatMap_groups (guards : Guards) :
    (guards.groups.flatMap Prod.snd).Perm guards.list := by
  have hrun : ∀ (gs : List Guard) (rows : List (Edge × List Guard)),
      ((gs.foldl (fun rows guard => putInGroup guard rows) rows).flatMap Prod.snd).Perm
        (rows.flatMap Prod.snd ++ gs) := by
    intro gs
    induction gs with
    | nil => exact fun rows => by simp
    | cons guard gs ih =>
      intro rows
      exact (ih _).trans (((perm_putInGroup guard rows).append_right gs).trans
        List.perm_middle.symm)
  have hadded : added guards.list = guards := by
    cases guards
    exact congrArg Guards.mk (list_added _)
  simpa [← groups_added, hadded] using hrun guards.list []

/-- The edges with guards are the different edges of the guards. -/
lemma perm_edges (guards : Guards) : guards.edges.Perm (guards.list.map Guard.edge).dedup := by
  refine (List.perm_ext_iff_of_nodup ((increasing_edges guards).nodup Edge.strictTotal_lt)
    (List.nodup_dedup _)).2 fun e => ?_
  rw [mem_edges, List.mem_dedup, List.mem_map]

/-- An edge has guards exactly if it is one of the guarded edges. -/
lemma onEdge_ne_nil_iff : guards.onEdge e ≠ [] ↔ e ∈ guards.edges := by
  simp [onEdge, List.filter_eq_nil_iff, mem_edges]

/-- An edge is guarded if one of the guards is on it. -/
lemma isGuarded_iff : guards.isGuarded e = true ↔ ∃ guard ∈ guards.list, guard.edge = e := by
  rw [isGuarded, List.any_eq_true]
  simp only [beq_iff_eq]

/-- The groups are what stands on the guarded edges. -/
lemma mem_groups : (e, group) ∈ guards.groups ↔ group = guards.onEdge e ∧ group ≠ [] := by
  simp only [groups, List.mem_map, Prod.mk.injEq]
  constructor
  · rintro ⟨e, he, rfl, rfl⟩
    exact ⟨rfl, onEdge_ne_nil_iff.2 he⟩
  · rintro ⟨rfl, hne⟩
    exact ⟨e, onEdge_ne_nil_iff.1 hne, rfl, rfl⟩

/-- The guards on an edge are on it. -/
lemma edge_eq_of_mem_onEdge (h : guard ∈ guards.onEdge e) : guard.edge = e :=
  beq_iff_eq.1 (List.mem_filter.1 h).2

/-- Where the edges have a property, so have the guards on them, and where not, none of them has. -/
lemma filter_flatMap_onEdge (guards : Guards) (p : Edge → Bool) (es : List Edge) :
    (es.flatMap guards.onEdge).filter (fun guard => p guard.edge) =
      (es.filter p).flatMap guards.onEdge := by
  induction es with
  | nil => rfl
  | cons e es ih =>
    rw [List.flatMap_cons, List.filter_append, ih, List.filter_cons]
    split
    · next he =>
      rw [List.flatMap_cons,
        List.filter_eq_self.2 fun guard hguard => edge_eq_of_mem_onEdge hguard ▸ he]
    · next he =>
      rw [List.filter_eq_nil_iff.2 fun guard hguard => edge_eq_of_mem_onEdge hguard ▸ he,
        List.nil_append]

/-- The guards of a module are those on references from it, each of them once. -/
lemma perm_ofModule (guards : Guards) (m : String) :
    (guards.ofModule m).Perm (guards.list.filter (·.edge.source == m)) := by
  have hall := (perm_flatMap_groups guards).filter (·.edge.source == m)
  rwa [groups, List.flatMap_map, filter_flatMap_onEdge guards (·.source == m)] at hall

/-- The guards that are kept on an edge are those of its guards with the property. -/
lemma onEdge_retain (guards : Guards) (keep : Guard → Bool) (e : Edge) :
    (guards.retain keep).onEdge e = (guards.onEdge e).filter keep := by
  rw [onEdge, onEdge, retain, List.filter_comm]

/-- The edges that are still guarded are those that keep a guard. -/
lemma edges_retain (guards : Guards) (keep : Guard → Bool) :
    (guards.retain keep).edges =
      guards.edges.filter fun e => !((guards.onEdge e).filter keep).isEmpty := by
  refine (increasing_edges _).eq_of_mem_iff Edge.strictTotal_lt
    ((increasing_edges guards).filter _) fun e => ?_
  rw [List.mem_filter, ← onEdge_ne_nil_iff, ← onEdge_ne_nil_iff, onEdge_retain,
    Bool.not_eq_true', ← Bool.not_eq_true, List.isEmpty_iff]
  refine (and_iff_right_of_imp fun hkept hnil => hkept ?_).symm
  rw [hnil, List.filter_nil]

/-- **One step**: what is removed is removed from each group, and groups of which nothing is left
are dropped. -/
lemma groups_retain (guards : Guards) (keep : Guard → Bool) :
    (guards.retain keep).groups =
      (guards.groups.map fun row => (row.1, row.2.filter keep)).filter fun row =>
        !row.2.isEmpty := by
  rw [groups, edges_retain, groups, List.map_map, List.filter_map]
  exact List.map_congr_left fun e _ => congrArg (e, ·) (onEdge_retain guards keep e)

end Guards

/-! ## Tables -/

/-- A table with a row for each guarded edge, which lists the guards on it. What is demanded is that
the rows stand in the order of their edges, as in any map from edges to lists. -/
structure GuardTable where
  /-- The edges with the guards on them. -/
  rows : List (Edge × List Guard)
  /-- The order of the edges. -/
  keys_increasing : Increasing Edge.lt (rows.map Prod.fst)

namespace GuardTable

/-- The table without rows. -/
def empty : GuardTable where
  rows := []
  keys_increasing := by
    rw [List.map_nil]
    exact List.Pairwise.nil

/-- Adds a guard to the end of the row of its edge. -/
def add (t : GuardTable) (guard : Guard) : GuardTable where
  rows := Guards.putInGroup guard t.rows
  keys_increasing := by
    rw [Guards.map_fst_putInGroup]
    exact Sorted.increasing_insert Edge.strictTotal_lt guard.edge t.keys_increasing

/-- Keeps the guards with a property in each row, and then the rows that are not empty. -/
def retain (t : GuardTable) (keep : Guard → Bool) : GuardTable where
  rows := (t.rows.map fun row => (row.1, row.2.filter keep)).filter fun row => !row.2.isEmpty
  keys_increasing := by
    have hkeys : (t.rows.map fun row => (row.1, row.2.filter keep)).map Prod.fst =
        t.rows.map Prod.fst := List.map_map
    exact (hkeys ▸ t.keys_increasing).sublist (List.filter_sublist.map Prod.fst)

/-- The guards on an edge: what its row lists, if it has one. -/
def onEdge (t : GuardTable) (e : Edge) : List Guard := (t.rows.lookup e).getD []

/-- Whether there is a guard on an edge. -/
def isGuarded (t : GuardTable) (e : Edge) : Bool := !(t.onEdge e).isEmpty

/-- The guards on references from a module, edge by edge. -/
def ofModule (t : GuardTable) (m : String) : List Guard :=
  (t.rows.filter (·.1.source == m)).flatMap Prod.snd

/-- The number of rows. -/
def size (t : GuardTable) : Nat := t.rows.length

/-- The table after a change. -/
def change (t : GuardTable) : Guards.Change → GuardTable
  | .add guard => t.add guard
  | .retain keep => t.retain keep

/-- The table after several changes. -/
def changes (t : GuardTable) (cs : List Guards.Change) : GuardTable := cs.foldl change t

/-- What a table with the given guards, and no others, answers. -/
structure Holds (t : GuardTable) (gs : List Guard) : Prop where
  /-- Each row lists a guard. -/
  ne_nil : ∀ row ∈ t.rows, row.2 ≠ []
  /-- The guards in a row are on its edge. -/
  edge_eq : ∀ row ∈ t.rows, ∀ guard ∈ row.2, guard.edge = row.1
  /-- The rows are the edges with guards, each with all guards on it in their order. -/
  mem_rows : ∀ e group, (e, group) ∈ t.rows ↔ group = gs.filter (·.edge == e) ∧ group ≠ []
  /-- All rows together list each guard once. -/
  perm : (t.rows.flatMap Prod.snd).Perm gs
  /-- The guards on an edge come in their order. -/
  onEdge : ∀ e, t.onEdge e = gs.filter (·.edge == e)
  /-- An edge is guarded if one of the guards is on it. -/
  isGuarded : ∀ e, t.isGuarded e = true ↔ ∃ guard ∈ gs, guard.edge = e
  /-- The guards of a module are those on references from it. -/
  ofModule : ∀ m, (t.ofModule m).Perm (gs.filter (·.edge.source == m))
  /-- There are as many rows as different edges of guards. -/
  size : t.size = (gs.map Guard.edge).dedup.length

variable {t : GuardTable}

/-! ## What a table answers -/

/-- **One step**: a table with the groups of the guards has them after a change, too. -/
lemma rows_change (h : t.rows = guards.groups) (c : Guards.Change) :
    (t.change c).rows = (guards.change c).groups := by
  cases c with
  | add guard =>
    rw [Guards.change, Guards.groups_add, ← h]
    rfl
  | retain keep =>
    rw [Guards.change, Guards.groups_retain, ← h]
    rfl

/-- **A whole run**: a table with the groups of the guards has them after all changes. -/
lemma rows_changes (h : t.rows = guards.groups) (cs : List Guards.Change) :
    (t.changes cs).rows = (guards.changes cs).groups := by
  induction cs generalizing t guards with
  | nil => exact h
  | cons c cs ih => exact ih (rows_change h c)

/-- An edge is looked up among the groups. -/
lemma onEdge_eq (h : t.rows = guards.groups) (e : Edge) : t.onEdge e = guards.onEdge e := by
  rw [onEdge, h, Guards.groups]
  by_cases he : e ∈ guards.edges
  · rw [List.lookup_graph _ he, Option.getD_some]
  · have hnone : (guards.edges.map fun e => (e, guards.onEdge e)).lookup e = none := by
      refine List.lookup_eq_none_iff.2 fun row hrow => bne_iff_ne.2 ?_
      rintro rfl
      obtain ⟨e, hin, rfl⟩ := List.mem_map.1 hrow
      exact he hin
    rw [hnone, Option.getD_none, not_not.1 (mt Guards.onEdge_ne_nil_iff.1 he)]

/-- An edge is guarded if something is found for it. -/
lemma isGuarded_eq (h : t.rows = guards.groups) (e : Edge) :
    t.isGuarded e = guards.isGuarded e := by
  rw [isGuarded, onEdge_eq h, Bool.eq_iff_iff, Bool.not_eq_true', ← Bool.not_eq_true,
    List.isEmpty_iff, ← ne_eq, Guards.onEdge_ne_nil_iff, Guards.mem_edges, Guards.isGuarded_iff]

/-- The guards of a module stand in the rows of its edges. -/
lemma ofModule_eq (h : t.rows = guards.groups) (m : String) :
    t.ofModule m = guards.ofModule m := by
  rw [ofModule, h, Guards.groups, List.filter_map, List.flatMap_map]
  rfl

/-- There is a row for each guarded edge. -/
lemma size_eq (h : t.rows = guards.groups) : t.size = guards.size := by
  rw [size, h, Guards.groups, List.length_map, Guards.size]

/-- **A table with the groups of the guards** answers all questions from these guards. -/
lemma holds_of_rows_eq (h : t.rows = guards.groups) : t.Holds guards.list where
  ne_nil row hrow := by
    rw [h] at hrow
    exact (Guards.mem_groups.1 hrow).2
  edge_eq row hrow guard hguard := by
    rw [h] at hrow
    rw [(Guards.mem_groups.1 hrow).1] at hguard
    exact Guards.edge_eq_of_mem_onEdge hguard
  mem_rows e group := by
    rw [h, Guards.mem_groups, Guards.onEdge]
  perm := h ▸ guards.perm_flatMap_groups
  onEdge e := onEdge_eq h e
  isGuarded e := by
    rw [isGuarded_eq h, Guards.isGuarded_iff]
  ofModule m := ofModule_eq h m ▸ guards.perm_ofModule m
  size := by
    rw [size_eq h, Guards.size, guards.perm_edges.length_eq]

end GuardTable

/-! ## Placements and rows -/

/-- What is decided for an edge is decided from its row. -/
structure Placement.IsForRow (row : Edge × List Guard) (p : Placement) : Prop where
  /-- It is decided for the edge of the row. -/
  edge : p.edge = row.1
  /-- The anchors are those of the guards in the row. -/
  anchors : p.anchors = row.2.map Guard.anchor
  /-- A declaration takes the place of the reference if an import guard is in the row. -/
  declaration : p.site = .declaration ↔ ∃ guard ∈ row.2, guard.kind = .importGuard
  /-- The reference goes to a call site only if a call guard is in the row. -/
  callSite : p.site = .callSite → ∃ guard ∈ row.2, guard.kind = .callGuard

/-- What is decided for a guarded edge is decided from the guards on it.

**Proof sketch.** Without an import guard the reference goes to a call site. Since the edge has a
guard all the same, that one is a call guard. -/
lemma Graph.isForRow_placement (g : Graph) (he : e ∈ guards.edges) :
    (g.placement guards g.components e).IsForRow (e, guards.onEdge e) := by
  have hkind : guards.hasKind e .importGuard = true ↔
      ∃ guard ∈ guards.onEdge e, guard.kind = .importGuard := by
    rw [Guards.hasKind, List.any_eq_true]
    simp only [beq_iff_eq]
  have hsite : (g.placement guards g.components e).site = .declaration ↔
      ∃ guard ∈ guards.onEdge e, guard.kind = .importGuard := site_placement_iff.trans hkind
  refine ⟨rfl, rfl, hsite, fun hcall => ?_⟩
  obtain ⟨guard, hguard⟩ := List.exists_mem_of_ne_nil _ (Guards.onEdge_ne_nil_iff.2 he)
  cases hsort : guard.kind with
  | callGuard => exact ⟨guard, hguard, hsort⟩
  | importGuard =>
    rw [hsite.2 ⟨guard, hguard, hsort⟩] at hcall
    cases hcall

/-- The placements go along the groups. -/
lemma Graph.forall₂_placements (g : Graph) (guards : Guards) :
    List.Forall₂ Placement.IsForRow guards.groups (g.placements guards) := by
  rw [Guards.groups, placements, List.forall₂_map_left_iff, List.forall₂_map_right_iff]
  exact List.forall₂_same.2 fun e he => g.isForRow_placement he

namespace GuardTable

/-- **Guards that come and go.** Whatever guards are added, and whatever properties are demanded in
between, the table lists exactly the guards that were added and had all properties demanded later,
in the order of the additions, each in the row of its edge; no row is empty. The table and the
guards that are kept as one list answer all questions alike, and the placements go along the rows.

**Proof sketch.** The rows are the groups of the guards: an addition lets one guard go to its group,
and a removal takes away from all groups and drops those of which nothing is left, since an edge is
guarded exactly if there is a guard on it. What the table answers follows from its rows. -/
theorem holds_changes (cs : List Guards.Change) :
    let guards := ({} : Guards).changes cs
    let t := empty.changes cs
    t.Holds (Guards.lasting cs) ∧
    (∀ guard, guard ∈ Guards.lasting cs ↔ ∃ before later, cs = before ++ .add guard :: later ∧
      ∀ keep, .retain keep ∈ later → keep guard = true) ∧
    guards.list = Guards.lasting cs ∧ t.rows = guards.groups ∧ t.size = guards.size ∧
    (∀ e, t.onEdge e = guards.onEdge e ∧ t.isGuarded e = guards.isGuarded e) ∧
    (∀ m, t.ofModule m = guards.ofModule m) ∧
    ∀ g : Graph, List.Forall₂ Placement.IsForRow t.rows (g.placements guards) := by
  intro guards t
  have hlist : guards.list = Guards.lasting cs := Guards.list_changes {} cs
  have hrows : t.rows = guards.groups := rows_changes rfl cs
  refine ⟨hlist ▸ holds_of_rows_eq hrows, fun _ => Guards.mem_lasting, hlist, hrows,
    size_eq hrows, fun e => ⟨onEdge_eq hrows e, isGuarded_eq hrows e⟩, ofModule_eq hrows,
    fun g => ?_⟩
  rw [hrows]
  exact g.forall₂_placements guards

/-- An edge that loses its only guard is not guarded any more. An import guard that is removed and
comes back stands behind the call guard that stayed, and the reference is a declaration again. -/
theorem holds_changes_emptied :
    let importing : Guard := ⟨⟨"A", "B"⟩, .importGuard, "A_Curve", ⟨"rules", 1⟩⟩
    let calling : Guard := ⟨⟨"A", "B"⟩, .callGuard, "A_Tool::Run", ⟨"rules", 2⟩⟩
    let other : Guard := ⟨⟨"B", "C"⟩, .importGuard, "B", ⟨"rules", 3⟩⟩
    let cs := [.add other, .add importing, .add calling, .retain (·.kind == .callGuard),
      .add importing]
    let t := empty.changes cs
    Guards.lasting cs = [calling, importing] ∧ t.onEdge ⟨"A", "B"⟩ = [calling, importing] ∧
    t.isGuarded ⟨"B", "C"⟩ = false ∧ t.size = 1 ∧ (t.ofModule "A").Perm [calling, importing] ∧
    ∀ g : Graph, (g.placements (({} : Guards).changes cs)).map (·.site) = [.declaration] := by
  intro importing calling other cs t
  have hlasting : Guards.lasting cs = [calling, importing] := by decide
  have hrows : t.rows = [(⟨"A", "B"⟩, [calling, importing])] := by decide
  obtain ⟨hholds, -, -, -, -, -, -, hplacements⟩ := holds_changes cs
  rw [hlasting] at hholds
  refine ⟨hlasting, hholds.onEdge ⟨"A", "B"⟩, ?_, hholds.size, hholds.ofModule "A", fun g => ?_⟩
  · rw [Bool.eq_false_iff, ne_eq, hholds.isGuarded]
    decide
  · have hrow := hplacements g
    rw [hrows] at hrow
    obtain ⟨p, _, hp, hnil, hg⟩ := List.forall₂_cons_left_iff.1 hrow
    rw [hg, List.forall₂_nil_left_iff.1 hnil, List.map_singleton]
    exact congrArg ([·]) (hp.declaration.2 ⟨importing, by decide, rfl⟩)

end GuardTable

end BindingRules
