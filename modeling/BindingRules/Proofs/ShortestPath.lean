import BindingRules.Proofs.Path
import BindingRules.Table

set_option relaxedAutoImplicit false
set_option autoImplicit false

/-!
# Shortest paths

The search for a path goes through the modules in layers: the paths of a layer have one length, and
whatever a shorter walk reaches was seen before. So a path that is found is as short as a walk can
be, and passes no module twice.

The paths need not be kept. It is enough to note for each module where it was found first: a queue
takes the modules in the order in which they are found, and once the target comes up, the way back
from it is the path.

## Main definitions

* `Graph.WalkWithin` — walks of which all modules but the first belong to a set.
* `Graph.Frontier` — what the paths that the search keeps and the modules seen have in common.
* `Graph.Layer.Shortest` — layers of the search that nothing shorter leads to.
* `Graph.PathSearch`, `Graph.PathSearch.run` — the search with a queue.

## Main results

* `Graph.Frontier.extendPaths` — the next layer.
* `Graph.shortest_searchPath` — what is found is a shortest walk.
* `Graph.PathSearch.run_eq_searchPath` — the queue leads to the same path.
* `Graph.pathWithin_shortest` — the search ends, and finds a shortest walk if there is any.
-/

namespace BindingRules.Graph

open Relation

variable {g : Graph} {within : String → Bool} {source target m n : String}
  {seen path walk : List String} {paths current behind : List (List String)}

/-! ## Walks -/

/-- A walk along edges from `source` to `target`, of which all modules but the first belong to the
set. -/
structure WalkWithin (g : Graph) (within : String → Bool) (source target : String)
    (walk : List String) : Prop where
  /-- It begins at the source. -/
  head : walk.head? = some source
  /-- It ends at the target. -/
  last : walk.getLast? = some target
  /-- From each module to the next one there is an edge, and the next one belongs to the set. -/
  chain : walk.IsChain (g.NeedsWithin within)

/-- A path, given last module first, is what leads back to its source. -/
lemma pathFrom_iff : g.PathFrom within source path ↔ path.getLast? = some source ∧
    path.IsChain fun n m => g.NeedsWithin within m n := by
  constructor
  · intro h
    induction h with
    | start => exact ⟨rfl, .singleton source⟩
    | extend _ hmn ih => exact ⟨by rw [List.getLast?_cons_cons, ih.1], .cons_cons hmn ih.2⟩
  · rintro ⟨hlast, hchain⟩
    induction hchain with
    | nil => cases hlast
    | singleton n =>
      obtain rfl := Option.some.inj hlast
      exact .start
    | cons_cons hmn hchain ih =>
      rw [List.getLast?_cons_cons] at hlast
      exact .extend (ih hlast) hmn

/-- A path, read from its source, is a walk to where it ends. -/
lemma walkWithin_reverse_iff : g.WalkWithin within source target path.reverse ↔
    g.PathFrom within source path ∧ path.head? = some target := by
  rw [pathFrom_iff]
  constructor
  · rintro ⟨hhead, hlast, hchain⟩
    rw [List.head?_reverse] at hhead
    rw [List.getLast?_reverse] at hlast
    exact ⟨⟨hhead, List.isChain_reverse.1 hchain⟩, hlast⟩
  · rintro ⟨⟨hlast, hchain⟩, hhead⟩
    exact ⟨by rwa [List.head?_reverse], by rwa [List.getLast?_reverse],
      List.isChain_reverse.2 hchain⟩

/-- A path leads to where it ends. -/
lemma PathFrom.reflTransGen (h : g.PathFrom within source path) (hend : path.head? = some m) :
    ReflTransGen (g.NeedsWithin within) source m := by
  induction h generalizing m with
  | start =>
    obtain rfl := Option.some.inj hend
    exact .refl
  | extend _ hmn ih =>
    obtain rfl := Option.some.inj hend
    exact (ih rfl).tail hmn

/-! ## The next layer -/

/-- What is found behind a module: what it needs in the set and was not seen before. -/
def found (g : Graph) (within : String → Bool) (seen : List String) (m : String) : List String :=
  (g.dependencies m).filter fun n => within n && !seen.contains n

/-- What is found behind a module is what it needs in the set, without what was seen before. -/
lemma mem_found : n ∈ g.found within seen m ↔ g.NeedsWithin within m n ∧ n ∉ seen :=
  @mem_fresh g within m n seen []

/-- The first of the paths is extended by what is found behind its end, which counts as seen for the
others. -/
lemma extendPaths_cons (g : Graph) (within : String → Bool) (seen path : List String) (m : String)
    (paths : List (List String)) : g.extendPaths within seen ((m :: path) :: paths) =
      ((g.found within seen m).map (· :: m :: path) ++
        (g.extendPaths within (seen ++ g.found within seen m) paths).1,
      (g.extendPaths within (seen ++ g.found within seen m) paths).2) := rfl

/-- The paths that the search keeps: nothing is seen twice or outside of the graph, and each path
has passed no module twice, and only such as were seen. -/
structure Frontier (g : Graph) (within : String → Bool) (source : String) (seen : List String)
    (paths : List (List String)) : Prop where
  /-- Nothing is seen twice. -/
  nodup_seen : seen.Nodup
  /-- All that is seen are modules, except perhaps the source. -/
  seen_subset : seen ⊆ source :: g.modules
  /-- The paths begin at the source. -/
  pathFrom : ∀ path ∈ paths, g.PathFrom within source path
  /-- They pass no module twice. -/
  nodup : ∀ path ∈ paths, path.Nodup
  /-- They pass modules that were seen. -/
  subset_seen : ∀ path ∈ paths, path ⊆ seen

/-- The path that has not left the source. -/
lemma frontier_start (g : Graph) (within : String → Bool) (source : String) :
    g.Frontier within source [source] [[source]] where
  nodup_seen := List.nodup_singleton source
  seen_subset := by simp
  pathFrom := by simpa using PathFrom.start
  nodup := by simp
  subset_seen := by simp

/-- There are at most as many modules to see as the graph has, and the source. -/
lemma Frontier.length_seen_le (h : g.Frontier within source seen paths) :
    seen.length ≤ g.modules.length + 1 :=
  (List.subperm_of_subset h.nodup_seen h.seen_subset).length_le

/-- **One step**: the first path is followed by the longer ones that it leads to. -/
lemma Frontier.expand (h : g.Frontier within source seen ((m :: path) :: paths)) :
    g.Frontier within source (seen ++ g.found within seen m)
      (paths ++ (g.found within seen m).map (· :: m :: path)) := by
  have hfirst := h.pathFrom _ List.mem_cons_self
  have hseen := h.subset_seen _ List.mem_cons_self
  have hpath : ∀ longer ∈ (g.found within seen m).map (· :: m :: path),
      g.PathFrom within source longer ∧ longer.Nodup ∧
        longer ⊆ seen ++ g.found within seen m := by
    intro longer hlonger
    obtain ⟨n, hn, rfl⟩ := List.mem_map.1 hlonger
    obtain ⟨hmn, hfresh⟩ := mem_found.1 hn
    refine ⟨.extend hfirst hmn, List.nodup_cons.2 ⟨fun hin => hfresh (hseen hin),
      h.nodup _ List.mem_cons_self⟩, List.cons_subset.2 ⟨List.mem_append_right _ hn, ?_⟩⟩
    exact List.subset_append_of_subset_left _ hseen
  refine ⟨List.nodup_append'.2 ⟨h.nodup_seen, (nodup_dependencies g m).filter _, ?_⟩,
    List.append_subset.2 ⟨h.seen_subset, ?_⟩, ?_, ?_, ?_⟩
  · exact fun n hn hn' => (mem_found.1 hn').2 hn
  · exact fun n hn => List.mem_cons_of_mem _ (mem_found.1 hn).1.1.target_mem
  all_goals
    intro longer hlonger
    rcases List.mem_append.1 hlonger with hlonger | hlonger
  · exact h.pathFrom _ (List.mem_cons_of_mem _ hlonger)
  · exact (hpath _ hlonger).1
  · exact h.nodup _ (List.mem_cons_of_mem _ hlonger)
  · exact (hpath _ hlonger).2.1
  · exact List.subset_append_of_subset_left _ (h.subset_seen _ (List.mem_cons_of_mem _ hlonger))
  · exact (hpath _ hlonger).2.2

/-- **The next layer** comes behind the paths that are longer already. -/
lemma Frontier.extendPaths (h : g.Frontier within source seen (current ++ behind)) :
    g.Frontier within source (g.extendPaths within seen current).2
      (behind ++ (g.extendPaths within seen current).1) := by
  induction current generalizing seen behind with
  | nil => simpa [Graph.extendPaths] using h
  | cons first current ih =>
    obtain ⟨m, path, rfl⟩ : ∃ m path, first = m :: path := by
      cases h.pathFrom first List.mem_cons_self <;> exact ⟨_, _, rfl⟩
    rw [List.cons_append] at h
    have hexpand := h.expand
    rw [List.append_assoc] at hexpand
    rw [extendPaths_cons, ← List.append_assoc]
    exact ih hexpand

/-- The next layer by itself. -/
lemma Frontier.next (h : g.Frontier within source seen paths) :
    g.Frontier within source (g.extendPaths within seen paths).2
      (g.extendPaths within seen paths).1 := by
  rw [← List.append_nil paths] at h
  simpa using h.extendPaths

/-- Each path of the next layer ends in a module that is seen with it for the first time. -/
lemma length_seen_extendPaths (seen : List String) (paths : List (List String)) :
    (g.extendPaths within seen paths).2.length =
      seen.length + (g.extendPaths within seen paths).1.length := by
  induction paths generalizing seen with
  | nil => rfl
  | cons path paths ih =>
    simp only [Graph.extendPaths, ih, List.length_append, List.length_map]
    omega

/-- The paths of the next layer are longer by one module. -/
lemma exists_of_mem_extendPaths (h : path ∈ (g.extendPaths within seen paths).1) :
    ∃ n, ∃ shorter ∈ paths, path = n :: shorter := by
  induction paths generalizing seen with
  | nil => cases h
  | cons first paths ih =>
    rcases List.mem_append.1 h with h | h
    · obtain ⟨n, -, rfl⟩ := List.mem_map.1 h
      exact ⟨n, first, List.mem_cons_self, rfl⟩
    · obtain ⟨n, shorter, hshorter, rfl⟩ := ih h
      exact ⟨n, shorter, List.mem_cons_of_mem _ hshorter, rfl⟩

/-! ## Paths that are found are shortest -/

/-- A layer of paths with `k` edges: all that can be reached with so many edges is seen, and the
target cannot be reached with fewer. -/
structure Layer.Shortest (g : Graph) (within : String → Bool) (source target : String)
    (seen : List String) (paths : List (List String)) (k : ℕ) : Prop extends
    g.Layer within target seen paths where
  /-- The paths of the layer have the same length. -/
  length_eq : ∀ path ∈ paths, path.length = k + 1
  /-- What a path of this length leads to is seen. -/
  reached : ∀ path m, g.PathFrom within source path → path.length ≤ k + 1 →
    path.head? = some m → m ∈ seen
  /-- No shorter path leads to the target. -/
  far : ∀ path, g.PathFrom within source path → path.head? = some target → k + 1 ≤ path.length

/-- The layer of the source. -/
lemma shortest_start (g : Graph) (within : String → Bool) (source target : String) :
    Layer.Shortest g within source target [source] [[source]] 0 where
  behind m hm := .inl ⟨[source], by simp, by simp [List.mem_singleton.1 hm]⟩
  target_end ht := ⟨[source], by simp, by simp [List.mem_singleton.1 ht]⟩
  length_eq := by simp
  reached path m hpath hlength hend := by
    cases hpath with
    | start => exact Option.some.inj hend ▸ List.mem_cons_self
    | extend => simp at hlength
  far path hpath _ := by cases hpath <;> simp

/-- **One step**: the next layer behind one that does not hold the target. -/
lemma Layer.Shortest.next {k : ℕ} (h : Layer.Shortest g within source target seen paths k)
    (htarget : target ∉ seen) : Layer.Shortest g within source target
      (g.extendPaths within seen paths).2 (g.extendPaths within seen paths).1 (k + 1) where
  toLayer := h.toLayer.next htarget
  length_eq path hpath := by
    obtain ⟨n, shorter, hshorter, rfl⟩ := exists_of_mem_extendPaths hpath
    rw [List.length_cons, h.length_eq shorter hshorter]
  reached path n hpath hlength hend := by
    cases hpath with
    | start =>
      exact mem_seen_extendPaths.2 (.inl (h.reached _ n .start (by simp) hend))
    | @extend m n' shorter hshorter hmn =>
      obtain rfl := Option.some.inj hend
      have hm : m ∈ seen := h.reached _ m hshorter (Nat.le_of_succ_le_succ hlength) rfl
      rcases h.behind m hm with ⟨path, hpath, hends⟩ | hclosed
      · obtain ⟨rest, rfl⟩ := List.head?_eq_some_iff.1 hends
        exact mem_seen_of_needsWithin hpath hmn
      · exact mem_seen_extendPaths.2 (.inl (hclosed _ hmn))
  far path hpath hend := by
    by_contra hshort
    exact htarget (h.reached path target hpath (by omega) hend)

/-- **A whole search**: what is found is a path that passes no module twice, and no path to the
target is shorter. -/
lemma shortest_searchPath {k : ℕ} (rounds : ℕ)
    (hshortest : Layer.Shortest g within source target seen paths k)
    (hfrontier : g.Frontier within source seen paths)
    (h : g.searchPath target within rounds seen paths = some walk) :
    ∃ path, walk = path.reverse ∧ g.PathFrom within source path ∧ path.head? = some target ∧
      path.Nodup ∧ ∀ other, g.PathFrom within source other → other.head? = some target →
        path.length ≤ other.length := by
  fun_induction searchPath g target within rounds seen paths generalizing k with
  | case1 rounds seen paths path hfound =>
    have hmem := List.mem_of_find?_eq_some hfound
    refine ⟨path, (Option.some.inj h).symm, hfrontier.pathFrom path hmem,
      by simpa using List.find?_some hfound, hfrontier.nodup path hmem, fun other hother hend => ?_⟩
    rw [hshortest.length_eq path hmem]
    exact hshortest.far other hother hend
  | case2 => cases h
  | case3 => cases h
  | case4 seen paths hnone rounds next seen' hextend _ ih =>
    have hnext := hshortest.next (hshortest.target_notMem hnone)
    have hkept := hfrontier.next
    rw [hextend] at hnext hkept
    exact ih hnext hkept h

/-! ## The search with a queue -/

/-- A search for a path that keeps no paths. -/
structure PathSearch where
  /-- The modules that were found and not looked at yet, in the order in which they were found. -/
  queue : List String
  /-- The modules that were found. -/
  seen : List String
  /-- For each of them but the source, the module behind which it was found. -/
  parents : Table String String

namespace PathSearch

variable {s : PathSearch} {parents : Table String String}

/-- The search that has found nothing but its source. -/
def start (source : String) : PathSearch := ⟨[source], [source], .empty⟩

/-- Finds a module behind `m`, if it belongs to the set and was not found before. -/
def find (within : String → Bool) (m : String) (s : PathSearch) (n : String) : PathSearch :=
  if within n && !s.seen.contains n then
    { queue := s.queue ++ [n], seen := s.seen ++ [n], parents := s.parents.insert n m }
  else s

/-- The way from a module back to one that was found behind none, in at most the given number of
rounds. -/
def wayBack (parents : Table String String) : (rounds : ℕ) → String → Option (List String)
  | 0, _ => none
  | rounds + 1, m =>
    match parents.get? m with
    | some parent => (wayBack parents rounds parent).map (m :: ·)
    | none => some [m]

/-- What the search finds in at most the given number of rounds. In each round it looks at the first
module of the queue, and finds what is needed there. -/
def run (g : Graph) (target : String) (within : String → Bool) :
    (rounds : ℕ) → PathSearch → Option (Option (List String))
  | 0, _ => none
  | rounds + 1, s =>
    match s.queue with
    | [] => some none
    | m :: queue =>
      if m = target then
        (wayBack s.parents (g.modules.length + 1) target).map fun path => some path.reverse
      else run g target within rounds ((g.dependencies m).foldl (find within m) { s with queue })

/-- What the search finds behind one module. -/
lemma foldl_find {ns : List String} (hnodup : ns.Nodup) (s : PathSearch) :
    ns.foldl (find within m) s =
      let fresh := ns.filter fun n => within n && !s.seen.contains n
      { queue := s.queue ++ fresh, seen := s.seen ++ fresh,
        parents := fresh.foldl (fun parents n => parents.insert n m) s.parents } := by
  induction ns generalizing s with
  | nil => simp
  | cons n ns ih =>
    obtain ⟨hn, hns⟩ := List.nodup_cons.1 hnodup
    rw [List.foldl_cons, ih hns]
    by_cases hfresh : (within n && !s.seen.contains n) = true
    · have hrest : (ns.filter fun k => within k && !(s.seen ++ [n]).contains k) =
          ns.filter fun k => within k && !s.seen.contains k := by
        refine List.filter_congr fun k hk => ?_
        have hne : k ≠ n := fun heq => hn (heq ▸ hk)
        simp [hne]
      simp only [find, hfresh, if_true, hrest, List.filter_cons, List.append_assoc,
        List.singleton_append, List.foldl_cons]
    · simp only [find, hfresh, Bool.false_eq_true, if_false, List.filter_cons]

/-- The parents lead back along a path, given last module first, to its source. -/
inductive LeadsBack (parents : Table String String) : List String → Prop
  /-- The source was found behind none. -/
  | start {m : String} : parents.get? m = none → LeadsBack parents [m]
  /-- The end of the path was found behind the module ahead of it. -/
  | extend {m n : String} {path : List String} : LeadsBack parents (m :: path) →
      parents.get? n = some m → LeadsBack parents (n :: m :: path)

/-- The way back is the path. -/
lemma LeadsBack.wayBack_eq (h : LeadsBack parents (m :: path)) {rounds : ℕ}
    (hrounds : path.length < rounds) : wayBack parents rounds m = some (m :: path) := by
  generalize hwhole : m :: path = whole at h
  induction h generalizing m path rounds with
  | start hnone =>
    obtain ⟨rfl, rfl⟩ := List.cons.inj hwhole
    obtain ⟨rounds, rfl⟩ := Nat.exists_eq_succ_of_ne_zero (Nat.ne_of_gt hrounds)
    rw [wayBack, hnone]
  | @extend m' n path' _ hparent ih =>
    obtain ⟨rfl, rfl⟩ := List.cons.inj hwhole
    obtain ⟨rounds, rfl⟩ := Nat.exists_eq_succ_of_ne_zero (Nat.ne_zero_of_lt hrounds)
    rw [wayBack, hparent]
    simp only [ih (by simpa using hrounds) rfl, Option.map_some]

/-- Parents of other modules do not change the way back. -/
lemma LeadsBack.congr {parents' : Table String String} (h : LeadsBack parents path)
    (hsame : ∀ m ∈ path, parents'.get? m = parents.get? m) : LeadsBack parents' path := by
  induction h with
  | start hnone => exact .start ((hsame _ List.mem_cons_self).trans hnone)
  | extend _ hparent ih =>
    exact .extend (ih fun k hk => hsame k (List.mem_cons_of_mem _ hk))
      ((hsame _ List.mem_cons_self).trans hparent)

/-- The search with a queue keeps paths: the modules of the queue are their ends, in their order,
and the parents lead back along them. -/
structure Keeps (s : PathSearch) (seen : List String) (paths : List (List String)) : Prop where
  /-- The queue has the ends of the paths. -/
  queue_eq : s.queue.map some = paths.map List.head?
  /-- The same modules were found. -/
  seen_eq : s.seen = seen
  /-- The parents lead back along the paths. -/
  leadsBack : ∀ path ∈ paths, LeadsBack s.parents path

/-- The search at its beginning keeps the path that has not left the source. -/
lemma keeps_start (source : String) : (start source).Keeps [source] [[source]] where
  queue_eq := rfl
  seen_eq := rfl
  leadsBack _ hpath := List.mem_singleton.1 hpath ▸ .start (Table.get?_empty source)

/-- The queue begins with the end of the first path. -/
lemma Keeps.exists_queue (h : s.Keeps seen ((m :: path) :: paths)) :
    ∃ queue, s.queue = m :: queue := by
  have hends := h.queue_eq
  cases hs : s.queue with
  | nil => simp [hs] at hends
  | cons k queue =>
    rw [hs, List.map_cons, List.map_cons] at hends
    exact ⟨queue, by rw [Option.some.inj (List.cons.inj hends).1]⟩

/-- **One step**: what is found behind a module ends the paths that its path leads to. -/
lemma Keeps.expand {queue : List String} (h : s.Keeps seen ((m :: path) :: paths))
    (hfrontier : g.Frontier within source seen ((m :: path) :: paths))
    (hqueue : s.queue = m :: queue) :
    ((g.dependencies m).foldl (find within m) { s with queue }).Keeps
      (seen ++ g.found within seen m)
      (paths ++ (g.found within seen m).map (· :: m :: path)) := by
  obtain ⟨hends, hseen, hback⟩ := h
  rw [hqueue, List.map_cons, List.map_cons] at hends
  rw [foldl_find (nodup_dependencies g m)]
  have hfound : ((g.dependencies m).filter fun n => within n && !s.seen.contains n) =
      g.found within seen m := by rw [hseen, found]
  simp only [hfound]
  have hsame : ∀ k ∈ seen, ((g.found within seen m).foldl
      (fun parents n => parents.insert n m) s.parents).get? k = s.parents.get? k := by
    intro k hk
    rw [Table.get?_foldl_insert (fun _ => m), if_neg]
    exact fun hnew => (mem_found.1 hnew).2 hk
  have hkept : ∀ older ∈ (m :: path) :: paths, LeadsBack ((g.found within seen m).foldl
      (fun parents n => parents.insert n m) s.parents) older := fun older holder =>
    (hback older holder).congr fun k hk => hsame k (hfrontier.subset_seen older holder hk)
  refine ⟨?_, by rw [hseen], fun longer hlonger => ?_⟩
  · rw [List.map_append, List.map_append, (List.cons.inj hends).2, List.map_map]
    rfl
  · rcases List.mem_append.1 hlonger with hlonger | hlonger
    · exact hkept longer (List.mem_cons_of_mem _ hlonger)
    · obtain ⟨n, hn, rfl⟩ := List.mem_map.1 hlonger
      refine .extend (hkept _ List.mem_cons_self) ?_
      rw [Table.get?_foldl_insert (fun _ => m), if_pos hn]

/-- **A whole layer**: the search goes on from the paths of the next one, if the target is none of
the modules that it looks at. -/
lemma Keeps.layer (rounds : ℕ) (h : s.Keeps seen (current ++ behind))
    (hfrontier : g.Frontier within source seen (current ++ behind))
    (hnone : ∀ path ∈ current, path.head? ≠ some target) :
    ∃ s' : PathSearch, s'.Keeps (g.extendPaths within seen current).2
        (behind ++ (g.extendPaths within seen current).1) ∧
      run g target within (rounds + current.length) s = run g target within rounds s' := by
  induction current generalizing s seen behind with
  | nil => exact ⟨s, by simpa [Graph.extendPaths] using h, rfl⟩
  | cons first current ih =>
    obtain ⟨m, path, rfl⟩ : ∃ m path, first = m :: path := by
      cases hfrontier.pathFrom first List.mem_cons_self <;> exact ⟨_, _, rfl⟩
    rw [List.cons_append] at h hfrontier
    obtain ⟨queue, hqueue⟩ := h.exists_queue
    have hkeeps := h.expand hfrontier hqueue
    have hexpand := hfrontier.expand
    rw [List.append_assoc] at hkeeps hexpand
    obtain ⟨s', hs', hrun⟩ := ih hkeeps hexpand fun path hpath =>
      hnone path (List.mem_cons_of_mem _ hpath)
    rw [extendPaths_cons, ← List.append_assoc]
    refine ⟨s', hs', ?_⟩
    have hm : m ≠ target := fun heq => hnone _ List.mem_cons_self (congrArg some heq)
    rw [← hrun, List.length_cons, ← Nat.add_assoc, run, hqueue]
    exact if_neg hm

/-- The search goes on from the next layer, if the target is not in this one. -/
lemma Keeps.next (rounds : ℕ) (h : s.Keeps seen paths)
    (hfrontier : g.Frontier within source seen paths)
    (hnone : paths.find? (fun path => path.head? == some target) = none) :
    ∃ s' : PathSearch,
      s'.Keeps (g.extendPaths within seen paths).2 (g.extendPaths within seen paths).1 ∧
        run g target within (rounds + paths.length) s = run g target within rounds s' := by
  rw [← List.append_nil paths] at h hfrontier
  simpa using h.layer rounds hfrontier (by simpa using hnone)

/-- A search of which the queue is empty ends. -/
lemma Keeps.run_nil {steps : ℕ} (h : s.Keeps seen []) (hsteps : 0 < steps) :
    run g target within steps s = some none := by
  obtain ⟨steps, rfl⟩ := Nat.exists_eq_succ_of_ne_zero (Nat.ne_of_gt hsteps)
  have hqueue : s.queue = [] := List.map_eq_nil_iff.1 h.queue_eq
  rw [run, hqueue]

/-- A search that looks at the target goes back from it along the path. -/
lemma Keeps.run_found {steps : ℕ} (h : s.Keeps seen (path :: paths))
    (hfrontier : g.Frontier within source seen (path :: paths)) (hend : path.head? = some target)
    (hsteps : 0 < steps) : run g target within steps s = some (some path.reverse) := by
  obtain ⟨steps, rfl⟩ := Nat.exists_eq_succ_of_ne_zero (Nat.ne_of_gt hsteps)
  obtain ⟨rest, rfl⟩ := List.head?_eq_some_iff.1 hend
  have hlength : (target :: rest).length ≤ g.modules.length + 1 :=
    (List.subperm_of_subset (hfrontier.nodup _ List.mem_cons_self)
      (List.Subset.trans (hfrontier.subset_seen _ List.mem_cons_self)
        hfrontier.seen_subset)).length_le
  obtain ⟨queue, hqueue⟩ : ∃ queue, s.queue = target :: queue := h.exists_queue
  rw [run, hqueue]
  simp only [if_true, (h.leadsBack _ List.mem_cons_self).wayBack_eq hlength, Option.map_some]

/-- **The queue leads to the same path**, if there are rounds for all that is in the queue and all
that can still be found.

**Proof sketch.** Induction along the search by layers. If a path of the layer ends in the target,
the search with the queue looks at the ends of the paths before it, and then goes back from the
target along the path. Otherwise it looks at the whole layer, and goes on with the next one. -/
lemma run_eq_searchPath (rounds : ℕ) {steps : ℕ} (h : s.Keeps seen paths)
    (hfrontier : g.Frontier within source seen paths)
    (hrounds : g.modules.length + 1 ≤ seen.length + rounds)
    (hsteps : paths.length + (g.modules.length + 1) < steps + seen.length) :
    run g target within steps s = some (g.searchPath target within rounds seen paths) := by
  have hseen := hfrontier.length_seen_le
  obtain ⟨left, rfl⟩ : ∃ left, steps = left + paths.length := ⟨steps - paths.length, by omega⟩
  fun_induction searchPath g target within rounds seen paths generalizing s left with
  | case1 rounds seen paths path hfound =>
    obtain ⟨hend, before, after, rfl, hbefore⟩ := List.find?_eq_some_iff_append.1 hfound
    obtain ⟨s', hs', hrun⟩ := h.layer (left + (path :: after).length) hfrontier
      fun path hpath => by simpa using hbefore path hpath
    have hbehind := hfrontier.extendPaths
    rw [List.length_append, Nat.add_comm before.length, ← Nat.add_assoc, hrun]
    exact hs'.run_found hbehind (by simpa using hend) (Nat.succ_pos _)
  | case2 seen paths hnone =>
    obtain ⟨s', hs', hrun⟩ := h.next left hfrontier hnone
    have hnext := hfrontier.next.length_seen_le
    rw [length_seen_extendPaths] at hnext
    rw [List.length_eq_zero_iff.1 (by omega : (g.extendPaths within seen paths).1.length = 0)]
      at hs'
    rw [hrun]
    exact hs'.run_nil (by omega)
  | case3 seen paths hnone rounds next seen' hextend hempty =>
    obtain ⟨s', hs', hrun⟩ := h.next left hfrontier hnone
    rw [hextend, List.isEmpty_iff.1 hempty] at hs'
    rw [hrun]
    exact hs'.run_nil (by omega)
  | case4 seen paths hnone rounds next seen' hextend hempty ih =>
    obtain ⟨s', hs', hrun⟩ := h.next left hfrontier hnone
    have hnext := hfrontier.next
    have hlength : (g.extendPaths within seen paths).2.length =
        seen.length + (g.extendPaths within seen paths).1.length :=
      length_seen_extendPaths seen paths
    rw [hextend] at hs' hnext hlength
    dsimp only at hs' hnext hlength
    have hle := hnext.length_seen_le
    have hpos : 0 < next.length := List.length_pos_iff.2 fun h => hempty (List.isEmpty_iff.2 h)
    obtain ⟨left, rfl⟩ : ∃ left', left = left' + next.length := ⟨left - next.length, by omega⟩
    rw [hrun]
    exact ih hs' hnext (by omega) hle left (by omega)

end PathSearch

/-- **Shortest paths.** Whatever the graph, the modules and the set, the search with a queue ends
after at most as many rounds as the graph has modules, and two more; it finds a path exactly if
there is a walk from the source to the target of which all modules but the first belong to the set.
The path is such a walk, passes no module twice, and is not longer than any other one. -/
theorem pathWithin_shortest (g : Graph) (source target : String) (within : String → Bool) :
    PathSearch.run g target within (g.modules.length + 2) (PathSearch.start source) =
      some (g.pathWithin source target within) ∧
    ((∃ path, g.pathWithin source target within = some path) ↔
      ∃ walk, g.WalkWithin within source target walk) ∧
    ∀ path, g.pathWithin source target within = some path →
      g.WalkWithin within source target path ∧ path.Nodup ∧
        ∀ walk, g.WalkWithin within source target walk → path.length ≤ walk.length := by
  have hshortest : ∀ path, g.pathWithin source target within = some path →
      g.WalkWithin within source target path ∧ path.Nodup ∧
        ∀ walk, g.WalkWithin within source target walk → path.length ≤ walk.length := by
    intro path hpath
    obtain ⟨back, rfl, hback, hend, hnodup, hleast⟩ := shortest_searchPath _
      (shortest_start g within source target) (frontier_start g within source) hpath
    refine ⟨walkWithin_reverse_iff.2 ⟨hback, hend⟩, List.nodup_reverse.2 hnodup,
      fun walk hwalk => ?_⟩
    rw [← walk.reverse_reverse, walkWithin_reverse_iff] at hwalk
    rw [List.length_reverse, ← walk.length_reverse]
    exact hleast _ hwalk.1 hwalk.2
  refine ⟨?_, ⟨fun ⟨path, hpath⟩ => ⟨path, (hshortest path hpath).1⟩, fun ⟨walk, hwalk⟩ => ?_⟩,
    hshortest⟩
  · have hseen : [source].length = 1 := rfl
    have hpaths : [[source]].length = 1 := rfl
    exact PathSearch.run_eq_searchPath _ (PathSearch.keeps_start source)
      (frontier_start g within source) (by omega) (by omega)
  · rw [← walk.reverse_reverse, walkWithin_reverse_iff] at hwalk
    exact exists_pathWithin (hwalk.1.reflTransGen hwalk.2)

/-- The direct way is found, although there is a detour. -/
theorem pathWithin_shortest_detour :
    let g := ofLists [] [⟨"A", "B"⟩, ⟨"B", "C"⟩, ⟨"C", "A"⟩, ⟨"A", "C"⟩]
    let within := fun m => ["A", "B", "C"].contains m
    g.pathWithin "A" "C" within = some ["A", "C"] ∧
    PathSearch.run g "C" within 5 (.start "A") = some (some ["A", "C"]) ∧
    g.WalkWithin within "A" "C" ["A", "B", "C"] ∧ g.WalkWithin within "A" "C" ["A", "C"] ∧
    ∀ walk, g.WalkWithin within "A" "C" walk → 2 ≤ walk.length := by
  intro g within
  have hpath : g.pathWithin "A" "C" within = some ["A", "C"] := by decide
  obtain ⟨hrun, -, hshortest⟩ := pathWithin_shortest g "A" "C" within
  obtain ⟨hwalk, -, hleast⟩ := hshortest _ hpath
  have hfirst : Edge.mk "A" "B" ∈ g.edges := by decide
  have hsecond : Edge.mk "B" "C" ∈ g.edges := by decide
  have hdetour : g.WalkWithin within "A" "C" ["A", "B", "C"] :=
    ⟨rfl, rfl, .cons_cons ⟨hfirst, by decide⟩ (.cons_cons ⟨hsecond, by decide⟩ (.singleton "C"))⟩
  exact ⟨hpath, hpath ▸ hrun, hdetour, hwalk, hleast⟩

end BindingRules.Graph
