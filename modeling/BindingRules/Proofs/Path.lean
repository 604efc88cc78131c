import BindingRules.Proofs.Reachability
import Mathlib.Data.List.Chain

set_option relaxedAutoImplicit false
set_option autoImplicit false

/-!
# Paths inside a set of modules

The search for a path keeps all paths of one length that end in modules not seen before. It finds a
path as soon as a walk exists, since nothing that was seen is lost on the way.

## Main definitions

* `Graph.NeedsWithin` — edges into a set of modules.
* `Graph.PathFrom` — paths as the search builds them, last module first.
* `Graph.Layer` — what the paths of one length and the modules seen so far have in common.

## Main results

* `Graph.pathWithin_sound` — a path that is found runs along edges from the source to the target.
* `Graph.exists_pathWithin` — a path is found if there is a walk.
-/

namespace BindingRules.Graph

open Relation

variable {g : Graph} {within : String → Bool} {source target m n : String}
  {seen path : List String} {paths : List (List String)}

/-- The first module needs the second one, which belongs to the set. -/
def NeedsWithin (g : Graph) (within : String → Bool) (a b : String) : Prop :=
  g.Needs a b ∧ within b = true

/-- A path from `source`, given last module first, of which all modules but the first belong to the
set. -/
inductive PathFrom (g : Graph) (within : String → Bool) (source : String) : List String → Prop
  /-- The path that has not left its source. -/
  | start : PathFrom g within source [source]
  /-- A path that is one edge longer. -/
  | extend {m n : String} {path : List String} : PathFrom g within source (m :: path) →
      g.NeedsWithin within m n → PathFrom g within source (n :: m :: path)

/-- Read from its source, a path runs along edges. -/
lemma PathFrom.isChain (h : g.PathFrom within source path) : path.reverse.IsChain g.Needs := by
  rw [List.isChain_reverse]
  induction h with
  | start => exact .singleton source
  | extend _ hmn ih => exact .cons_cons hmn.1 ih

/-- A path begins at its source. -/
lemma PathFrom.head?_reverse (h : g.PathFrom within source path) :
    path.reverse.head? = some source := by
  rw [List.head?_reverse]
  induction h with
  | start => rfl
  | extend _ _ ih => rwa [List.getLast?_cons_cons]

/-! ## One layer -/

/-- The modules that are taken into the next layer behind one path. -/
lemma mem_fresh : n ∈ ((m :: path).head?.elim [] g.dependencies).filter
      (fun k => within k && !seen.contains k) ↔ g.NeedsWithin within m n ∧ n ∉ seen := by
  simp [NeedsWithin, Needs, mem_dependencies, and_assoc]

/-- All paths of the next layer are paths. -/
lemma pathFrom_extendPaths (seen : List String)
    (hpaths : ∀ path ∈ paths, g.PathFrom within source path)
    (hpath : path ∈ (g.extendPaths within seen paths).1) : g.PathFrom within source path := by
  induction paths generalizing seen with
  | nil => simp [extendPaths] at hpath
  | cons first paths ih =>
    rcases List.mem_append.1 hpath with hpath | hpath
    · obtain ⟨n, hn, rfl⟩ := List.mem_map.1 hpath
      have hfirst := hpaths first List.mem_cons_self
      cases hfirst with
      | start => exact .extend .start (mem_fresh.1 hn).1
      | extend h hm => exact .extend (.extend h hm) (mem_fresh.1 hn).1
    · exact ih _ (fun path h => hpaths path (List.mem_cons_of_mem _ h)) hpath

/-- The next layer adds to what is seen exactly the ends of its paths. -/
lemma mem_seen_extendPaths : n ∈ (g.extendPaths within seen paths).2 ↔
    n ∈ seen ∨ ∃ path ∈ (g.extendPaths within seen paths).1, path.head? = some n := by
  induction paths generalizing seen with
  | nil => simp [extendPaths]
  | cons first paths ih =>
    simp only [extendPaths, ih, List.mem_append, List.mem_map, or_assoc]
    refine or_congr_right ⟨?_, ?_⟩
    · rintro (hn | ⟨path, hpath, hn⟩)
      · exact ⟨n :: first, .inl ⟨n, hn, rfl⟩, rfl⟩
      · exact ⟨path, .inr hpath, hn⟩
    · rintro ⟨path, ⟨k, hk, rfl⟩ | hpath, hn⟩
      · exact .inl (Option.some.inj hn ▸ hk)
      · exact .inr ⟨path, hpath, hn⟩

/-- Everything behind the end of a path is seen with the next layer. -/
lemma mem_seen_of_needsWithin (hpath : m :: path ∈ paths) (hmn : g.NeedsWithin within m n) :
    n ∈ (g.extendPaths within seen paths).2 := by
  induction paths generalizing seen with
  | nil => exact absurd hpath List.not_mem_nil
  | cons first paths ih =>
    rcases List.mem_cons.1 hpath with rfl | hpath
    · refine mem_seen_extendPaths.2 ?_
      by_cases hn : n ∈ seen
      · exact .inl hn
      · exact .inr ⟨n :: m :: path,
          List.mem_append_left _ (List.mem_map.2 ⟨n, mem_fresh.2 ⟨hmn, hn⟩, rfl⟩), rfl⟩
    · exact ih hpath

/-! ## The search -/

/-- A path that is found is one from the source to the target. -/
lemma searchPath_sound (rounds : ℕ) (hpaths : ∀ path ∈ paths, g.PathFrom within source path)
    (h : g.searchPath target within rounds seen paths = some path) :
    ∃ found, g.PathFrom within source found ∧ found.head? = some target ∧
      path = found.reverse := by
  fun_induction searchPath g target within rounds seen paths with
  | case1 rounds seen paths found hfound =>
    exact ⟨found, hpaths found (List.mem_of_find?_eq_some hfound),
      by simpa using List.find?_some hfound, (Option.some.inj h).symm⟩
  | case2 => simp at h
  | case3 => simp at h
  | case4 seen paths _ rounds next seen' hextend _ ih =>
    refine ih (fun path hpath => pathFrom_extendPaths seen hpaths ?_) h
    rwa [hextend]

/-- What holds of each layer of the search: only behind the ends of its paths there may be modules
that are not seen, and the target is one of these ends if it is seen. -/
structure Layer (g : Graph) (within : String → Bool) (target : String) (seen : List String)
    (paths : List (List String)) : Prop where
  /-- Behind all other modules everything is seen. -/
  behind : ∀ m ∈ seen, (∃ path ∈ paths, path.head? = some m) ∨
    ∀ n, g.NeedsWithin within m n → n ∈ seen
  /-- The target is not older than the layer. -/
  target_end : target ∈ seen → ∃ path ∈ paths, path.head? = some target

/-- The next layer behind one that does not hold the target. -/
lemma Layer.next (h : g.Layer within target seen paths) (htarget : target ∉ seen) :
    g.Layer within target (g.extendPaths within seen paths).2
      (g.extendPaths within seen paths).1 where
  behind m hm := by
    rcases mem_seen_extendPaths.1 hm with hm | hm
    · refine .inr fun n hmn => ?_
      rcases h.behind m hm with ⟨path, hpath, hend⟩ | hclosed
      · obtain ⟨rest, rfl⟩ := List.head?_eq_some_iff.1 hend
        exact mem_seen_of_needsWithin hpath hmn
      · exact mem_seen_extendPaths.2 (.inl (hclosed n hmn))
    · exact .inl hm
  target_end ht := (mem_seen_extendPaths.1 ht).resolve_left htarget

/-- A target that is not the end of a path is not seen. -/
lemma Layer.target_notMem (h : g.Layer within target seen paths)
    (hnone : paths.find? (fun path => path.head? == some target) = none) : target ∉ seen := by
  intro ht
  obtain ⟨path, hpath, hend⟩ := h.target_end ht
  simpa [hend] using List.find?_eq_none.1 hnone path hpath

/-- While a walk leads from what is seen to a target that is not, the next layer sees more. -/
lemma Layer.exists_fresh (h : g.Layer within target seen paths) (htarget : target ∉ seen)
    (hm : m ∈ seen) (hwalk : ReflTransGen (g.NeedsWithin within) m target) :
    ∃ n ∈ g.modules, n ∉ seen ∧ n ∈ (g.extendPaths within seen paths).2 := by
  obtain ⟨c, d, hc, hcd, hd, -⟩ := exists_leaving (S := (· ∈ seen)) hwalk hm htarget
  refine ⟨d, hcd.1.target_mem, hd, ?_⟩
  rcases h.behind c hc with ⟨path, hpath, hend⟩ | hclosed
  · obtain ⟨rest, rfl⟩ := List.head?_eq_some_iff.1 hend
    exact mem_seen_of_needsWithin hpath hcd
  · exact absurd (hclosed d hcd) hd

/-- **The search is complete**: with a round for each module that is not seen, it finds a path if a
walk leads from something seen to the target.

**Proof sketch.** Induction along the search. If no path of the layer ends in the target, the target
is not seen, so the walk uses an edge from a module that is seen to one that is not. This edge
starts at the end of a path, and the next layer sees one module more. -/
lemma exists_searchPath (rounds : ℕ) (hlayer : g.Layer within target seen paths)
    (hrounds : unseen g.modules seen ≤ rounds) (hm : m ∈ seen)
    (hwalk : ReflTransGen (g.NeedsWithin within) m target) :
    ∃ path, g.searchPath target within rounds seen paths = some path := by
  fun_induction searchPath g target within rounds seen paths with
  | case1 => exact ⟨_, rfl⟩
  | case2 seen paths hnone =>
    obtain ⟨n, hn, hns, -⟩ := hlayer.exists_fresh (hlayer.target_notMem hnone) hm hwalk
    exact absurd (mem_of_unseen_eq_zero (Nat.le_zero.1 hrounds) hn) hns
  | case3 seen paths hnone rounds next seen' hextend hempty =>
    obtain ⟨n, -, hns, hn⟩ := hlayer.exists_fresh (hlayer.target_notMem hnone) hm hwalk
    obtain ⟨path, hpath, -⟩ := (mem_seen_extendPaths.1 hn).resolve_left hns
    rw [hextend, List.isEmpty_iff.1 hempty] at hpath
    exact absurd hpath List.not_mem_nil
  | case4 seen paths hnone rounds next seen' hextend _ ih =>
    have htarget := hlayer.target_notMem hnone
    obtain ⟨n, hn, hns, hns'⟩ := hlayer.exists_fresh htarget hm hwalk
    have hsub : seen ⊆ (g.extendPaths within seen paths).2 :=
      fun x hx => mem_seen_extendPaths.2 (.inl hx)
    have hlt := unseen_lt hsub hn hns hns'
    have hnext := hlayer.next htarget
    rw [hextend] at hsub hlt hnext
    exact ih hnext (Nat.le_of_lt_succ (hlt.trans_le hrounds)) (hsub hm)

/-- A path that is found runs along edges from the source to the target. -/
lemma pathWithin_sound (h : g.pathWithin source target within = some path) :
    path.IsChain g.Needs ∧ path.head? = some source ∧ path.getLast? = some target := by
  have hstart : ∀ path ∈ [[source]], g.PathFrom within source path := by
    simpa using PathFrom.start
  obtain ⟨found, hfound, hend, rfl⟩ := searchPath_sound _ hstart h
  exact ⟨hfound.isChain, hfound.head?_reverse, by rwa [List.getLast?_reverse]⟩

/-- A path is found if a walk leads from the source to the target along edges into the set. -/
lemma exists_pathWithin (h : ReflTransGen (g.NeedsWithin within) source target) :
    ∃ path, g.pathWithin source target within = some path := by
  refine exists_searchPath _ ⟨fun m hm => .inl ?_, fun ht => ?_⟩ (unseen_le_length _ _)
    List.mem_cons_self h
  · exact ⟨[source], List.mem_singleton_self _, by simp [List.mem_singleton.1 hm]⟩
  · exact ⟨[source], List.mem_singleton_self _, by simp [List.mem_singleton.1 ht]⟩

end BindingRules.Graph
