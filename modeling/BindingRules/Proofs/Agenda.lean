import BindingRules.Graph.Ordering
import BindingRules.Proofs.Reachability
import Mathlib.Data.List.Nodup

set_option relaxedAutoImplicit false
set_option autoImplicit false

/-!
# The agenda of the schedule

The schedule does not look at all modules again in each step. It counts for each module how many
others the module waits for, and keeps those that wait for none in their order. Both are what a
look at the modules placed so far would give.

## Main definitions

* `Graph.Ready`, `Graph.waits` — which modules may come next, and how many others each one waits
  for, in terms of the modules placed so far.
* `Graph.Agenda.Reflects` — an agenda that agrees with the modules placed so far.

## Main results

* `Graph.Agenda.reflects_agenda` — the first agenda.
* `Graph.Agenda.reflects_place` — the agenda after one more module.
-/

namespace BindingRules.Graph

variable {g : Graph} {rank : String → Rank} {emitted xs : List String} {a : Agenda}
  {m n x d : String} {k : Rank}

/-! ## Waiting -/

/-- A module may come behind those in `emitted`: it is not among them, and all it needs is. -/
def Ready (g : Graph) (emitted : List String) (m : String) : Prop :=
  m ∉ emitted ∧ ∀ d, g.Needs m d → d ∈ emitted

/-- How many of the modules that a module needs are not among those in `emitted`. -/
def waits (g : Graph) (emitted : List String) (m : String) : ℕ :=
  ((g.dependencies m).filter (· ∉ emitted)).length

/-- A module waits for none if all it needs is placed. -/
lemma waits_eq_zero_iff : g.waits emitted m = 0 ↔ ∀ d, g.Needs m d → d ∈ emitted := by
  simp [waits, mem_dependencies, Needs]

/-- One more module placed is one less to wait for, for the modules that need it. -/
lemma waits_cons_of_needs (hm : m ∉ emitted) (hx : g.Needs x m) :
    g.waits (m :: emitted) x = g.waits emitted x - 1 := by
  have hmem : m ∈ (g.dependencies x).filter (· ∉ emitted) := by
    simp only [List.mem_filter, mem_dependencies, decide_eq_true_eq]
    exact ⟨hx, hm⟩
  have hnodup : ((g.dependencies x).filter (· ∉ emitted)).Nodup := (nodup_dependencies g x).filter _
  rw [waits, waits, ← List.length_erase_of_mem hmem, hnodup.erase_eq_filter, List.filter_filter]
  refine congrArg List.length (List.filter_congr fun d _ => ?_)
  by_cases hd : d = m <;> simp [hd]

/-- For the other modules nothing changes. -/
lemma waits_cons_of_not_needs (hx : ¬ g.Needs x m) :
    g.waits (m :: emitted) x = g.waits emitted x := by
  refine congrArg List.length (List.filter_congr fun d hd => ?_)
  have hne : d ≠ m := fun h => hx (h ▸ mem_dependencies.1 hd)
  simp [hne]

/-- What was ready stays ready, apart from the module that is placed. -/
lemma ready_cons_of_not_needs (hx : ¬ g.Needs x m) :
    g.Ready (m :: emitted) x ↔ g.Ready emitted x ∧ x ≠ m := by
  have hne : ∀ d, g.Needs x d → d ≠ m := fun d hd h => hx (h ▸ hd)
  simp only [Ready, List.mem_cons, not_or]
  constructor
  · rintro ⟨⟨hxm, hxe⟩, hneeds⟩
    exact ⟨⟨hxe, fun d hd => (hneeds d hd).resolve_left (hne d hd)⟩, hxm⟩
  · rintro ⟨⟨hxe, hneeds⟩, hxm⟩
    exact ⟨⟨hxm, hxe⟩, fun d hd => .inr (hneeds d hd)⟩

/-- A module that needs the one that is placed becomes ready if it waits for no other one. -/
lemma ready_cons_of_needs (hm : m ∉ emitted) (hx : g.Needs x m) :
    g.Ready (m :: emitted) x ↔ g.waits emitted x - 1 = 0 ∧ x ∉ m :: emitted := by
  rw [Ready, ← waits_eq_zero_iff, waits_cons_of_needs hm hx, and_comm]

/-! ## Agendas -/

namespace Agenda

/-- The agenda agrees with the modules placed so far. -/
structure Reflects (g : Graph) (rank : String → Rank) (emitted : List String) (a : Agenda) :
    Prop where
  /-- The counters say how many others each module waits for. -/
  pending : ∀ m ∈ g.modules, a.pending.get? m = some (g.waits emitted m)
  /-- The modules that may come next are in their order. -/
  increasing : Increasing Rank.lt a.ready
  /-- The modules that may come next are those that are ready. -/
  mem_ready : ∀ k, k ∈ a.ready ↔ ∃ m ∈ g.modules, g.Ready emitted m ∧ k = rank m

/-- The first of the modules that may come next is ready, none that is ready has a lesser rank, and
the others are those that may come next besides. -/
lemma Reflects.head {ready : List Rank} (ha : Reflects g rank emitted a)
    (hrank : ∀ m, (rank m).name = m) (hready : a.ready = k :: ready) :
    ∃ m ∈ g.modules, g.Ready emitted m ∧ k = rank m ∧
      (∀ n ∈ g.modules, g.Ready emitted n → Rank.lt (rank n) (rank m) = false) ∧
      ∀ k', k' ∈ ready ↔ ∃ x ∈ g.modules, (g.Ready emitted x ∧ x ≠ m) ∧ k' = rank x := by
  have hmem := ha.mem_ready
  have hincreasing := ha.increasing
  rw [hready] at hmem hincreasing
  obtain ⟨hbehind, -⟩ := List.pairwise_cons.1 hincreasing
  obtain ⟨m, hm, hfree, rfl⟩ := (hmem k).1 List.mem_cons_self
  refine ⟨m, hm, hfree, rfl, fun n hn hnfree => ?_, fun k' => ⟨fun hk' => ?_, ?_⟩⟩
  · rcases List.mem_cons.1 ((hmem _).2 ⟨n, hn, hnfree, rfl⟩) with heq | hn
    · rw [heq, Rank.strictTotal_lt.irrefl]
    · exact Rank.strictTotal_lt.asymm (hbehind _ hn)
  · obtain ⟨x, hx, hxfree, rfl⟩ := (hmem k').1 (List.mem_cons_of_mem _ hk')
    refine ⟨x, hx, ⟨hxfree, fun hxm => ?_⟩, rfl⟩
    have hlt := hbehind _ hk'
    rw [hxm, Rank.strictTotal_lt.irrefl] at hlt
    exact Bool.noConfusion hlt
  · rintro ⟨x, hx, ⟨hxfree, hxm⟩, rfl⟩
    refine (List.mem_cons.1 ((hmem _).2 ⟨x, hx, hxfree, rfl⟩)).resolve_left fun heq => hxm ?_
    rw [← hrank x, heq, hrank m]

/-- If none may come next, no module is ready. -/
lemma Reflects.not_ready (ha : Reflects g rank emitted a) (hready : a.ready = []) :
    ∀ m ∈ g.modules, ¬ g.Ready emitted m := by
  intro m hm hfree
  have hmem := (ha.mem_ready (rank m)).2 ⟨m, hm, hfree, rfl⟩
  rw [hready] at hmem
  exact List.not_mem_nil hmem

/-- What several modules change that are released: their counters, and, if they wait for none any
more, the modules that may come next. -/
lemma foldl_release (hxs : xs.Nodup) (a : Agenda) (count : String → ℕ)
    (hcount : ∀ x ∈ xs, a.pending.get? x = some (count x)) :
    (∀ n, (xs.foldl (release rank emitted) a).pending.get? n =
      if n ∈ xs then some (count n - 1) else a.pending.get? n) ∧
    (Increasing Rank.lt a.ready → Increasing Rank.lt (xs.foldl (release rank emitted) a).ready) ∧
    ∀ k, k ∈ (xs.foldl (release rank emitted) a).ready ↔
      k ∈ a.ready ∨ ∃ x ∈ xs, (count x - 1 = 0 ∧ x ∉ emitted) ∧ k = rank x := by
  induction xs generalizing a with
  | nil => simp
  | cons x xs ih =>
    obtain ⟨hx, hnodup⟩ := List.nodup_cons.1 hxs
    have hrelease : release rank emitted a x =
        { pending := a.pending.insert x (count x - 1)
          ready := if count x - 1 = 0 ∧ x ∉ emitted then Sorted.insert Rank.lt (rank x) a.ready
            else a.ready } := by
      simp only [release, hcount x List.mem_cons_self]
    have hcount' : ∀ y ∈ xs, (release rank emitted a x).pending.get? y = some (count y) := by
      intro y hy
      have hyx : y ≠ x := fun h => hx (h ▸ hy)
      rw [hrelease, Table.get?_insert, if_neg hyx]
      exact hcount y (List.mem_cons_of_mem _ hy)
    obtain ⟨hpending, hincreasing, hready⟩ := ih hnodup _ hcount'
    rw [List.foldl_cons]
    refine ⟨fun n => ?_, fun h => hincreasing ?_, fun k => ?_⟩
    · rw [hpending, hrelease, Table.get?_insert]
      by_cases hn : n = x
      · subst hn
        simp [hx]
      · simp [hn]
    · rw [hrelease]
      dsimp only
      split
      · exact Sorted.increasing_insert Rank.strictTotal_lt _ h
      · exact h
    · have hhead : k ∈ (release rank emitted a x).ready ↔
          k ∈ a.ready ∨ (count x - 1 = 0 ∧ x ∉ emitted) ∧ k = rank x := by
        rw [hrelease]
        dsimp only
        split
        · rename_i hfree
          rw [Sorted.mem_insert Rank.strictTotal_lt, or_comm]
          simp [hfree]
        · rename_i hfree
          simp [hfree]
      rw [hready, hhead, or_assoc]
      simp only [List.mem_cons, exists_eq_or_imp]

/-- **The agenda after one more module** agrees with the modules placed then, if it agreed with
those placed before, and the module has been taken from those that may come next. -/
lemma reflects_place (hm : m ∉ emitted)
    (hpending : ∀ x ∈ g.modules, a.pending.get? x = some (g.waits emitted x))
    (hincreasing : Increasing Rank.lt a.ready)
    (hready : ∀ k, k ∈ a.ready ↔ ∃ x ∈ g.modules, (g.Ready emitted x ∧ x ≠ m) ∧ k = rank x) :
    Reflects g rank (m :: emitted) (place g rank emitted a m) := by
  have hcount : ∀ x ∈ g.dependents m, a.pending.get? x = some (g.waits emitted x) :=
    fun x hx => hpending x (Needs.source_mem (mem_dependents.1 hx))
  obtain ⟨hp, hi, hr⟩ :=
    @foldl_release rank (m :: emitted) _ (nodup_dependents g m) a (g.waits emitted) hcount
  have hneeds : ∀ {x}, x ∈ g.dependents m ↔ g.Needs x m := mem_dependents
  refine ⟨fun x hx => ?_, hi hincreasing, fun k => ?_⟩
  · rw [place, hp]
    split
    · rename_i hxm
      rw [waits_cons_of_needs hm (hneeds.1 hxm)]
    · rename_i hxm
      rw [waits_cons_of_not_needs fun h => hxm (hneeds.2 h), hpending x hx]
  · rw [place, hr, hready]
    constructor
    · rintro (⟨x, hx, hfree, hk⟩ | ⟨x, hxm, hfree, hk⟩)
      · have hnot : ¬ g.Needs x m := fun h => hm (hfree.1.2 m h)
        exact ⟨x, hx, (ready_cons_of_not_needs hnot).2 hfree, hk⟩
      · have hx := hneeds.1 hxm
        exact ⟨x, hx.source_mem, (ready_cons_of_needs hm hx).2 hfree, hk⟩
    · rintro ⟨x, hx, hfree, hk⟩
      by_cases hxm : g.Needs x m
      · exact .inr ⟨x, hneeds.2 hxm, (ready_cons_of_needs hm hxm).1 hfree, hk⟩
      · exact .inl ⟨x, hx, (ready_cons_of_not_needs hxm).1 hfree, hk⟩

/-- The first agenda agrees with no module being placed. -/
lemma reflects_agenda (g : Graph) (rank : String → Rank) : Reflects g rank [] (g.agenda rank) where
  pending m hm := by
    rw [agenda, Table.get?_foldl_insert (fun m => (g.dependencies m).length), if_pos hm]
    simp [waits]
  increasing := Sorted.increasing_ofList Rank.strictTotal_lt _
  mem_ready k := by
    have hfree : ∀ m, (g.dependencies m).isEmpty = true ↔ g.Ready [] m := by
      intro m
      simp [Ready, List.eq_nil_iff_forall_not_mem, mem_dependencies, Needs]
    simp only [agenda, Sorted.mem_ofList Rank.strictTotal_lt, List.mem_map, List.mem_filter, hfree]
    constructor
    · rintro ⟨m, ⟨hm, hready⟩, rfl⟩
      exact ⟨m, hm, hready, rfl⟩
    · rintro ⟨m, hm, hready, rfl⟩
      exact ⟨m, ⟨hm, hready⟩, rfl⟩

end Agenda

end BindingRules.Graph
