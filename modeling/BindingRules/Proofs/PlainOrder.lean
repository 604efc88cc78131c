import Mathlib
import BindingRules.Proofs.Requirements
import BindingRules.Proofs.Schedule

set_option relaxedAutoImplicit false
set_option autoImplicit false

/-!
# The generation order, computed afresh in every step

The plain way to the generation order keeps nothing from one step to the next: it looks at all
modules that are left, takes the first one of those that wait for nothing, and if there are none,
the first one of those on cycles that wait for nothing else. The schedule with its counters, its
sorted list of ready modules and its components comes to the same order.

## Main definitions

* `Graph.CycleMember` — modules on cycles that wait for nothing outside their component.
* `ReadyKey`, `Graph.readyKey`, `Ranking.cycleKey` — by what the modules that may come next are
  compared.
* `Graph.plainNext`, `Graph.plainOrder` — the plain way to the next module, and to all of them.

## Main results

* `Graph.plainNext_of_chosen` — a step of the schedule chooses the plain way.
* `Graph.map_fst_schedule` — the schedule comes to the plain order, wherever it begins.
* `Graph.order_eq_plainOrder` — the generation order is the plain order.
-/

namespace BindingRules

open Relation

/-- By what the modules on cycles are compared: the first mention, and then the name. A module that
is not mentioned has `infinity` in place of its mention. -/
def Ranking.cycleKey (r : Ranking) (infinity : ℕ∞) (m : String) : ℕ∞ ×ₗ String :=
  toLex ((r.mention m).elim infinity (↑), m)

/-- By what the modules that are ready are compared: whether they have no priority, the priority,
the name in small letters, and the name. -/
def ReadyKey : Type := Bool ×ₗ ℤ ×ₗ String ×ₗ String

-- the order of the integers is named here: not all that can be found for it are computable
instance : LinearOrder ReadyKey :=
  letI : LinearOrder ℤ := Int.instLinearOrder
  inferInstanceAs (LinearOrder (Bool ×ₗ ℤ ×ₗ String ×ₗ String))

namespace Graph

variable {g : Graph} {r : Ranking} {infinity : ℕ∞} {a b m : String} {forced : Bool}
  {emitted : List String} {plan : Agenda}

/-! ## The plain way -/

/-- When the modules in `emitted` are placed, the module lies on a cycle of modules that are left,
and no member of its component among these needs a module that is left outside the component. -/
structure CycleMember (g : Graph) (emitted : List String) (m : String) : Prop where
  /-- The module lies on a cycle of modules that are left. -/
  cyclic : TransGen (g.rest emitted).Needs m m
  /-- What the members of its component need is placed, or in the component. -/
  closed : ∀ a ∈ (g.rest emitted).component m, ∀ b, g.Needs a b →
    b ∈ emitted ∨ b ∈ (g.rest emitted).component m

instance (g : Graph) (a b : String) : Decidable (TransGen g.Needs a b) :=
  decidable_of_iff (∃ d ∈ g.dependencies a, g.Reaches d b) <| by
    simp only [TransGen.head'_iff, mem_dependencies, Needs, Reaches]

instance (g : Graph) (emitted : List String) (m : String) : Decidable (g.Ready emitted m) :=
  decidable_of_iff (m ∉ emitted ∧ ∀ d ∈ g.dependencies m, d ∈ emitted) <| by
    simp only [Ready, mem_dependencies, Needs]

instance (g : Graph) (emitted : List String) (m : String) : Decidable (g.CycleMember emitted m) :=
  decidable_of_iff (TransGen (g.rest emitted).Needs m m ∧
      ∀ a ∈ (g.rest emitted).component m, ∀ b ∈ g.dependencies a,
        b ∈ emitted ∨ b ∈ (g.rest emitted).component m) <| by
    simp only [mem_dependencies]
    exact ⟨fun h => ⟨h.1, h.2⟩, fun h => ⟨h.1, h.2⟩⟩

/-- The key of a module that is ready, with the priority it has or inherits. -/
def readyKey (g : Graph) (r : Ranking) (m : String) : ReadyKey :=
  let priority := g.inheritedPriority r m
  toLex (priority.isNone, toLex (priority.getD 0, toLex (Text.lowercase m, m)))

/-- The module to place behind those in `emitted`: the first one that is ready, and if there is
none, the first one on a cycle that waits for nothing else. -/
def plainNext (g : Graph) (r : Ranking) (infinity : ℕ∞) (emitted : List String) : Option String :=
  ((g.modules.filter fun m => g.Ready emitted m).argmin (g.readyKey r)).or
    ((g.modules.filter fun m => g.CycleMember emitted m).argmin (r.cycleKey infinity))

/-- What is placed next is a module that is left. -/
lemma mem_of_plainNext (h : g.plainNext r infinity emitted = some m) :
    m ∈ g.modules ∧ m ∉ emitted := by
  rcases Option.or_eq_some_iff.1 h with h | ⟨-, h⟩
  · obtain ⟨hm, hready⟩ := List.mem_filter.1 (List.argmin_mem h)
    exact ⟨hm, (of_decide_eq_true hready).1⟩
  · obtain ⟨hm, hmember⟩ := List.mem_filter.1 (List.argmin_mem h)
    obtain ⟨x, hmx, -⟩ := TransGen.head'_iff.1 (of_decide_eq_true hmember).cyclic
    exact ⟨hm, (needs_rest.1 hmx).2.1⟩

/-- The modules in the order in which the plain way places them behind those in `emitted`, until
nothing can be placed any more. -/
def plainOrderFrom (g : Graph) (r : Ranking) (infinity : ℕ∞) (emitted : List String) :
    List String :=
  match _h : g.plainNext r infinity emitted with
  | none => []
  | some m => m :: g.plainOrderFrom r infinity (m :: emitted)
termination_by unseen g.modules emitted
decreasing_by
  obtain ⟨hm, hme⟩ := mem_of_plainNext _h
  exact unseen_lt (List.subset_cons_self _ _) hm hme List.mem_cons_self

/-- All modules in the order in which the plain way places them. -/
def plainOrder (g : Graph) (r : Ranking) (infinity : ℕ∞) : List String :=
  g.plainOrderFrom r infinity []

/-- When every module is placed, nothing is placed any more. -/
lemma plainOrderFrom_eq_nil (hall : ∀ m ∈ g.modules, m ∈ emitted) :
    g.plainOrderFrom r infinity emitted = [] := by
  rw [plainOrderFrom.eq_def]
  split
  · rfl
  · next m h =>
    obtain ⟨hm, hme⟩ := mem_of_plainNext h
    exact absurd (hall m hm) hme

/-- What is placed next comes in front of all that is placed behind it. -/
lemma plainOrderFrom_eq_cons (h : g.plainNext r infinity emitted = some m) :
    g.plainOrderFrom r infinity emitted = m :: g.plainOrderFrom r infinity (m :: emitted) := by
  rw [plainOrderFrom.eq_def]
  split
  · next hnone => rw [hnone] at h; cases h
  · next n hn =>
    obtain rfl : n = m := Option.some.inj (hn.symm.trans h)
    rfl

/-! ## Comparisons by keys -/

/-- Of elements with different keys, the one with the least key is found. -/
lemma argmin_eq_some_of_le {α β : Type} [LinearOrder β] {key : α → β} (hkey : key.Injective)
    {l : List α} {x : α} (hx : x ∈ l) (hle : ∀ y ∈ l, key x ≤ key y) : l.argmin key = some x := by
  cases hy : l.argmin key with
  | none => exact absurd hx (List.argmin_eq_none.1 hy ▸ List.not_mem_nil)
  | some y =>
    have hyx : key y ≤ key x := List.le_of_mem_argmin hx hy
    rw [hkey (le_antisymm hyx (hle y (List.argmin_mem hy)))]

/-- A comparison by different keys is strict and total. -/
lemma strictTotal_of_key {α β : Type} [LinearOrder β] {key : α → β} (hkey : key.Injective)
    {lt : α → α → Bool} (hlt : ∀ a b, lt a b = true ↔ key a < key b) : StrictTotal lt where
  irrefl a := by
    rw [← Bool.not_eq_true, hlt]
    exact lt_irrefl _
  trans hab hbc := (hlt _ _).2 (((hlt _ _).1 hab).trans ((hlt _ _).1 hbc))
  eq_of_not_lt hab hba := by
    rw [← Bool.not_eq_true, hlt, not_lt] at hab hba
    exact hkey (le_antisymm hba hab)

/-- Different modules have different keys. -/
lemma readyKey_injective (g : Graph) (r : Ranking) : (g.readyKey r).Injective := fun _ _ h =>
  congrArg (fun k : Bool ×ₗ ℤ ×ₗ String ×ₗ String => (ofLex (ofLex (ofLex k).2).2).2) h

/-- Different modules have different keys. -/
lemma cycleKey_injective (r : Ranking) (infinity : ℕ∞) : (r.cycleKey infinity).Injective :=
  fun _ _ h => congrArg (fun k => (ofLex k).2) h

/-- The key of a module is less than another one if it is at the first place where they differ. -/
lemma readyKey_lt_iff : g.readyKey r a < g.readyKey r b ↔
    (g.inheritedPriority r a).isNone < (g.inheritedPriority r b).isNone ∨
    (g.inheritedPriority r a).isNone = (g.inheritedPriority r b).isNone ∧
      ((g.inheritedPriority r a).getD 0 < (g.inheritedPriority r b).getD 0 ∨
      (g.inheritedPriority r a).getD 0 = (g.inheritedPriority r b).getD 0 ∧
        toLex (Text.lowercase a, a) < toLex (Text.lowercase b, b)) :=
  Prod.Lex.toLex_lt_toLex.trans
    (or_congr_right (and_congr_right fun _ => Prod.Lex.toLex_lt_toLex))

/-- Ranks are compared as the keys are. -/
lemma rank_lt_iff : Rank.lt (rankOf (g.effectivePriorities r) a)
    (rankOf (g.effectivePriorities r) b) = true ↔ g.readyKey r a < g.readyKey r b := by
  have hname : Rank.nameLt (rankOf (g.effectivePriorities r) a)
      (rankOf (g.effectivePriorities r) b) = true ↔
        toLex (Text.lowercase a, a) < toLex (Text.lowercase b, b) := by
    simp [Rank.nameLt, pairLt, rankOf, textLt, Prod.Lex.toLex_lt_toLex]
  simp only [readyKey_lt_iff, ← hname, ← get?_effectivePriorities]
  cases ha : (g.effectivePriorities r).get? a <;> cases hb : (g.effectivePriorities r).get? b <;>
    simp [Rank.lt, rankOf, ha, hb]

/-- Mentions are compared as the keys are, if the number for modules that are not mentioned is the
one in their keys. -/
lemma forcedBefore_iff : forcedBefore r a b = true ↔
    r.cycleKey (unmentioned : ℕ) a < r.cycleKey (unmentioned : ℕ) b := by
  have hplace : ∀ m, (r.mention m).elim ((unmentioned : ℕ) : ℕ∞) (↑) =
      (((r.mention m).getD unmentioned : ℕ) : ℕ∞) := by
    intro m
    cases r.mention m <;> rfl
  simp [forcedBefore, Ranking.cycleKey, hplace, textLt, Prod.Lex.toLex_lt_toLex]

/-- Mentions are compared as the keys are, if all mentions are less than the number for modules that
are not mentioned, and these have infinity in their keys. -/
lemma forcedBefore_iff_top (hfits : ∀ m, ∀ i ∈ r.mention m, i < unmentioned) :
    forcedBefore r a b = true ↔ r.cycleKey ⊤ a < r.cycleKey ⊤ b := by
  simp only [forcedBefore, Ranking.cycleKey, Prod.Lex.toLex_lt_toLex]
  cases ha : r.mention a <;> cases hb : r.mention b
  case some.some i j => simp [textLt]
  case some.none i => simp [hfits a i ha]
  case none.some j =>
    have hj := hfits b j hb
    simp [hj.not_gt, hj.ne']
  case none.none => simp [textLt]

/-! ## The schedule -/

/-- The members of the components that are closed among the modules that are left. -/
lemma mem_flatten_closedCycles :
    m ∈ (g.rest emitted).closedCycles.flatten ↔ g.CycleMember emitted m := by
  rw [List.mem_flatten]
  constructor
  · rintro ⟨c, hc, hm⟩
    obtain ⟨hcomp, hlen, hclosed⟩ := mem_closedCycles.1 hc
    obtain rfl := eq_component_of_mem hcomp hm
    refine ⟨transGen_of_mem_component hcomp hlen hm, fun a ha b hab => ?_⟩
    obtain ⟨x, hax, -⟩ := TransGen.head'_iff.1 (transGen_of_mem_component hcomp hlen ha)
    by_cases hb : b ∈ emitted
    · exact .inl hb
    · exact .inr (hclosed a ha b (needs_rest.2 ⟨hab, (needs_rest.1 hax).2.1, hb⟩))
  · rintro ⟨hcyclic, hclosed⟩
    obtain ⟨x, hmx, hxm⟩ := TransGen.head'_iff.1 hcyclic
    have hm : m ∈ (g.rest emitted).modules := hmx.source_mem
    have hx : x ∈ (g.rest emitted).component m :=
      mem_component.2 ⟨hmx.target_mem, .single hmx, hxm⟩
    refine ⟨_, mem_closedCycles.2 ⟨component_mem_components hm,
      one_lt_length_component hx (mem_component_self hm) hmx.ne.symm, fun a ha b hab => ?_⟩,
      mem_component_self hm⟩
    obtain ⟨hgab, -, hb⟩ := needs_rest.1 hab
    exact (hclosed a ha b hgab).resolve_left hb

section

variable (hforced : ∀ a b, forcedBefore r a b = true ↔
  r.cycleKey infinity a < r.cycleKey infinity b)

include hforced

/-- The module that is forced is the first one by its key. -/
lemma argmin_of_cycleEntry (h : (g.rest emitted).cycleEntry r = some m) :
    (g.modules.filter fun m => g.CycleMember emitted m).argmin (r.cycleKey infinity) = some m := by
  have htotal := strictTotal_of_key (cycleKey_injective r infinity) hforced
  obtain ⟨hmem, hleast⟩ := (leastBy?_eq_some_iff htotal).1 h
  have hmember : ∀ {n}, n ∈ g.modules.filter (fun m => g.CycleMember emitted m) ↔
      n ∈ (g.rest emitted).closedCycles.flatten := by
    intro n
    rw [mem_flatten_closedCycles, List.mem_filter, decide_eq_true_eq]
    exact and_iff_right_of_imp fun hn => (TransGen.head'_iff.1 hn.cyclic).choose_spec.1.source_mem
  refine argmin_eq_some_of_le (cycleKey_injective r infinity) (hmember.2 hmem) fun n hn => ?_
  rw [← not_lt, ← hforced, Bool.not_eq_true]
  exact hleast n (hmember.1 hn)

/-- **A step of the schedule chooses the plain way.** -/
lemma plainNext_of_chosen (h : g.Chosen r (rankOf (g.effectivePriorities r)) emitted m forced) :
    g.plainNext r infinity emitted = some m := by
  rw [plainNext]
  cases h with
  | ready hm hready hleast =>
    have hfirst : (g.modules.filter fun m => g.Ready emitted m).argmin (g.readyKey r) = some m := by
      refine argmin_eq_some_of_le (readyKey_injective g r) (by simp [hm, hready]) fun n hn => ?_
      obtain ⟨hn, hnready⟩ := List.mem_filter.1 hn
      rw [← not_lt, ← rank_lt_iff, hleast n hn (of_decide_eq_true hnready)]
      exact Bool.false_ne_true
    rw [hfirst, Option.some_or]
  | forced hstuck hentry =>
    have hnone : (g.modules.filter fun m => g.Ready emitted m) = [] := by
      simpa [List.filter_eq_nil_iff] using hstuck
    rw [hnone, List.argmin_nil, Option.none_or, argmin_of_cycleEntry hforced hentry]

/-- **The schedule comes to the plain order**, wherever it begins.

**Proof sketch.** Induction on the number of steps that the schedule may take. Each step chooses the
plain way, and is one module less to place. -/
lemma map_fst_schedule (count : ℕ)
    (hplan : Agenda.Reflects g (rankOf (g.effectivePriorities r)) emitted plan)
    (hcount : unseen g.modules emitted ≤ count) :
    (g.schedule r (rankOf (g.effectivePriorities r)) count emitted plan).map Prod.fst =
      g.plainOrderFrom r infinity emitted := by
  induction count generalizing emitted plan with
  | zero =>
    rw [plainOrderFrom_eq_nil fun m hm => mem_of_unseen_eq_zero (Nat.le_zero.1 hcount) hm]
    rfl
  | succ count ih =>
    rcases schedule_succ (r := r) (fun _ => rfl) count hplan with
      ⟨m, forced, plan', hchosen, hplan', heq⟩ | ⟨hall, heq⟩
    · have hplaced := placed_of_chosen hchosen
      have hless := unseen_lt (List.subset_cons_self m emitted) hplaced.mem hplaced.fresh
        List.mem_cons_self
      rw [heq, List.map_cons, plainOrderFrom_eq_cons (plainNext_of_chosen hforced hchosen),
        ih hplan' (by omega)]
    · rw [heq, plainOrderFrom_eq_nil hall, List.map_nil]

/-- The order of a graph of which all edges count is the plain one. -/
lemma order_orderUnguarded : (g.orderUnguarded r).order = g.plainOrder r infinity :=
  map_fst_schedule hforced _ (Agenda.reflects_agenda g _) (unseen_le_length _ _)

end

/-- **The generation order is the plain order.** Whatever the guards and the ranking, the order is
obtained by taking again and again, of the modules that are left and need only modules placed
before along edges without guards, the first one by priority and name; and where there is none, of
the modules on cycles that are left and wait for nothing outside their component, the first one by
mention and name. The greatest number of 64 bits stands for the mention of modules that are not
mentioned; if all mentions are less, this is the same as infinity. -/
theorem order_eq_plainOrder (g : Graph) (guards : Guards) (r : Ranking) :
    (g.order guards r).order = (g.unguarded guards).plainOrder r (unmentioned : ℕ) ∧
    ((∀ m, ∀ i ∈ r.mention m, i < unmentioned) →
      (g.order guards r).order = (g.unguarded guards).plainOrder r ⊤) :=
  ⟨order_orderUnguarded fun _ _ => forcedBefore_iff,
    fun hfits => order_orderUnguarded fun _ _ => forcedBefore_iff_top hfits⟩

/-- A module that is mentioned on a cycle with one that is not: the first one comes before the
second, behind a module with a priority. -/
theorem order_eq_plainOrder_mentioned :
    let g := Graph.ofLists ["Z"] [⟨"A", "B"⟩, ⟨"B", "A"⟩]
    let r : Ranking := ⟨fun m => if m = "Z" then some 1 else none,
      fun m => if m = "B" then some 7 else none⟩
    (∀ m, ∀ i ∈ r.mention m, i < unmentioned) ∧
      (g.order {} r).order = (g.unguarded {}).plainOrder r ⊤ ∧
      (g.unguarded {}).plainOrder r ⊤ = ["Z", "B", "A"] := by
  intro g r
  have hfits : ∀ m, ∀ i ∈ r.mention m, i < unmentioned := by
    intro m i hi
    obtain ⟨-, hi⟩ := Option.ite_none_right_eq_some.1 hi
    obtain rfl := Option.some.inj hi
    decide
  have horder := (order_eq_plainOrder g {} r).2 hfits
  refine ⟨hfits, horder, ?_⟩
  rw [← horder]
  cbv

end Graph

end BindingRules
