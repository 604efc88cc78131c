import BindingRules.Proofs.Separators
import BindingRules.Proofs.SummaryAnswers
import Mathlib.Data.List.Sigma

set_option relaxedAutoImplicit false
set_option autoImplicit false

/-!
# The order of symbols

The symbols of a module are sorted by their priorities, and those with equal priorities keep the
order in which they were given. The priority of a symbol is stated by the last directive in force
that is about the module and about a text that the symbol holds. Directives with wildcards in their
targets are kept apart from the others, but take part like them, each at its position; for the order
of symbols a wildcard is a character like any other.

## Main definitions

* `Directive.Rates` — the directives that state a priority for a symbol.
* `Policy.HasPriority` — the priority of a symbol.

## Main results

* `exists_sort_places` — sorting by ranks is sorting by ranks and places.
* `Policy.IsResolved.symbolRules_eq` — the rules of a module are those of the directives in force.
* `Policy.IsResolved.hasPriority_iff` — the priority by which a symbol is sorted.
* `Policy.symbolOrder_stable` — the order of symbols.
-/

namespace BindingRules

/-! ## Sorting by ranks -/

section Ranks

variable {α : Type} {rank : α → Int}

/-- Comparing by ranks is transitive. -/
lemma rank_le_trans (a b c : α) (hab : decide (rank a ≤ rank b) = true)
    (hbc : decide (rank b ≤ rank c) = true) : decide (rank a ≤ rank c) = true :=
  decide_eq_true (Int.le_trans (of_decide_eq_true hab) (of_decide_eq_true hbc))

/-- Any two elements compare by their ranks. -/
lemma rank_le_total (a b : α) :
    (decide (rank a ≤ rank b) || decide (rank b ≤ rank a)) = true := by
  simpa using Int.le_total (rank a) (rank b)

/-- **Elements of one rank keep their order.** They are sorted among themselves, so they are found
in the sorted list as they come, and there are no more of them in it. -/
lemma filter_sort_rank (l : List α) (n : Int) :
    (l.mergeSort fun a b => decide (rank a ≤ rank b)).filter (fun a => rank a = n) =
      l.filter fun a => rank a = n := by
  have hsorted : (l.filter fun a => rank a = n).Pairwise
      fun a b => decide (rank a ≤ rank b) = true := by
    refine List.pairwise_of_forall_mem_list fun a ha b hb => decide_eq_true ?_
    have ha := of_decide_eq_true (List.mem_filter.1 ha).2
    have hb := of_decide_eq_true (List.mem_filter.1 hb).2
    exact Int.le_of_eq (ha.trans hb.symm)
  have hfound := (List.sublist_mergeSort rank_le_trans rank_le_total hsorted
    List.filter_sublist).filter (fun a => decide (rank a = n))
  simp only [List.filter_filter, Bool.and_self] at hfound
  exact (hfound.eq_of_length ((List.mergeSort_perm l _).filter _).length_eq.symm).symm

/-- **Sorting by ranks is sorting by ranks and places**, where no two elements are equal. -/
lemma exists_sort_places (rank : α → Int) (l : List α) : ∃ placed : List (α × ℕ),
    placed.Perm l.zipIdx ∧
      placed.map Prod.fst = (l.mergeSort fun a b => decide (rank a ≤ rank b)) ∧
      placed.Pairwise fun a b => rank a.1 < rank b.1 ∨ rank a.1 = rank b.1 ∧ a.2 < b.2 := by
  let placed := l.zipIdx.mergeSort (List.zipIdxLE fun a b => decide (rank a ≤ rank b))
  have hperm : placed.Perm l.zipIdx := List.mergeSort_perm _ _
  have hplaces : placed.Pairwise fun a b => a.2 ≠ b.2 :=
    List.pairwise_map.1 ((hperm.map Prod.snd).nodup_iff.2 (List.nodup_zipIdx_map_snd l))
  have hsorted := List.pairwise_mergeSort (List.zipIdxLE_trans (@rank_le_trans α rank))
    (List.zipIdxLE_total rank_le_total) l.zipIdx
  refine ⟨placed, hperm, List.mergeSort_zipIdx, (hsorted.and hplaces).imp ?_⟩
  intro a b ⟨hle, hne⟩
  simp only [List.zipIdxLE, decide_eq_true_eq] at hle
  split at hle
  · next hab =>
    split at hle
    · next hba =>
      exact .inr ⟨Int.le_antisymm hab hba, Nat.lt_of_le_of_ne (of_decide_eq_true hle) hne⟩
    · next hba => exact .inl (Int.lt_of_not_ge hba)
  · cases hle

end Ranks

/-! ## The directives about a symbol -/

variable {platform : Option String} {kind : DirectiveKind} {d : Directive}
  {before ds : List Directive} {s : Store} {p : Policy} {module symbol : String} {n : Int}

/-- The last value that directives in order give is the value of the one with the greatest position
among those that give one. -/
lemma getLast?_filterMap_eq_some_iff {β : Type} {f : Directive → Option β} {b : β}
    (h : ds.Pairwise fun d e => d.order < e.order) : (ds.filterMap f).getLast? = some b ↔
      ∃ d ∈ ds, f d = some b ∧ ∀ e ∈ ds, (f e).isSome → e.order ≤ d.order := by
  induction ds using List.reverseRecOn with
  | nil => simp
  | append_singleton ds last ih =>
    obtain ⟨hds, -, hlast⟩ := List.pairwise_append.1 h
    have hlast : ∀ d ∈ ds, d.order < last.order := fun d hd => hlast d hd last List.mem_cons_self
    rw [List.filterMap_append]
    cases hvalue : f last with
    | none =>
      rw [List.filterMap_cons_none hvalue, List.filterMap_nil, List.append_nil, ih hds]
      simp [or_imp, forall_and, hvalue]
    | some c =>
      rw [List.filterMap_cons_some hvalue, List.filterMap_nil, List.getLast?_append,
        List.getLast?_singleton, Option.some_or, Option.some_inj]
      constructor
      · rintro rfl
        refine ⟨last, by simp, hvalue, fun e he _ => ?_⟩
        rcases List.mem_append.1 he with he | he
        · exact Nat.le_of_lt (hlast e he)
        · exact Nat.le_of_eq (congrArg Directive.order (List.mem_singleton.1 he))
      · rintro ⟨d, hd, hb, hgreatest⟩
        rcases List.mem_append.1 hd with hd | hd
        · have hle := hgreatest last (by simp) (by simp [hvalue])
          exact absurd (hlast d hd) (Nat.not_lt_of_le hle)
        · rw [List.mem_singleton.1 hd, hvalue] at hb
          exact Option.some.inj hb

/-- **All live directives of an accumulating kind** are the admitted ones of the kind. -/
lemma Store.Reflects.directivesOf_eq_of_accumulating (hs : s.Reflects platform before)
    (hkind : kind.resolution = .accumulating) :
    s.directivesOf kind = (admitted platform before).filter (·.kind == kind) := by
  have hincreasing : (admitted platform before).Pairwise fun d e => d.order < e.order :=
    hs.increasing.filter _
  rw [hs.directivesOf_eq]
  refine Directive.eq_of_increasing (hincreasing.filter _)
    ((hincreasing.sublist (standing_sublist _)).filter _) fun d => ?_
  rw [List.mem_filter, List.mem_filter, beq_iff_eq]
  exact and_congr_left fun hd => mem_standing_of_accumulating hincreasing (hd ▸ hkind)

/-- A directive states a priority for a symbol of a module: it is about the module, and the symbol
holds its text. -/
structure Directive.Rates (module symbol : String) (n : Int) (d : Directive) : Prop where
  /-- It states a priority for symbols. -/
  kind_eq : d.kind = .symbolPriority
  /-- Its target is the module, but for blanks around it. -/
  target_eq : Text.trimmed d.target = module
  /-- Its text occurs in the symbol, and the priority stands behind it. -/
  pattern : ∃ pattern, d.payload = .patternPriority pattern n ∧ pattern.toList <:+: symbol.toList

/-- The rule that a directive is for the symbols of a module. -/
def Directive.symbolRule? (module : String) (d : Directive) : Option SymbolRule :=
  if d.kind = .symbolPriority ∧ Text.trimmed d.target = module then
    match d.payload with
    | .patternPriority pattern priority => some ⟨pattern, priority⟩
    | _ => none
  else none

/-- The rule that a directive is for a symbol of a module, if the symbol holds its text. -/
def Directive.rating? (module symbol : String) (d : Directive) : Option SymbolRule :=
  (d.symbolRule? module).filter fun r => Text.occursIn r.pattern.toList symbol.toList

/-- A directive rates a symbol if it is a rule for it. -/
lemma Directive.rates_iff : d.Rates module symbol n ↔
    (d.rating? module symbol).map SymbolRule.priority = some n := by
  simp only [rating?, Option.map_eq_some_iff, Option.filter_eq_some_iff, Text.occursIn_iff]
  constructor
  · rintro ⟨hkind, htarget, pattern, hpayload, hoccurs⟩
    exact ⟨⟨pattern, n⟩, ⟨by simp [symbolRule?, hkind, htarget, hpayload], hoccurs⟩, rfl⟩
  · rintro ⟨⟨pattern, m⟩, ⟨hrule, hoccurs⟩, rfl⟩
    unfold symbolRule? at hrule
    split at hrule
    · next hmodule =>
      refine ⟨hmodule.1, hmodule.2, pattern, ?_, hoccurs⟩
      cases hpayload : d.payload <;> simp_all
    · cases hrule

namespace Policy

/-- The priority of a symbol of a module: that of the directive in force with the greatest position
that states one, or the default if there is none. -/
def HasPriority (p : Policy) (module symbol : String) (n : Int) : Prop :=
  (∃ d ∈ admitted (some p.config.platform) p.ruleset.directives, d.Rates module symbol n ∧
    ∀ e ∈ admitted (some p.config.platform) p.ruleset.directives,
      ∀ m, e.Rates module symbol m → e.order ≤ d.order) ∨
  (∀ e ∈ admitted (some p.config.platform) p.ruleset.directives,
    ∀ m, ¬ e.Rates module symbol m) ∧ n = p.config.defaultSymbolPriority

/-- **The rules of a module** are those of the directives in force, in their order. -/
lemma IsResolved.symbolRules_eq (h : p.IsResolved) (module : String) : p.symbolRules module =
    (admitted (some p.config.platform) p.ruleset.directives).filterMap
      (Directive.symbolRule? module) := by
  rw [symbolRules, h.reflects.directivesOf_eq_of_accumulating rfl, List.filter_filter,
    List.filterMap_filter]
  refine List.filterMap_congr fun d _ => ?_
  cases hpayload : d.payload <;>
    simp only [Directive.symbolRule?, hpayload, Bool.and_eq_true, beq_iff_eq, and_comm]

/-- **The priority by which a symbol is sorted** is that of the last directive in force that states
one.

**Proof sketch.** The rules of the module stand in the order of the positions of their directives,
so the last one with a text that occurs in the symbol is from the directive with the greatest
position. -/
lemma IsResolved.hasPriority_iff (h : p.IsResolved) : p.HasPriority module symbol n ↔
    n = symbolPriority (p.symbolRules module) p.config.defaultSymbolPriority symbol := by
  let inForce := admitted (some p.config.platform) p.ruleset.directives
  have hincreasing : inForce.Pairwise fun d e => d.order < e.order :=
    h.reflects.increasing.filter _
  have hrates : ∀ e : Directive, (∃ m, e.Rates module symbol m) ↔
      (e.rating? module symbol).isSome := by
    intro e
    simp only [Directive.rates_iff]
    cases e.rating? module symbol <;> simp
  have hlast : (p.symbolRules module).reverse.find?
      (fun r => Text.occursIn r.pattern.toList symbol.toList) =
        (inForce.filterMap (Directive.rating? module symbol)).getLast? := by
    rw [← List.getLast?_filter, h.symbolRules_eq, List.filter_filterMap]
    rfl
  rw [symbolPriority, hlast]
  cases hvalue : (inForce.filterMap (Directive.rating? module symbol)).getLast? with
  | none =>
    have hnone : ∀ e ∈ inForce, ∀ m, ¬ e.Rates module symbol m := by
      intro e he m hm
      have hsome := (hrates e).1 ⟨m, hm⟩
      rw [List.filterMap_eq_nil_iff.1 (List.getLast?_eq_none_iff.1 hvalue) e he] at hsome
      cases hsome
    refine ⟨fun hpriority => ?_, fun hn => .inr ⟨hnone, hn⟩⟩
    rcases hpriority with ⟨d, hd, hrated, -⟩ | ⟨-, hn⟩
    · exact absurd hrated (hnone d hd n)
    · exact hn
  | some r =>
    obtain ⟨d, hd, hrating, hgreatest⟩ := (getLast?_filterMap_eq_some_iff hincreasing).1 hvalue
    have hrated : d.Rates module symbol r.priority := Directive.rates_iff.2 (by simp [hrating])
    have hgreatest : ∀ e ∈ inForce, ∀ m, e.Rates module symbol m → e.order ≤ d.order :=
      fun e he m hm => hgreatest e he ((hrates e).1 ⟨m, hm⟩)
    constructor
    · rintro (⟨e, he, herated, hegreatest⟩ | ⟨hnone, -⟩)
      · -- both are the one with the greatest position
        obtain rfl : e = d := Directive.eq_of_order_eq hincreasing he hd
          (Nat.le_antisymm (hgreatest e he n herated) (hegreatest d hd r.priority hrated))
        rw [Directive.rates_iff, hrating] at herated
        exact (Option.some.inj herated).symm
      · exact absurd hrated (hnone d hd r.priority)
    · rintro rfl
      exact .inl ⟨d, hd, hrated, hgreatest⟩

/-- **The order of symbols.** Whatever the settings, the rules and the inputs, each symbol of a
module has one priority, stated by the last directive in force about the module and a text that the
symbol holds, or else the default. The order of some symbols consists of these symbols, as often as
they were given. Priorities do not decrease along it, and symbols with equal priorities come in the
order in which they were given, also where spellings are repeated: the symbols are sorted by their
priorities and their places. -/
theorem symbolOrder_stable (p : Policy) (h : p.IsResolved) (module : String)
    (symbols : List String) : ∃ priority : String → Int,
    (∀ s n, p.HasPriority module s n ↔ n = priority s) ∧
    (p.symbolOrder module symbols).Perm symbols ∧
    ((p.symbolOrder module symbols).Pairwise fun a b => priority a ≤ priority b) ∧
    (∀ n, (p.symbolOrder module symbols).filter (fun s => priority s = n) =
      symbols.filter fun s => priority s = n) ∧
    ∃ placed : List (String × ℕ), placed.Perm symbols.zipIdx ∧
      placed.map Prod.fst = p.symbolOrder module symbols ∧
      placed.Pairwise fun a b =>
        priority a.1 < priority b.1 ∨ priority a.1 = priority b.1 ∧ a.2 < b.2 := by
  refine ⟨symbolPriority (p.symbolRules module) p.config.defaultSymbolPriority,
    fun s n => h.hasPriority_iff, List.mergeSort_perm _ _, ?_, filter_sort_rank symbols,
    exists_sort_places _ symbols⟩
  exact (List.pairwise_mergeSort rank_le_trans rank_le_total symbols).imp of_decide_eq_true

/-- The last rule for arrays of handles wins, although a later one is for a module with wildcards
and another one is commented out. A symbol that no rule is about is given twice. -/
theorem symbolOrder_stable_repeated : ∃ p,
    Config.resolveText {} "rules"
      "+sort M: Array=5\n+sort M: HArray=1\n+sort M*: HArray=7\n# +sort M: HArray=9\n" {} = .ok p ∧
    p.IsResolved ∧ ∃ priority : String → Int,
      priority "HArray2" = 1 ∧ priority "Array1" = 5 ∧ priority "List" = 10000 ∧
      (∀ s n, p.HasPriority "M" s n ↔ n = priority s) ∧
      (p.symbolOrder "M" ["List", "Array1", "HArray2", "List"]).Perm
        ["List", "Array1", "HArray2", "List"] ∧
      ((p.symbolOrder "M" ["List", "Array1", "HArray2", "List"]).Pairwise
        fun a b => priority a ≤ priority b) ∧
      (p.symbolOrder "M" ["List", "Array1", "HArray2", "List"]).filter
        (fun s => priority s = 10000) = ["List", "List"] := by
  obtain ⟨p, hp, -, hq⟩ := exists_of_run
    (Config.resolveText {} "rules"
      "+sort M: Array=5\n+sort M: HArray=1\n+sort M*: HArray=7\n# +sort M: HArray=9\n" {})
    ["+sort M: Array=5", "+sort M: HArray=1", "+sort M*: HArray=7"]
    (fun p => (admitted (some p.config.platform) p.ruleset.directives).filterMap
        (Directive.symbolRule? "M") = [⟨"Array", 5⟩, ⟨"HArray", 1⟩] ∧
      p.config.defaultSymbolPriority = 10000)
    (by decide +kernel)
  obtain ⟨hrules, hdefault⟩ := of_decide_eq_true hq
  have hresolved : p.IsResolved := isResolved_of_resolve (.inl ⟨_, _, hp⟩)
  rw [← hresolved.symbolRules_eq] at hrules
  obtain ⟨priority, hpriority, hperm, hsorted, hstable, -⟩ :=
    symbolOrder_stable p hresolved "M" ["List", "Array1", "HArray2", "List"]
  have hvalue : ∀ s n, n = symbolPriority [⟨"Array", 5⟩, ⟨"HArray", 1⟩] 10000 s →
      priority s = n := by
    intro s n hn
    rw [← hrules, ← hdefault] at hn
    exact ((hpriority s n).1 (hresolved.hasPriority_iff.2 hn)).symm
  have hhandles := hvalue "HArray2" 1 (by decide +kernel)
  have harray := hvalue "Array1" 5 (by decide +kernel)
  have hlist := hvalue "List" 10000 (by decide +kernel)
  refine ⟨p, hp, hresolved, priority, hhandles, harray, hlist, hpriority, hperm, hsorted, ?_⟩
  rw [hstable]
  simp [hhandles, harray, hlist]

end Policy

end BindingRules
