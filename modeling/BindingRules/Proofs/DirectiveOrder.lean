import BindingRules.Store
import Mathlib.Data.List.Basic

set_option relaxedAutoImplicit false
set_option autoImplicit false

/-!
# Directives by position

No two directives of a history have one position, so the directive with the greatest position of
those that are found, and the order of all of them, do not depend on where they were found.

## Main results

* `Directive.latest?_eq_none`, `Directive.mem_and_le_of_latest?` — the greatest position.
* `Directive.mem_sort`, `Directive.pairwise_sort` — the order by positions.
* `Directive.pairwise_dropRepeats`, `Directive.exists_mem_dropRepeats` — of each position one
  directive is left.
* `Directive.eq_of_order_eq` — positions tell the directives of a history apart.
-/

namespace BindingRules.Directive

variable {d e : Directive} {ds : List Directive}

/-! ## The greatest position -/

/-- The last of the greatest is one of the directives, and none is greater. -/
lemma foldl_latest_spec (d : Directive) (ds : List Directive) :
    ds.foldl (fun last e => if last.order ≤ e.order then e else last) d ∈ d :: ds ∧
      ∀ e ∈ d :: ds,
        e.order ≤ (ds.foldl (fun last e => if last.order ≤ e.order then e else last) d).order := by
  induction ds generalizing d with
  | nil => simp
  | cons x ds ih =>
    obtain ⟨hmem, hle⟩ := ih (if d.order ≤ x.order then x else d)
    have hhead := hle _ List.mem_cons_self
    rw [List.foldl_cons]
    refine ⟨?_, fun e he => ?_⟩
    · rcases List.mem_cons.1 hmem with heq | hmem
      · rw [heq]
        split <;> simp
      · exact List.mem_cons_of_mem _ (List.mem_cons_of_mem _ hmem)
    · rcases List.mem_cons.1 he with rfl | he
      · refine Nat.le_trans ?_ hhead
        split <;> omega
      · rcases List.mem_cons.1 he with rfl | he
        · refine Nat.le_trans ?_ hhead
          split <;> omega
        · exact hle e (List.mem_cons_of_mem _ he)

/-- Only of no directives none is the latest. -/
lemma latest?_eq_none : latest? ds = none ↔ ds = [] := by
  cases ds <;> simp [latest?]

/-- The latest directive is one of them, and none is behind it. -/
lemma mem_and_le_of_latest? (h : latest? ds = some d) : d ∈ ds ∧ ∀ e ∈ ds, e.order ≤ d.order := by
  cases ds with
  | nil => simp [latest?] at h
  | cons x ds =>
    obtain rfl := Option.some.inj h
    exact foldl_latest_spec x ds

/-! ## The order by positions -/

/-- Sorting neither adds nor drops directives. -/
lemma mem_sort : d ∈ sort ds ↔ d ∈ ds := List.mem_mergeSort

/-- Behind sorting, no directive comes before one with a lesser position. -/
lemma pairwise_sort (ds : List Directive) : (sort ds).Pairwise fun d e => d.order ≤ e.order := by
  refine (List.pairwise_mergeSort (fun a b c hab hbc => ?_) (fun a b => ?_) ds).imp fun h =>
    of_decide_eq_true h
  · simp only [decide_eq_true_eq] at hab hbc ⊢
    exact Nat.le_trans hab hbc
  · simp only [Bool.or_eq_true, decide_eq_true_eq]
    exact Nat.le_total a.order b.order

/-! ## One directive for each position -/

/-- Dropping repetitions adds nothing. -/
lemma mem_of_mem_dropRepeatsAfter (h : e ∈ dropRepeatsAfter d ds) : e ∈ d :: ds := by
  induction ds generalizing d with
  | nil => exact h
  | cons x ds ih =>
    rw [dropRepeatsAfter] at h
    split at h
    · rcases List.mem_cons.1 (ih h) with rfl | he
      · exact List.mem_cons_self
      · exact List.mem_cons_of_mem _ (List.mem_cons_of_mem _ he)
    · rcases List.mem_cons.1 h with rfl | h
      · exact List.mem_cons_self
      · exact List.mem_cons_of_mem _ (ih h)

/-- For every position a directive is left. -/
lemma exists_mem_dropRepeatsAfter (h : e ∈ d :: ds) :
    ∃ f ∈ dropRepeatsAfter d ds, f.order = e.order := by
  induction ds generalizing d e with
  | nil => exact ⟨e, h, rfl⟩
  | cons x ds ih =>
    rw [dropRepeatsAfter]
    split
    · rename_i hdx
      rcases List.mem_cons.1 h with rfl | h
      · exact ih List.mem_cons_self
      · rcases List.mem_cons.1 h with heq | h
        · obtain ⟨f, hf, hfd⟩ := ih (List.mem_cons_self (a := d))
          exact ⟨f, hf, hfd.trans (heq ▸ hdx)⟩
        · exact ih (List.mem_cons_of_mem _ h)
    · rcases List.mem_cons.1 h with rfl | h
      · exact ⟨e, List.mem_cons_self, rfl⟩
      · obtain ⟨f, hf, hfe⟩ := ih h
        exact ⟨f, List.mem_cons_of_mem _ hf, hfe⟩

/-- Of directives in order, none is left twice. -/
lemma pairwise_dropRepeatsAfter (h : (d :: ds).Pairwise fun d e => d.order ≤ e.order) :
    (dropRepeatsAfter d ds).Pairwise fun d e => d.order < e.order := by
  induction ds generalizing d with
  | nil => exact List.pairwise_singleton _ _
  | cons x ds ih =>
    obtain ⟨hd, hds⟩ := List.pairwise_cons.1 h
    obtain ⟨hx, hrest⟩ := List.pairwise_cons.1 hds
    rw [dropRepeatsAfter]
    split
    · exact ih (List.pairwise_cons.2 ⟨fun e he => hd e (List.mem_cons_of_mem _ he), hrest⟩)
    · refine List.pairwise_cons.2 ⟨fun e he => ?_, ih hds⟩
      have hdx := hd x List.mem_cons_self
      rcases List.mem_cons.1 (mem_of_mem_dropRepeatsAfter he) with rfl | he
      · omega
      · have hxe := hx e he
        omega

/-- Dropping repetitions adds nothing. -/
lemma mem_of_mem_dropRepeats (h : d ∈ dropRepeats ds) : d ∈ ds := by
  cases ds with
  | nil => exact h
  | cons x ds => exact mem_of_mem_dropRepeatsAfter h

/-- For every position a directive is left. -/
lemma exists_mem_dropRepeats (h : d ∈ ds) : ∃ f ∈ dropRepeats ds, f.order = d.order := by
  cases ds with
  | nil => exact absurd h List.not_mem_nil
  | cons x ds => exact exists_mem_dropRepeatsAfter h

/-- Of directives in order, none is left twice. -/
lemma pairwise_dropRepeats (h : ds.Pairwise fun d e => d.order ≤ e.order) :
    (dropRepeats ds).Pairwise fun d e => d.order < e.order := by
  cases ds with
  | nil => exact List.Pairwise.nil
  | cons x ds => exact pairwise_dropRepeatsAfter h

/-! ## Histories -/

/-- In a history, positions tell directives apart. -/
lemma eq_of_order_eq (h : ds.Pairwise fun d e => d.order < e.order) (hd : d ∈ ds) (he : e ∈ ds)
    (horder : d.order = e.order) : d = e := by
  induction ds with
  | nil => exact absurd hd List.not_mem_nil
  | cons x ds ih =>
    obtain ⟨hx, hds⟩ := List.pairwise_cons.1 h
    rcases List.mem_cons.1 hd with hdx | hd <;> rcases List.mem_cons.1 he with hex | he
    · exact hdx.trans hex.symm
    · have hlt := hx e he
      rw [hdx] at horder
      omega
    · have hlt := hx d hd
      rw [hex] at horder
      omega
    · exact ih hds hd he

/-- The last directive of a history has the greatest position. -/
lemma le_of_getLast? (h : ds.Pairwise fun d e => d.order < e.order) (hd : ds.getLast? = some d)
    (he : e ∈ ds) : e.order ≤ d.order := by
  obtain ⟨init, rfl⟩ := List.getLast?_eq_some_iff.1 hd
  rcases List.mem_append.1 he with he | he
  · exact Nat.le_of_lt ((List.pairwise_append.1 h).2.2 e he d (List.mem_singleton_self d))
  · exact Nat.le_of_eq (congrArg Directive.order (List.mem_singleton.1 he))

end BindingRules.Directive
