import BindingRules.Proofs.LineIdentity
import BindingRules.Proofs.Strictness

set_option relaxedAutoImplicit false
set_option autoImplicit false

/-!
# Positions from the reader to the store

The reader numbers the directives before it knows whether their source will be kept, and the store
takes a directive only behind those that it has taken. The two fit together: whatever sources were
read, and whichever of them were refused half way, the store takes all directives of the ruleset,
and no resolution of it has a conflict of positions to report.

## Main definitions

* `Config.reported` — the diagnostics with which a resolution ends, with a policy or without one.

## Main results

* `Store.applyAll_snd_eq_nil_iff` — a fresh store refuses none of some directives exactly if their
  positions increase.
* `Config.notMem_storeConflict` — directives in order give no conflicts.
* `Ruleset.positions_increase` — what the reader guarantees, for the store and for resolving.
-/

namespace BindingRules

variable {platform : Option String} {ds : List Directive} {s : Store} {r : Ruleset}

/-! ## What the store refuses -/

namespace Store

/-- What is taken of a history is a part of it. -/
lemma taken_sublist (s : Store) (ds : List Directive) : (s.taken ds).Sublist ds := by
  induction ds generalizing s with
  | nil => exact List.Sublist.refl _
  | cons d ds ih =>
    rw [taken]
    cases s.apply d with
    | ok s => exact (ih s).cons_cons d
    | error e => exact (ih s).cons d

/-- Nothing of a history is refused exactly if all of it is taken. -/
lemma applyAll_snd_eq_nil : (s.applyAll ds).2 = [] ↔ s.taken ds = ds := by
  induction ds generalizing s with
  | nil => simp [applyAll, taken]
  | cons d ds ih =>
    rw [applyAll, taken]
    cases s.apply d with
    | ok s => simp [ih]
    | error e =>
      have hlength := (s.taken_sublist ds).length_le
      have hne : s.taken ds ≠ d :: ds := by
        intro heq
        rw [heq, List.length_cons] at hlength
        omega
      simp [hne]

/-- **A fresh store refuses nothing exactly if positions increase.** -/
lemma applyAll_snd_eq_nil_iff : (applyAll { platform } ds).2 = [] ↔
    ds.Pairwise fun d e => d.order < e.order := by
  rw [applyAll_snd_eq_nil]
  constructor
  · intro h
    have hincreasing := (reflects_applyAll platform ds).increasing
    rwa [h] at hincreasing
  · exact fun h => taken_eq_self h fun d _ last hlast => by cases hlast

end Store

/-! ## What is reported -/

namespace Config

/-- The diagnostics with which a resolution ends, whether it gives a policy or not. -/
def reported : Except ResolveError Policy → List Diagnostic
  | .ok p => p.diagnostics
  | .error (.diagnostics list) => list
  | .error (.unreadable _ _) => []

/-- A resolution reports what there is to say about its rules, also if it gives no policy. -/
lemma reported_resolve (c : Config) (r : Ruleset) (inputs : Inputs) :
    reported (c.resolve r inputs) = (c.policyOf r inputs).diagnostics := by
  simp only [resolve]
  split <;> rfl

/-- **Directives in order give no conflicts**, whatever the settings and the inputs: the notes about
them are those about other platforms, and all else is about something else. -/
lemma notMem_storeConflict (h : r.directives.Pairwise fun d e => d.order < e.order) (c : Config)
    (inputs : Inputs) :
    ∀ note ∈ (c.policyOf r inputs).diagnostics, note.kind ≠ .storeConflict := by
  -- what is not grave is no conflict
  have hgrave : ∀ {note : Diagnostic}, note.kind.isGrave = false → note.kind ≠ .storeConflict := by
    intro note hnote hkind
    rw [hkind] at hnote
    cases hnote
  intro note hnote
  simp only [policyOf, c.fillStore_snd h, List.mem_append, List.mem_map] at hnote
  rcases hnote with
    ((((⟨m, -, rfl⟩ | ⟨d, -, rfl⟩) | hnote) | ⟨cycle, -, rfl⟩) | hnote) | ⟨conflict, -, rfl⟩
  · intro hkind
    cases hkind
  · intro hkind
    cases hkind
  · exact hgrave (of_mem_validate r inputs hnote).1
  · intro hkind
    cases hkind
  · exact hgrave (of_mem_redundancies hnote).1
  · intro hkind
    cases hkind

end Config

/-! ## Rulesets that were read -/

/-- **Positions increase from the reader to the store.** Whatever sources are read, one after the
other and in either mode, those among them that are refused half way included, the directives of
the ruleset, commented out or not, have increasing positions from the first source to the last one.
So a fresh store for any platform refuses none of them, and under any settings and for any inputs no
resolution of the ruleset reports a conflict in the store, whether it gives a policy or not. -/
theorem Ruleset.positions_increase (mode : RuleMode) (sources : List (String × String)) :
    let r := (RulesetReader.addSources { mode } sources).ruleset
    (r.directives.Pairwise fun d e => d.order < e.order) ∧
    (∀ platform : Option String, (Store.applyAll { platform } r.directives).2 = []) ∧
    ∀ (c : Config) (inputs : Inputs), ∀ note ∈ Config.reported (c.resolve r inputs),
      note.kind ≠ .storeConflict := by
  intro r
  have hincreasing : r.directives.Pairwise fun d e => d.order < e.order :=
    IsRead.increasing ⟨mode, sources, rfl⟩
  refine ⟨hincreasing, fun platform => Store.applyAll_snd_eq_nil_iff.2 hincreasing,
    fun c inputs => ?_⟩
  rw [c.reported_resolve]
  exact c.notMem_storeConflict hincreasing inputs

/-- A refused source uses up the position of the directive in front of its malformed line. -/
example : (RulesetReader.addSources { mode := .strict } [("a", "-class A\n# -class B\n"),
    ("b", "-class C\n-frob\n"), ("a", "+skip D")]).ruleset.directives.map Directive.order =
      [0, 1, 3] := by decide +kernel

end BindingRules
