import BindingRules.Policy.Resolve
import BindingRules.Proofs.RulesetReading

set_option relaxedAutoImplicit false
set_option autoImplicit false

/-!
# Strict and permissive runs

A run under strict settings reports what the run under permissive settings reports, with the grave
conditions raised to errors, and gives the same policy if there is none. It can only be shorter: a
malformed line stops the reading, and is then the only complaint.

## Main definitions

* `DiagnosticKind.isGrave` — the conditions that must not occur under strict settings.
* `Diagnostic.raised` — a diagnostic as it is reported under strict settings.
* `Config.permissive`, `Config.strictly` — two settings that differ in nothing else.

## Main results

* `Config.fillStore_strictly`, `Config.policyOf_strictly` — stage by stage, the strict run is the
  permissive one with raised diagnostics.
* `Config.not_isError_permissive` — the permissive run reports no errors.
* `Config.strict_run_follows_permissive` — the two runs on a text.
-/

namespace BindingRules

/-- Whether a condition must not occur under strict settings. -/
def DiagnosticKind.isGrave : DiagnosticKind → Bool
  | malformedDirective | unbrokenCycle | orderingConflict | storeConflict => true
  | unknownSymbol | redundantGuard | platformSkipped => false

/-- A diagnostic as it is reported under strict settings: an error if the condition is grave. -/
def Diagnostic.raised (d : Diagnostic) : Diagnostic :=
  if d.kind.isGrave then { d with severity := .error } else d

namespace Diagnostic

variable {d : Diagnostic} {ds : List Diagnostic}

/-- A condition that is not grave is reported as under permissive settings. -/
lemma raised_eq_self (h : d.kind.isGrave = false) : d.raised = d := by simp [raised, h]

/-- Conditions that are not grave are reported as under permissive settings. -/
lemma map_raised_eq_self (h : ∀ d ∈ ds, d.kind.isGrave = false) : ds.map raised = ds :=
  (List.map_congr_left fun d hd => raised_eq_self (h d hd)).trans (List.map_id ds)

/-- What was no error becomes one exactly if it is grave. -/
lemma isError_raised (h : d.isError = false) : d.raised.isError = d.kind.isGrave := by
  cases hgrave : d.kind.isGrave <;> simp_all [raised, isError]

/-- There are errors among raised diagnostics exactly if there are grave conditions. -/
lemma any_isError_map_raised (h : ∀ d ∈ ds, d.isError = false) :
    (ds.map raised).any isError = ds.any (·.kind.isGrave) := by
  rw [List.any_map, Bool.eq_iff_iff, List.any_eq_true, List.any_eq_true]
  refine exists_congr fun d => and_congr_right fun hd => ?_
  rw [Function.comp_apply, isError_raised (h d hd)]

end Diagnostic

namespace Config

variable (c : Config) (s : Store) (d : Directive) (ds : List Directive) (r : Ruleset)
  (inputs : Inputs) (name text : String)

/-- The settings, but permissive. -/
def permissive : Config := { c with strict := false }

/-- The settings, but strict. -/
def strictly : Config := { c with strict := true }

/-! ## Filling the store -/

/-- The notes about a directive are raised. -/
lemma storeNotes_strictly :
    c.strictly.storeNotes s d = (c.permissive.storeNotes s d).map Diagnostic.raised := by
  rw [storeNotes, storeNotes, List.map_append]
  refine congrArg₂ (· ++ ·) ?_ ?_
  · rw [apply_ite (List.map Diagnostic.raised)]
    rfl
  · cases s.apply d <;> rfl

/-- The directives go into the store alike, and the notes about them are raised. -/
lemma fillStoreFrom_strictly : c.strictly.fillStoreFrom s ds =
    ((c.permissive.fillStoreFrom s ds).1,
      (c.permissive.fillStoreFrom s ds).2.map Diagnostic.raised) := by
  induction ds generalizing s with
  | nil => rfl
  | cons d ds ih =>
    simp only [fillStoreFrom, ih, storeNotes_strictly, List.map_append]

/-- The stores are the same, and the notes are raised. -/
lemma fillStore_strictly : c.strictly.fillStore ds =
    ((c.permissive.fillStore ds).1, (c.permissive.fillStore ds).2.map Diagnostic.raised) :=
  c.fillStoreFrom_strictly _ ds

/-- A note about a directive is no error. -/
lemma not_isError_storeNotes :
    ∀ note ∈ c.permissive.storeNotes s d, note.isError = false := by
  intro note hnote
  rcases List.mem_append.1 hnote with hnote | hnote
  · split at hnote
    · rw [List.mem_singleton.1 hnote]
      rfl
    · exact absurd hnote List.not_mem_nil
  · split at hnote
    · exact absurd hnote List.not_mem_nil
    · rw [List.mem_singleton.1 hnote]
      rfl

/-- No note is an error. -/
lemma not_isError_fillStoreFrom :
    ∀ note ∈ (c.permissive.fillStoreFrom s ds).2, note.isError = false := by
  induction ds generalizing s with
  | nil => exact fun note hnote => absurd hnote List.not_mem_nil
  | cons d ds ih =>
    intro note hnote
    rcases List.mem_append.1 hnote with hnote | hnote
    · exact c.not_isError_storeNotes s d note hnote
    · exact ih _ note hnote

/-! ## The policy of a ruleset -/

/-- Unknown targets are warnings under any settings. -/
lemma of_mem_validate {c : Config} {note : Diagnostic} (h : note ∈ c.validate r inputs) :
    note.kind.isGrave = false ∧ note.isError = false := by
  simp only [validate] at h
  split at h
  · obtain ⟨d, -, rfl⟩ := List.mem_map.1 h
    exact ⟨rfl, rfl⟩
  · exact absurd h List.not_mem_nil

/-- Redundant guards are warnings under any settings. -/
lemma of_mem_redundancies {guards : Guards} {note : Diagnostic} (h : note ∈ guards.redundancies) :
    note.kind.isGrave = false ∧ note.isError = false := by
  obtain ⟨e, -, rfl⟩ := List.mem_map.1 h
  exact ⟨rfl, rfl⟩

/-- **The policy of a strict run**, before its errors are counted, is that of the permissive one
with raised diagnostics. -/
lemma policyOf_strictly : c.strictly.policyOf r inputs =
    { c.permissive.policyOf r inputs with
      config := c.strictly
      diagnostics := (c.permissive.policyOf r inputs).diagnostics.map Diagnostic.raised } := by
  have hvalidate : (c.permissive.validate r inputs).map Diagnostic.raised =
      c.strictly.validate r inputs :=
    Diagnostic.map_raised_eq_self fun note hnote => (of_mem_validate r inputs hnote).1
  have hredundancies : ∀ guards : Guards,
      guards.redundancies.map Diagnostic.raised = guards.redundancies := fun guards =>
    Diagnostic.map_raised_eq_self fun note hnote => (of_mem_redundancies hnote).1
  simp only [policyOf, fillStore_strictly, List.map_append, List.map_map, hvalidate, hredundancies]
  rfl

/-- **A permissive run reports no errors.** -/
lemma not_isError_permissive :
    ∀ note ∈ (c.permissive.policyOf r inputs).diagnostics, note.isError = false := by
  intro note hnote
  simp only [policyOf, List.mem_append, List.mem_map] at hnote
  rcases hnote with
    ((((⟨m, -, rfl⟩ | hnote) | hnote) | ⟨cycle, -, rfl⟩) | hnote) | ⟨conflict, -, rfl⟩
  · rfl
  · exact c.not_isError_fillStoreFrom _ _ note hnote
  · exact (of_mem_validate r inputs hnote).2
  · rfl
  · exact (of_mem_redundancies hnote).2
  · rfl

/-- A strict run stops if something grave is reported, with all that is reported; otherwise its
policy differs in the settings alone. -/
lemma resolve_strictly : c.strictly.resolve r inputs =
    if (c.permissive.policyOf r inputs).diagnostics.any (·.kind.isGrave) then
      .error (.diagnostics ((c.permissive.policyOf r inputs).diagnostics.map Diagnostic.raised))
    else .ok { c.permissive.policyOf r inputs with config := c.strictly } := by
  simp only [resolve, policyOf_strictly,
    Diagnostic.any_isError_map_raised (c.not_isError_permissive r inputs)]
  cases hgrave : (c.permissive.policyOf r inputs).diagnostics.any (·.kind.isGrave) with
  | true => rfl
  | false =>
    rw [Diagnostic.map_raised_eq_self fun note hnote => by
      simpa using List.any_eq_false.1 hgrave note hnote]
    rfl

/-- A permissive run always gives the policy of the ruleset. -/
lemma resolve_permissive :
    c.permissive.resolve r inputs = .ok (c.permissive.policyOf r inputs) := rfl

/-! ## Two runs on a text -/

/-- **A strict run follows the permissive one.** Whatever the settings, the text and the inputs, the
permissive run gives a policy. If the strict run gives one as well, the permissive policy has no
grave diagnostics, and order, placements, fingerprint and diagnostics are the same. If it does not,
the permissive policy has some, and what is reported are its diagnostics with the grave ones raised
to errors; only if the text has malformed lines, it is the complaint about the first of these
alone. -/
theorem strict_run_follows_permissive (c : Config) (name text : String) (inputs : Inputs) :
    ∃ p, c.permissive.resolveText name text inputs = .ok p ∧
      match c.strictly.resolveText name text inputs with
      | .ok q =>
        (∀ d ∈ p.diagnostics, d.kind.isGrave = false) ∧ q.order = p.order ∧
          q.placements = p.placements ∧ q.fingerprint = p.fingerprint ∧
          q.diagnostics = p.diagnostics
      | .error e =>
        (∃ d ∈ p.diagnostics, d.kind.isGrave = true) ∧
          e = .diagnostics (match malformedLines name text with
            | [] => p.diagnostics.map Diagnostic.raised
            | m :: _ => [m.diagnostic .error]) := by
  obtain ⟨r, hr⟩ := Ruleset.exists_ofText_permissive name text
  have hpermissive : c.permissive.resolveText name text inputs =
      .ok (c.permissive.policyOf r inputs) := by
    have hread : Ruleset.ofText c.permissive.ruleMode name text = .ok r := hr
    rw [resolveText, hread]
    exact c.resolve_permissive r inputs
  refine ⟨_, hpermissive, ?_⟩
  have hstrict : Ruleset.ofText c.strictly.ruleMode name text = _ := Ruleset.ofText_strict name text
  rw [resolveText, hstrict]
  cases hmalformed : malformedLines name text with
  | nil =>
    simp only [hr, resolve_strictly]
    cases hgrave : (c.permissive.policyOf r inputs).diagnostics.any (·.kind.isGrave) with
    | true =>
      obtain ⟨d, hd, hkind⟩ := List.any_eq_true.1 hgrave
      exact ⟨⟨d, hd, hkind⟩, rfl⟩
    | false =>
      exact ⟨fun d hd => by simpa using List.any_eq_false.1 hgrave d hd, rfl, rfl, rfl, rfl⟩
  | cons m rest =>
    -- the permissive run reports the malformed line as well
    refine ⟨⟨m.diagnostic .warning, ?_, rfl⟩, rfl⟩
    have hmem : m ∈ r.malformed := by
      rw [(Ruleset.holdsText_of_ofText hr).malformed_eq, hmalformed]
      exact List.mem_cons_self
    simp only [policyOf, List.mem_append, List.mem_map]
    exact .inl (.inl (.inl (.inl (.inl ⟨m, hmem, rfl⟩))))

end Config

end BindingRules
