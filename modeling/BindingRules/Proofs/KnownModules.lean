import BindingRules.Proofs.Conservation
import BindingRules.Proofs.SummaryAnswers

set_option relaxedAutoImplicit false
set_option autoImplicit false

/-!
# The modules of the generation order

A module can come to be known in three ways: the inputs list it, a dependency of the inputs begins
or ends at it, or the rules state a priority for it. The order has all known modules but those that
are excluded. Dropping a dependency does not make its ends unknown, and a guard at a module does not
make it known, so guards are placed between modules of the order only.

## Main definitions

* `Ruleset.Wins` — the directives that are in force and were not overridden.
* `Config.Resolves` — the ways to a policy.

## Main results

* `Statement.trimmed_target` — a target that was read has no blanks around it.
* `Policy.IsResolved.mem_directivesOf` — the live directives of a policy are those that win.
* `Config.order_iff_known` — which modules are in the order of a policy, and where its guards are
  placed.
-/

namespace BindingRules

variable {c : Config} {inputs : Inputs} {r : Ruleset} {p : Policy} {d : Directive}
  {kind : DirectiveKind} {m : String}

/-! ## Targets that were read -/

/-- **A target that was read has no blanks around it.**

**Proof sketch.** Where there is no value behind the target, it is the whole body of the line.
Otherwise it is the part of the body in front of a separator. Blanks are taken off both. -/
lemma Statement.trimmed_target {s : Statement} {text : List Char} (h : ofLine text = .ok s) :
    Text.trimmed s.target = s.target := by
  obtain ⟨sign, word, kind, body, value, parts⟩ := exists_lineParts h
  have hsplit := parts.splitBody_eq
  have htight : Text.Tight s.target.toList := by
    by_cases hshape : kind.shape = .bare
    · have hcut : splitBody kind body = .ok (body, []) := by
        simp [splitBody, splitTarget?, hshape]
      obtain ⟨hbody, -⟩ := Prod.mk.inj (Except.ok.inj (hcut.symm.trans hsplit))
      exact hbody ▸ parts.tight
    · exact (tight_of_splitBody hshape hsplit).1
  rw [Text.trimmed, htight.trim_eq, String.ofList_toList]

/-! ## Directives that win -/

/-- A directive of the rules wins on a platform: it is in force there, and of the directives in
force behind it there is none to which it yields. -/
def Ruleset.Wins (r : Ruleset) (platform : Option String) (d : Directive) : Prop :=
  d ∈ admitted platform r.directives ∧
    ∀ e ∈ admitted platform r.directives, d.order < e.order → ¬ d.YieldsTo e

instance (r : Ruleset) (platform : Option String) (d : Directive) :
    Decidable (r.Wins platform d) := inferInstanceAs (Decidable (_ ∧ _))

/-- A directive that wins counts. -/
lemma Ruleset.Wins.mem_activeDirectives {platform : Option String} (h : r.Wins platform d) :
    d ∈ r.activeDirectives := by
  obtain ⟨hmem, hforce⟩ := List.mem_filter.1 h.1
  exact List.mem_filter.2 ⟨hmem, (Bool.and_eq_true_iff.1 hforce).1⟩

namespace Policy

/-- **The live directives of a policy** are those of its rules that win on its platform. -/
lemma IsResolved.mem_directivesOf (h : p.IsResolved) :
    d ∈ p.store.directivesOf kind ↔
      p.ruleset.Wins (some p.config.platform) d ∧ d.kind = kind := by
  have hincreasing : (admitted (some p.config.platform) p.ruleset.directives).Pairwise
      fun d e => d.order < e.order := h.reflects.increasing.filter _
  rw [h.reflects.directivesOf_eq, List.mem_filter, beq_iff_eq, mem_standing_iff hincreasing,
    Ruleset.Wins]

/-- The modules that live directives give a priority are the targets of those that win, as they are
written. -/
lemma IsResolved.exists_trimmed_target_iff (h : p.IsResolved) :
    (∃ d ∈ p.store.directivesOf kind, Text.trimmed d.target = m) ↔
      ∃ d, p.ruleset.Wins (some p.config.platform) d ∧ d.kind = kind ∧ d.target = m := by
  simp only [h.mem_directivesOf, and_assoc]
  refine exists_congr fun d => and_congr_right fun hwins => and_congr_right fun _ => ?_
  obtain ⟨text, hread⟩ := h.isRead.isRead_of_mem d hwins.mem_activeDirectives
  rw [Statement.trimmed_target hread]

end Policy

/-! ## The order of a policy -/

/-- The ways to a policy under some settings and inputs. -/
inductive Config.Resolves (c : Config) (inputs : Inputs) (p : Policy) : Prop where
  /-- The rules are in a text. -/
  | text {name text : String} (h : c.resolveText name text inputs = .ok p)
  /-- The rules are in files. -/
  | files {files : Files} {paths : List String} (h : c.resolveFiles files paths inputs = .ok p)
  /-- The rules were read before. -/
  | ruleset {r : Ruleset} (hread : r.IsRead) (h : c.resolve r inputs = .ok p)

namespace Config

/-- Whichever way is taken, the policy is that of rules that were read. -/
lemma Resolves.exists_isRead (h : c.Resolves inputs p) :
    ∃ r, r.IsRead ∧ c.resolve r inputs = .ok p := by
  cases h with
  | text h => exact exists_isRead_of_resolveText h
  | files h => exact exists_isRead_of_resolveFiles h
  | ruleset hread h => exact ⟨_, hread, h⟩

/-- The modules taken out of the graph are those of which the policy says that they are excluded,
also where a module is no name. -/
lemma excludesModule_store (p : Policy) (m : String) :
    p.store.excludesModule m = p.isModuleExcluded m := rfl

/-- **The modules of the order** are those that are known and not excluded: whatever the settings,
the rules and the inputs, a module is in the order of a policy exactly if it is not excluded and the
inputs list it, a dependency of the inputs begins or ends at it, or a priority that wins is stated
for it. The guards of the policy are placed between different modules of the order. -/
theorem order_iff_known (h : c.Resolves inputs p) :
    (∀ m, m ∈ p.order ↔ p.isModuleExcluded m = false ∧
      (m ∈ inputs.modules ∨ (∃ e ∈ inputs.dependencies, m = e.source ∨ m = e.target) ∨
        ∃ d, p.ruleset.Wins (some p.config.platform) d ∧ d.kind = .sortPriority ∧ d.target = m)) ∧
    ∀ placement ∈ p.placements, placement.edge.source ∈ p.order ∧
      placement.edge.target ∈ p.order ∧ placement.edge.source ≠ placement.edge.target := by
  obtain ⟨r, hread, hresolve⟩ := h.exists_isRead
  have hresolved : p.IsResolved := ⟨c, r, inputs, hread, hresolve⟩
  obtain rfl := eq_policyOf_of_resolve hresolve
  constructor
  · intro m
    rw [mem_order_policyOf, graphOf, mem_modules_dependencyGraph, excludesModule_store,
      hresolved.exists_trimmed_target_iff, or_assoc, and_comm]
  · intro placement hplacement
    simp only [mem_order_policyOf]
    exact mem_of_mem_placements hplacement

/-- A dependency from an excluded module to a listed one, a dependency of a module on itself, a
module that has a priority only, and a guard. -/
theorem order_iff_known_every_way : ∃ p,
    resolveText {} "rules" "-module B\n+sort D: 2\n+sort D: 1\n+iguard D: A\n"
      { modules := ["A"], dependencies := [⟨"B", "A"⟩, ⟨"C", "C"⟩] } = .ok p ∧
    "A" ∈ p.order ∧ "B" ∉ p.order ∧ "C" ∈ p.order ∧ "D" ∈ p.order ∧ p.placements ≠ [] ∧
    ∀ placement ∈ p.placements, placement.edge.source ∈ p.order ∧
      placement.edge.target ∈ p.order ∧ placement.edge.source ≠ placement.edge.target := by
  let inputs : Inputs := { modules := ["A"], dependencies := [⟨"B", "A"⟩, ⟨"C", "C"⟩] }
  let rules := "-module B\n+sort D: 2\n+sort D: 1\n+iguard D: A\n"
  have hok : (resolveText {} "rules" rules inputs).toOption.any (fun p =>
      p.isModuleExcluded "A" = false ∧ p.isModuleExcluded "B" = true ∧
        p.isModuleExcluded "C" = false ∧ p.isModuleExcluded "D" = false ∧ p.placements ≠ [] ∧
        ∃ d ∈ p.ruleset.directives, p.ruleset.Wins (some p.config.platform) d ∧
          d.kind = .sortPriority ∧ d.target = "D") = true := by decide +kernel
  cases hp : resolveText {} "rules" rules inputs with
  | error e => simp [hp, Except.toOption] at hok
  | ok p =>
    rw [hp] at hok
    obtain ⟨hA, hB, hC, hD, hplaced, d, -, hwins, hkind, htarget⟩ := of_decide_eq_true hok
    obtain ⟨hmem, hends⟩ := order_iff_known (.text hp)
    refine ⟨p, rfl, (hmem "A").2 ⟨hA, .inl ?_⟩, fun hmem' => ?_, (hmem "C").2 ⟨hC, .inr (.inl ?_)⟩,
      (hmem "D").2 ⟨hD, .inr (.inr ⟨d, hwins, hkind, htarget⟩)⟩, hplaced, hends⟩
    · exact List.mem_singleton_self "A"
    · exact absurd (hB.symm.trans ((hmem "B").1 hmem').1) (by decide)
    · exact ⟨⟨"C", "C"⟩, by decide, .inl rfl⟩

end Config

end BindingRules
