import BindingRules.Proofs.KnownTargets
import BindingRules.Proofs.LaterRules
import BindingRules.Proofs.Rows
import BindingRules.Proofs.SummaryAnswers

set_option relaxedAutoImplicit false
set_option autoImplicit false

/-!
# Policies with a single directive

Where a single directive is admitted, no other can take its place or exclude anything beside it, so
all exclusions are its own. A symbol is then left out if the directive is about one of its names, or
by the text of its target, unless it excludes a module or a class with all that belongs to it.

## Main definitions

* `Policy.RestsOn` — policies of which a line states the only active directive.
* `Config.OnlyRule` — what holds of all such policies, of which there are some.

## Main results

* `Store.Reflects.isExcluded_alone`, `Store.Reflects.directivesOf_alone` — the answers of a store
  that admits a single directive.
* `Policy.isSymbolExcluded_alone` — which symbols are left out by a single directive.
* `Config.exists_restsOn` — a line that states a directive is resolved to a policy that rests on it.
-/

namespace BindingRules

open Text

variable {platform : Option String} {kind : DirectiveKind} {d : Directive} {before : List Directive}
  {s : Store} {p : Policy} {symbol : Symbol} {names : List Name}

/-! ## The answers of the store -/

namespace Store

/-- **What a single directive excludes** is what it is about. -/
lemma Reflects.isExcluded_alone (hs : s.Reflects platform before)
    (halone : admitted platform before = [d]) (kind : DirectiveKind) (n : Name) :
    s.isExcluded kind n = (kind.isExclusion && d.toStatement.concerns kind n) := by
  cases hkind : kind.isExclusion with
  | false => simp [isExcluded, hkind]
  | true =>
    rw [isExcluded, hs.query_eq (resolution_of_isExclusion hkind), halone, hkind]
    cases hconcerns : d.toStatement.concerns kind n <;> simp [hconcerns]

/-- A single directive is the only live one of its kind. -/
lemma Reflects.directivesOf_alone (hs : s.Reflects platform before)
    (halone : admitted platform before = [d]) (kind : DirectiveKind) :
    s.directivesOf kind = if d.kind = kind then [d] else [] := by
  rw [hs.directivesOf_eq, halone]
  by_cases hkind : d.kind = kind <;> simp [standing, hkind]

end Store

/-! ## Symbols that are left out -/

/-- Symbols are excluded by directives of kinds that exclude something. -/
lemma isExclusion_exclusionOf (kind : SymbolKind) :
    (Policy.exclusionOf kind).isExclusion = true := by
  cases kind <;> rfl

/-- A directive is about names only in queries of its own kind. -/
lemma kind_eq_of_concerns {n : Name} (h : d.toStatement.concerns kind n = true) : d.kind = kind :=
  (concerns_iff.1 h).1

namespace Policy

/-- **Which symbols are left out by a single directive**, if it excludes neither a module nor a
class: those of which it is about some name, and those that are excluded by the text of its
target. -/
lemma isSymbolExcluded_alone (hs : p.store.Reflects platform before)
    (halone : admitted platform before = [d]) (hmodule : d.kind ≠ .moduleExclude)
    (hclass : d.kind ≠ .classExclude) :
    p.isSymbolExcluded symbol = true ↔ ∃ names, symbol.candidates = .ok names ∧
      ((∃ n ∈ names, d.toStatement.concerns (exclusionOf symbol.kind) n = true) ∨
        d.fitsText d.kind symbol = true) := by
  have hnone : ∀ kind, d.kind ≠ kind → ∀ raw, p.excludes kind raw = false := by
    intro kind hkind raw
    unfold excludes
    split
    · next n hn =>
      rw [hs.isExcluded_alone halone, Bool.and_eq_false_iff]
      exact .inr (Bool.eq_false_iff.2 fun hconcerns => hkind (kind_eq_of_concerns hconcerns))
    · rfl
  have htext : (∃ kind, ∃ e ∈ p.store.directivesOf kind, e.fitsText kind symbol = true) ↔
      d.fitsText d.kind symbol = true := by
    simp only [hs.directivesOf_alone halone]
    constructor
    · rintro ⟨kind, e, he, hfits⟩
      split at he
      · next hkind =>
        obtain rfl := List.mem_singleton.1 he
        exact hkind ▸ hfits
      · cases he
    · exact fun hfits => ⟨d.kind, d, by simp, hfits⟩
  rw [isSymbolExcluded_iff, htext]
  simp only [isModuleExcluded, isClassExcluded, hnone _ hmodule, hnone _ hclass,
    hs.isExcluded_alone halone, isExclusion_exclusionOf, Bool.true_and, Bool.false_eq_true,
    and_false, exists_false, false_or]

end Policy

/-! ## The names of symbols that can be called -/

/-- The names of a symbol that can be called: its own, and one more for a static method. -/
lemma Symbol.candidates_eq_ok_iff (hcallable : symbol.kind.isCallable = true) :
    symbol.candidates = .ok names ↔ ∃ n, symbol.qualifiedName = .ok n ∧
      names = n :: if symbol.kind = .staticMethod then [n.staticVariant] else [] := by
  unfold candidates
  cases hname : symbol.qualifiedName with
  | error e => simp [bind, Except.bind]
  | ok n =>
    cases hkind : symbol.kind <;>
      simp [bind, Except.bind, pure, Except.pure, eq_comm, hkind, SymbolKind.isCallable]
        at hcallable ⊢

/-! ## Policies that rest on a line -/

/-- Whether a policy was resolved from rules in which a line states the only active directive. -/
def Policy.RestsOn (p : Policy) (line : String) : Prop :=
  p.IsResolved ∧ ∃ d, p.ruleset.activeDirectives = [d] ∧
    Statement.ofLine line.toList = .ok d.toStatement

/-- What holds of all policies that rest on a line. There are such policies: under permissive
settings the line alone is resolved to one. -/
def Config.OnlyRule (line : String) (holds : Policy → Prop) : Prop :=
  (∀ (c : Config) (source : String) (inputs : Inputs), c.strict = false →
    ∃ p, c.resolveText source line inputs = .ok p ∧ p.RestsOn line) ∧
  ∀ p : Policy, p.RestsOn line → holds p

variable {line : String} {raw : List Char} {t : Statement} {holds holds' : Policy → Prop}

/-- What holds of all policies that rest on a line may be weakened. -/
lemma Config.OnlyRule.imp (h : OnlyRule line holds) (himp : ∀ p, holds p → holds' p) :
    OnlyRule line holds' :=
  ⟨h.1, fun p hp => himp p (h.2 p hp)⟩

/-- A policy that rests on a line for all platforms admits the directive of that line alone. -/
lemma Policy.RestsOn.exists_admitted (h : p.RestsOn line)
    (hread : Statement.ofLine line.toList = .ok t) (hplatform : t.platform = none) :
    ∃ d, d.toStatement = t ∧ admitted (some p.config.platform) p.ruleset.directives = [d] := by
  obtain ⟨-, d, hactive, hd⟩ := h
  obtain rfl := Except.ok.inj (hread.symm.trans hd)
  refine ⟨d, rfl, ?_⟩
  have happlies : d.appliesTo (some p.config.platform) = true := by
    simp [Statement.appliesTo, hplatform]
  calc admitted (some p.config.platform) p.ruleset.directives
      = p.ruleset.activeDirectives.filter fun d => d.appliesTo (some p.config.platform) := by
        rw [admitted, Ruleset.activeDirectives, List.filter_filter]
        exact List.filter_congr fun d _ => Bool.and_comm _ _
    _ = [d] := by rw [hactive, List.filter_singleton, happlies]; rfl

/-- A line that states a directive is an active one. -/
lemma classify_of_ofLine (htight : Tight raw) (h : Statement.ofLine raw = .ok t) :
    classify raw = .statement t true := by
  obtain ⟨sign, rest, rfl, hsign, -⟩ := Statement.exists_of_ofLine h
  unfold classify
  rw [htight.trim_eq]
  split
  · next heq => cases heq
  · next heq =>
    obtain ⟨rfl, -⟩ := List.cons.inj heq
    cases hsign
  · rw [h]

/-- **The rules of a single line** have the directive that it states. -/
lemma Ruleset.exists_ofText_line (source : String) (hbreak : '\n' ∉ line.toList)
    (htight : Tight line.toList) (h : Statement.ofLine line.toList = .ok t) :
    ∃ r d, ofText .permissive source line = .ok r ∧ r.activeDirectives = [d] ∧
      d.toStatement = t := by
  obtain ⟨r, hr⟩ := exists_ofText_permissive source line
  have hrows : splitLines line.toList = [(line.toList, .endOfSource)] := by
    have hrow : AreRows [(line.toList, .endOfSource)] := ⟨hbreak, htight.ne_nil, rfl⟩
    simpa [joinRows, LineEnding.chars] using splitLines_joinRows hrow
  have hstatements : r.activeDirectives.map Directive.toStatement = [t] := by
    have hrow := activeStatement?_eq_some.2 (classify_of_ofLine htight h)
    simp [(holdsText_of_ofText hr).statements_eq, hrows, hrow]
  obtain ⟨d, hd, hstatement⟩ := List.map_eq_singleton_iff.1 hstatements
  exact ⟨r, d, hr, hd, hstatement⟩

/-- **A line that states a directive is resolved to a policy that rests on it**, under permissive
settings. -/
lemma Config.exists_restsOn (c : Config) (source : String) (inputs : Inputs)
    (hpermissive : c.strict = false) (hbreak : '\n' ∉ line.toList) (htight : Tight line.toList)
    (h : Statement.ofLine line.toList = .ok t) :
    ∃ p, c.resolveText source line inputs = .ok p ∧ p.RestsOn line := by
  obtain ⟨r, d, hr, hactive, rfl⟩ := Ruleset.exists_ofText_line source hbreak htight h
  have hresolve : c.resolveText source line inputs = .ok (c.policyOf r inputs) := by
    have hmode : c.ruleMode = .permissive := by simp [ruleMode, hpermissive]
    rw [resolveText, hmode, hr]
    simp [resolve, hpermissive]
  exact ⟨c.policyOf r inputs, hresolve,
    Policy.isResolved_of_resolve (.inl ⟨source, line, hresolve⟩), d, hactive, h⟩

end BindingRules
