import BindingRules.Proofs.KnownModules
import BindingRules.Proofs.ShellPattern
import BindingRules.Proofs.SingleDirective

set_option relaxedAutoImplicit false
set_option autoImplicit false

/-!
# Functions that are excluded in all scopes

A directive can exclude all functions with some last identifier, in whatever scope they are. Its
target is a shell pattern for identifiers. Operators are named by such identifiers too, some of them
with an asterisk, so a pattern can describe an operator and not be found to match it.

A static method has a second name, with a final underscore. Directives of other kinds may use either
name. A pattern for the last identifier is looked for in both when targets are looked up in the
symbol table, but only the first one decides whether the method is left out.

## Main results

* `Policy.isFunctionExcluded_by_pattern` — which functions are excluded by shell patterns.
* `SymbolIndex.knowsBaseName_iff` — which patterns are known to the symbol table.
* `Policy.isSymbolExcluded_by_baseName` — which symbols are left out by a single pattern.
* `Config.unknownTargets_iff_leavesOut` — how warnings about patterns and what they leave out agree.
-/

namespace BindingRules

open Text

variable {platform : Option String} {kind : DirectiveKind} {d : Directive} {n : Name}
  {before : List Directive} {s : Store} {p : Policy} {symbol : Symbol} {symbols : List Symbol}
  {raw : String}

/-! ## Which functions are excluded -/

namespace Policy

/-- A name is excluded if some directive of the kind is in force for it. -/
lemma IsResolved.isExcluded_iff (h : p.IsResolved) (hkind : kind.isExclusion = true) :
    p.store.isExcluded kind n = true ↔
      ∃ d ∈ p.ruleset.directives, d.InForce (some p.config.platform) kind n := by
  rw [Store.isExcluded, hkind, Bool.true_and, Option.isSome_iff_ne_none, ne_eq,
    Store.query_eq_none_iff h.reflects (Store.resolution_of_isExclusion hkind)]
  simp only [not_forall, not_not, exists_prop]

/-- A last identifier is excluded if the target of a directive that wins matches it, as it is
written. -/
lemma IsResolved.isBaseNameExcluded_iff (h : p.IsResolved) :
    p.isBaseNameExcluded n = true ↔
      ∃ d, p.ruleset.Wins (some p.config.platform) d ∧ d.kind = .functionNameExclude ∧
        wildcardMatch d.target.toList n.baseName.toList = true := by
  simp only [isBaseNameExcluded, List.any_eq_true, h.mem_directivesOf, and_assoc]
  refine exists_congr fun d => and_congr_right fun hwins => and_congr_right fun _ => ?_
  obtain ⟨text, hread⟩ := h.isRead.isRead_of_mem d hwins.mem_activeDirectives
  have htrim : trim d.target.toList = d.target.toList := by
    simpa [trimmed] using congrArg String.toList (Statement.trimmed_target hread)
  rw [htrim]

/-- **Which functions are excluded**: those for which a directive is in force, and those of which
the last identifier matches the target of one that wins. -/
lemma IsResolved.isFunctionExcluded_iff (h : p.IsResolved) (hn : Name.normalize raw = .ok n) :
    p.isFunctionExcluded raw = true ↔
      (∃ d ∈ p.ruleset.directives, d.InForce (some p.config.platform) .functionExclude n) ∨
        ∃ d, p.ruleset.Wins (some p.config.platform) d ∧ d.kind = .functionNameExclude ∧
          wildcardMatch d.target.toList n.baseName.toList = true := by
  simp only [isFunctionExcluded, hn]
  rw [Bool.or_eq_true, h.isExcluded_iff rfl, h.isBaseNameExcluded_iff]

/-- **Functions are excluded by shell patterns in every scope**, unless asterisks meet. Whatever the
settings, the rules and the inputs, a function is excluded if the target of a directive that wins
describes its last identifier, and no asterisk of the target can come to stand against one of the
identifier. It is not excluded if no such target describes the identifier and no directive for
functions is in force for its name. -/
theorem isFunctionExcluded_by_pattern (p : Policy) (h : p.IsResolved)
    (hn : Name.normalize raw = .ok n) :
    ((∃ d, p.ruleset.Wins (some p.config.platform) d ∧ d.kind = .functionNameExclude ∧
        Fits d.target.toList n.baseName.toList ∧ ¬ Meets d.target.toList n.baseName.toList) →
      p.isFunctionExcluded raw = true) ∧
    ((∀ d, p.ruleset.Wins (some p.config.platform) d → d.kind = .functionNameExclude →
        ¬ Fits d.target.toList n.baseName.toList) →
      (∀ d ∈ p.ruleset.directives, ¬ d.InForce (some p.config.platform) .functionExclude n) →
      p.isFunctionExcluded raw = false) := by
  constructor
  · rintro ⟨d, hwins, hkind, hfits, hclear⟩
    have hmatch := wildcardMatch_of_fits hfits hclear
    exact (h.isFunctionExcluded_iff hn).2 (.inr ⟨d, hwins, hkind, hmatch⟩)
  · intro hfits hforce
    rw [Bool.eq_false_iff]
    intro hexcluded
    rcases (h.isFunctionExcluded_iff hn).1 hexcluded with ⟨d, hd, hd'⟩ | ⟨d, hwins, hkind, hmatch⟩
    · exact hforce d hd hd'
    · exact hfits d hwins hkind (fits_of_wildcardMatch hmatch)

/-- A function is excluded in a scope of which nothing is said, and another one is not. -/
theorem isFunctionExcluded_by_pattern_dump : ∃ p,
    Config.resolveText {} "rules" "-function* Append\n-function* ?ump*\n" {} = .ok p ∧
      p.isFunctionExcluded "NCollection_List<T>::DumpJson(int) const" = true ∧
      p.isFunctionExcluded "NCollection_List<T>::Appended" = false := by
  have hok : (Config.resolveText {} "rules" "-function* Append\n-function* ?ump*\n"
      {}).toOption.any (fun p =>
        (∃ d ∈ p.ruleset.directives, p.ruleset.Wins (some p.config.platform) d ∧
          d.kind = .functionNameExclude ∧ d.target = "?ump*") ∧
        ∀ d ∈ p.ruleset.directives, d.kind = .functionNameExclude ∧
          wildcardMatch d.target.toList "Appended".toList = false) = true := by decide +kernel
  have hdump : Name.normalize "NCollection_List<T>::DumpJson(int) const" =
      .ok (.path ⟨[.template "NCollection_List", .exact "DumpJson"], some "(int)const"⟩) := by
    decide +kernel
  have happended : Name.normalize "NCollection_List<T>::Appended" =
      .ok (.path ⟨[.template "NCollection_List", .exact "Appended"], none⟩) := by decide +kernel
  have hfits : Fits "?ump*".toList "DumpJson".toList := by
    simpa using (fits_append_asterisk "ump".toList "Json".toList).mark 'D'
  cases hp : Config.resolveText {} "rules" "-function* Append\n-function* ?ump*\n" {} with
  | error e =>
    rw [hp] at hok
    cases hok
  | ok p =>
    rw [hp] at hok
    obtain ⟨⟨d, -, hwins, hkind, htarget⟩, hnone⟩ := of_decide_eq_true hok
    have hresolved : p.IsResolved := isResolved_of_resolve (.inl ⟨_, _, hp⟩)
    refine ⟨p, rfl, ?_, ?_⟩
    · refine (isFunctionExcluded_by_pattern p hresolved hdump).1 ⟨d, hwins, hkind, ?_, ?_⟩
      · exact htarget ▸ hfits
      · exact not_meets_of_notMem (by decide +kernel)
    · refine (isFunctionExcluded_by_pattern p hresolved happended).2
        (fun e hwins hkind hfits => ?_) fun e he hforce => ?_
      · have hmatch := wildcardMatch_of_fits hfits (not_meets_of_notMem (by decide +kernel))
        exact Bool.false_ne_true ((hnone e (List.mem_filter.1 hwins.1).1).2.symm.trans hmatch)
      · exact absurd ((hnone e he).1.symm.trans hforce.kind_eq) (by decide)

/-- **An operator that is not excluded**, although its identifier begins with what stands in front
of the asterisk in the pattern: the asterisk is taken for the one in the identifier. -/
theorem operator_not_excluded_by_pattern :
    Name.normalize "Foo::operator*=" =
        .ok (.path ⟨[.exact "Foo", .exact "operator*="], none⟩) ∧
      Fits "operator*".toList "operator*=".toList ∧
      (Config.resolveText {} "rules" "-function* operator*\n" {}).map (fun p =>
        ((p.store.directivesOf .functionNameExclude).map (·.target),
          p.isFunctionExcluded "Foo::operator*=")) = .ok (["operator*"], false) := by
  refine ⟨by decide +kernel, ?_, by decide +kernel⟩
  simpa using fits_append_asterisk "operator".toList ['*', '=']

end Policy

/-! ## Which patterns are known -/

namespace SymbolIndex

/-- The index has the last identifiers of all names of symbols that can be called. -/
lemma mem_baseNames_ofSymbols {b : String} : b ∈ (ofSymbols symbols).baseNames ↔
    ∃ symbol ∈ symbols, symbol.kind.isCallable = true ∧
      ∃ names, symbol.candidates = .ok names ∧ ∃ n ∈ names, n.baseName = b := by
  simp only [ofSymbols, List.mem_flatMap, List.mem_filter, List.mem_map, namesOf, and_assoc]
  refine exists_congr fun symbol => and_congr_right fun _ => and_congr_right fun _ => ?_
  cases symbol.candidates <;> simp [Except.toOption]

/-- **A pattern is known** if it matches the last identifier of some symbol that can be called, or
that of the second name of a static method. -/
lemma knowsBaseName_iff (pattern : String) : (ofSymbols symbols).knowsBaseName pattern = true ↔
    ∃ symbol ∈ symbols, symbol.kind.isCallable = true ∧ ∃ n, symbol.qualifiedName = .ok n ∧
      (wildcardMatch pattern.toList n.baseName.toList = true ∨ symbol.kind = .staticMethod ∧
        wildcardMatch pattern.toList n.staticVariant.baseName.toList = true) := by
  have hequal : ∀ b : String, (b == pattern || wildcardMatch pattern.toList b.toList) = true ↔
      wildcardMatch pattern.toList b.toList = true := by
    intro b
    rw [Bool.or_eq_true, beq_iff_eq]
    refine or_iff_right_of_imp ?_
    rintro rfl
    exact wildcardMatch_self _
  simp only [knowsBaseName, List.any_eq_true, hequal, mem_baseNames_ofSymbols]
  constructor
  · rintro ⟨b, ⟨symbol, hsymbol, hcallable, names, hnames, n, hn, rfl⟩, hmatch⟩
    obtain ⟨m, hm, rfl⟩ := (Symbol.candidates_eq_ok_iff hcallable).1 hnames
    refine ⟨symbol, hsymbol, hcallable, m, hm, ?_⟩
    rcases List.mem_cons.1 hn with rfl | hn
    · exact .inl hmatch
    · split at hn
      · next hstatic =>
        obtain rfl := List.mem_singleton.1 hn
        exact .inr ⟨hstatic, hmatch⟩
      · cases hn
  · rintro ⟨symbol, hsymbol, hcallable, n, hn, hmatch⟩
    have hnames := (Symbol.candidates_eq_ok_iff hcallable).2 ⟨n, hn, rfl⟩
    rcases hmatch with hmatch | ⟨hstatic, hmatch⟩
    · exact ⟨_, ⟨symbol, hsymbol, hcallable, _, hnames, n, List.mem_cons_self, rfl⟩, hmatch⟩
    · refine ⟨_, ⟨symbol, hsymbol, hcallable, _, hnames, n.staticVariant, ?_, rfl⟩, hmatch⟩
      simp [hstatic]

end SymbolIndex

/-! ## What a single pattern leaves out -/

/-- **Which symbols are left out by a single pattern**: those that can be called and of which it
matches the last identifier. -/
lemma Policy.isSymbolExcluded_by_baseName (hs : p.store.Reflects platform before)
    (halone : admitted platform before = [d]) (hkind : d.kind = .functionNameExclude) :
    p.isSymbolExcluded symbol = true ↔ symbol.kind.isCallable = true ∧
      ∃ n, symbol.qualifiedName = .ok n ∧
        wildcardMatch (trim d.target.toList) n.baseName.toList = true := by
  have hconcerns : ∀ n, d.toStatement.concerns (exclusionOf symbol.kind) n = false := by
    intro n
    rw [Bool.eq_false_iff]
    intro h
    have hkind' := hkind.symm.trans (kind_eq_of_concerns h)
    cases hsymbol : symbol.kind <;> simp [hsymbol, exclusionOf] at hkind'
  rw [isSymbolExcluded_alone hs halone (by simp [hkind]) (by simp [hkind]), hkind]
  simp only [hconcerns, Bool.false_eq_true, and_false, exists_false, false_or, Directive.fitsText,
    Bool.and_eq_true]
  constructor
  · rintro ⟨names, hnames, hcallable, hmatch⟩
    obtain ⟨n, hn, rfl⟩ := (Symbol.candidates_eq_ok_iff hcallable).1 hnames
    exact ⟨hcallable, n, hn, by simpa [hnames, Except.toOption] using hmatch⟩
  · rintro ⟨hcallable, n, hn, hmatch⟩
    have hnames := (Symbol.candidates_eq_ok_iff hcallable).2 ⟨n, hn, rfl⟩
    exact ⟨_, hnames, hcallable, by simpa [hnames, Except.toOption] using hmatch⟩

namespace Config

/-- **Warnings about patterns agree with what these leave out**, but for the second names of static
methods. Let a directive for the functions of all scopes be active and, as the verb demands, not
limited to a platform. Rules with this directive alone are resolved under permissive settings.
Whatever the settings, there is no warning about it exactly if the policy leaves out some symbol of
the table that can be called, or the target matches the last identifier of the second name of a
static method.

**Proof sketch.** No other directive excludes anything, and this one is about the name of no symbol,
so a symbol is left out only if the target matches the last identifier of its name. -/
theorem unknownTargets_iff_leavesOut (c : Config) (r : Ruleset) (inputs : Inputs)
    (symbols : List Symbol) (hr : r.directives = [d]) (hkind : d.kind = .functionNameExclude)
    (hactive : d.active = true) (hplatform : d.platform = none) :
    (c.strict = false → ∃ p, c.resolve r inputs = .ok p) ∧
    ∀ p, c.resolve r inputs = .ok p →
      (unknownTargets r.directives (SymbolIndex.ofSymbols symbols) = [] ↔
        (∃ symbol ∈ symbols, symbol.kind.isCallable = true ∧
          (∃ names, symbol.candidates = .ok names) ∧ p.isSymbolExcluded symbol = true) ∨
        ∃ symbol ∈ symbols, symbol.kind = .staticMethod ∧ ∃ n, symbol.qualifiedName = .ok n ∧
          wildcardMatch (trim d.target.toList) n.staticVariant.baseName.toList = true) := by
  refine ⟨fun hpermissive => ⟨c.policyOf r inputs, by simp [resolve, hpermissive]⟩,
    fun p hp => ?_⟩
  obtain rfl := eq_policyOf_of_resolve hp
  have hs : (c.policyOf r inputs).store.Reflects (some c.platform) [d] := by
    rw [← hr]
    exact c.reflects_fillStore (by simp [hr])
  have halone : admitted (some c.platform) [d] = [d] := by
    simp [admitted, hactive, Statement.appliesTo, hplatform]
  have hsilent : unknownTargets r.directives (SymbolIndex.ofSymbols symbols) = [] ↔
      (SymbolIndex.ofSymbols symbols).knowsBaseName (trimmed d.target) = true := by
    simp [unknownTargets, hr, hactive, hkind, DirectiveKind.targetsSymbol, Directive.isKnown]
  rw [hsilent, SymbolIndex.knowsBaseName_iff]
  simp only [Policy.isSymbolExcluded_by_baseName hs halone hkind, trimmed, String.toList_ofList]
  constructor
  · rintro ⟨symbol, hsymbol, hcallable, n, hn, hmatch | ⟨hstatic, hmatch⟩⟩
    · have hnames := (Symbol.candidates_eq_ok_iff hcallable).2 ⟨n, hn, rfl⟩
      exact .inl ⟨symbol, hsymbol, hcallable, ⟨_, hnames⟩, hcallable, n, hn, hmatch⟩
    · exact .inr ⟨symbol, hsymbol, hstatic, n, hn, hmatch⟩
  · rintro (⟨symbol, hsymbol, hcallable, -, -, n, hn, hmatch⟩ |
      ⟨symbol, hsymbol, hstatic, n, hn, hmatch⟩)
    · exact ⟨symbol, hsymbol, hcallable, n, hn, .inl hmatch⟩
    · have hcallable : symbol.kind.isCallable = true := by rw [hstatic]; rfl
      exact ⟨symbol, hsymbol, hcallable, n, hn, .inr ⟨hstatic, hmatch⟩⟩

/-- A pattern that leaves out a static method by its own name, beside a symbol of which the name
cannot be read. -/
theorem unknownTargets_iff_leavesOut_dump :
    let d : Directive :=
      { kind := .functionNameExclude, target := "D?mp", payload := .absent, order := 0,
        active := true, location := ⟨"rules", 1⟩ }
    let r : Ruleset := ⟨[⟨"rules", [⟨"-function* D?mp", .lineFeed, ⟨"rules", 1⟩, .directive d⟩]⟩]⟩
    let symbols : List Symbol :=
      [{ kind := .method, name := "Dump<" }, { kind := .staticMethod, name := "gp_Pnt::Dump" }]
    Ruleset.ofText .permissive "rules" "-function* D?mp\n" = .ok r ∧
      (r.directives = [d] ∧ d.kind = .functionNameExclude ∧ d.active = true ∧ d.platform = none) ∧
      ∃ p, resolve {} r {} = .ok p ∧
        unknownTargets r.directives (SymbolIndex.ofSymbols symbols) = [] ∧
        ∃ symbol ∈ symbols, symbol.kind.isCallable = true ∧
          (∃ names, symbol.candidates = .ok names) ∧ p.isSymbolExcluded symbol = true := by
  intro d r symbols
  have hsilent : unknownTargets r.directives (SymbolIndex.ofSymbols symbols) = [] := by
    decide +kernel
  have hstatic : ∀ symbol ∈ symbols, symbol.qualifiedName.toOption.any (fun n =>
      wildcardMatch (trim d.target.toList) n.staticVariant.baseName.toList) = false := by
    decide +kernel
  obtain ⟨hrun, hagree⟩ :=
    unknownTargets_iff_leavesOut (d := d) {} r {} symbols rfl rfl rfl rfl
  obtain ⟨p, hp⟩ := hrun rfl
  refine ⟨by decide +kernel, ⟨rfl, rfl, rfl, rfl⟩, p, hp, hsilent, ?_⟩
  refine ((hagree p hp).1 hsilent).resolve_right ?_
  rintro ⟨symbol, hsymbol, -, n, hn, hmatch⟩
  have hnot := hstatic symbol hsymbol
  simp only [hn, Except.toOption, Option.any_some] at hnot
  rw [hnot] at hmatch
  cases hmatch

/-- **A pattern that is known and leaves nothing out**: it matches the last identifier of the second
name of a static method. The method is not left out, although its second name is one of an excluded
function. -/
theorem pattern_for_staticVariant_leavesOut_nothing :
    let symbol : Symbol := { kind := .staticMethod, name := "A::Find" }
    (resolveText {} "rules" "-function* Find_\n" { symbols := [symbol] }).map (fun p =>
        (p.ruleset.directives.map fun d => (d.kind, d.target),
          unknownTargets p.ruleset.directives (SymbolIndex.ofSymbols [symbol]),
          p.isSymbolExcluded symbol, p.isFunctionExcluded "A::Find_")) =
      .ok ([(.functionNameExclude, "Find_")], [], false, true) := by
  decide +kernel

end Config

end BindingRules
