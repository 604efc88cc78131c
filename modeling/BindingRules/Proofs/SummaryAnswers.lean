import BindingRules.Proofs.LineIdentity
import BindingRules.Proofs.RemarkInvariance

set_option relaxedAutoImplicit false
set_option autoImplicit false

/-!
# What a summary says about the answers

The fingerprint of a policy is taken of the lines of its active directives, its order and its
placements, but not of its settings. Two of the settings have a part in the answers. The platform
decides which directives for classes and functions are admitted, and no others, since no other verb
may carry a platform. The default priority decides about the order of symbols. All else that the
answers are made of is known from the lines.

## Main results

* `Policy.IsResolved.reflects` — what the store of a resolved policy holds.
* `Statement.platform_eq_none` — which statements are limited to no platform.
* `Ruleset.alike_admitted` — directives are admitted alike on platforms where the same ones apply.
* `Policy.summary_determines_answers` — which answers policies with the same summary have in common.
-/

namespace BindingRules

/-! ## Policies that were resolved -/

namespace Policy

variable {p : Policy}

/-- The store of a policy reflects its directives, under the platform of its settings. -/
lemma IsResolved.reflects (h : p.IsResolved) :
    p.store.Reflects (some p.config.platform) p.ruleset.directives := by
  obtain ⟨c, r, inputs, hread, hresolve⟩ := h
  obtain rfl := Config.eq_policyOf_of_resolve hresolve
  exact c.reflects_fillStore hread.increasing

end Policy

/-! ## Which directives have a platform -/

/-- **A statement that was read is limited to no platform** if its verb may carry none. -/
lemma Statement.platform_eq_none {s : Statement} {text : List Char}
    (h : Statement.ofLine text = .ok s) (hkind : s.kind.takesPlatform = false) :
    s.platform = none := by
  obtain ⟨sign, word, kind, body, value, parts⟩ := Statement.exists_lineParts h
  have hread := parts.readPayload_eq
  have hplatform := parts.takesPlatform
  cases htakes : kind.takesPlatform with
  | false => simpa [htakes] using hplatform
  | true =>
    -- the value of such a verb does not change its kind
    have hsame : s.kind = kind := by
      cases kind <;> first
        | exact (Prod.mk.inj (Except.ok.inj hread)).1.symm
        | cases htakes
    rw [hsame, htakes] at hkind
    cases hkind

namespace Ruleset

variable {r r' : Ruleset} {platform platform' : Option String}

/-- Where a verb may carry no platform, an active directive that was read applies everywhere. -/
lemma IsRead.appliesTo {d : Directive} (h : r.IsRead) (hd : d ∈ r.activeDirectives)
    (hkind : d.kind.takesPlatform = false) (platform : Option String) :
    d.appliesTo platform = true := by
  obtain ⟨text, hread⟩ := h.isRead_of_mem d hd
  simp only [Statement.appliesTo, Statement.platform_eq_none hread hkind]

/-- **Directives are admitted alike** on two platforms, from rules that state the same, as far as
the same ones apply on both. -/
lemma alike_admitted (h : Alike Directive.toStatement r.activeDirectives r'.activeDirectives)
    (q : Statement → Bool) (happlies : ∀ d ∈ r.activeDirectives, q d.toStatement = true →
      d.appliesTo platform = d.appliesTo platform') :
    Alike Directive.toStatement ((admitted platform r.directives).filter fun d => q d.toStatement)
      ((admitted platform' r'.directives).filter fun d => q d.toStatement) := by
  have hadmitted : ∀ (platform : Option String) (r : Ruleset),
      ((admitted platform r.directives).filter fun d => q d.toStatement) =
        r.activeDirectives.filter fun d => q d.toStatement && d.appliesTo platform := by
    intro platform r
    simp only [admitted, activeDirectives, List.filter_filter]
    exact List.filter_congr fun d _ => by ac_rfl
  have hsame : (r.activeDirectives.filter fun d => q d.toStatement && d.appliesTo platform) =
      r.activeDirectives.filter fun d => q d.toStatement && d.appliesTo platform' := by
    refine List.filter_congr fun d hd => ?_
    cases hq : q d.toStatement with
    | true => rw [happlies d hd hq]
    | false => rfl
  rw [hadmitted, hadmitted, hsame]
  exact h.filter fun s => q s && s.appliesTo platform'

end Ruleset

/-! ## Policies with the same summary -/

namespace Policy

/-- **What the answers of policies with the same summary have in common.** Whatever the settings,
the rules and the inputs, the same modules are excluded, and symbols have the same names in the
bindings. The same symbols are excluded if the same active directives apply on both platforms, and
symbols are put into the same order if the default priority is the same. -/
theorem summary_determines_answers (p p' : Policy) (h : p.IsResolved) (h' : p'.IsResolved)
    (hsummary : p.summary = p'.summary) :
    p.isModuleExcluded = p'.isModuleExcluded ∧ p.bindingName? = p'.bindingName? ∧
      ((∀ d ∈ p.ruleset.activeDirectives, d.appliesTo (some p.config.platform) =
          d.appliesTo (some p'.config.platform)) → p.isSymbolExcluded = p'.isSymbolExcluded) ∧
      (p.config.defaultSymbolPriority = p'.config.defaultSymbolPriority →
        p.symbolOrder = p'.symbolOrder) := by
  have hlines : p.summary.get? "directives" = p'.summary.get? "directives" :=
    congrArg (·.get? "directives") hsummary
  have halike : Alike Directive.toStatement p.ruleset.activeDirectives
      p'.ruleset.activeDirectives :=
    h.isRead.alike_of_map_line_eq h'.isRead (map_line_eq_of_summary hlines)
  -- kinds of which the verbs carry no platform are admitted alike on any two platforms
  have hadmitted : ∀ kind : DirectiveKind, kind.takesPlatform = false →
      Alike Directive.toStatement
        ((admitted (some p.config.platform) p.ruleset.directives).filter (·.kind == kind))
        ((admitted (some p'.config.platform) p'.ruleset.directives).filter (·.kind == kind)) :=
    fun kind hkind => Ruleset.alike_admitted halike (·.kind == kind) fun d hd hdkind => by
      have htakes : d.kind.takesPlatform = false := by rwa [eq_of_beq hdkind]
      rw [h.isRead.appliesTo hd htakes, h.isRead.appliesTo hd htakes]
  refine ⟨?_, ?_, fun happlies => ?_, fun hdefault => ?_⟩
  · funext module
    have hexcluded : p.store.isExcluded .moduleExclude = p'.store.isExcluded .moduleExclude :=
      Store.isExcluded_congr fun n hkind =>
        h.reflects.query_alike h'.reflects (hadmitted .moduleExclude rfl) hkind n
    simp only [isModuleExcluded, excludes, hexcluded]
  · have hvalue : p.value? .nameOverride = p'.value? .nameOverride :=
      value?_congr fun n => h.reflects.query_alike h'.reflects (hadmitted .nameOverride rfl) rfl n
    exact hvalue
  · have hall : Alike Directive.toStatement
        (admitted (some p.config.platform) p.ruleset.directives)
        (admitted (some p'.config.platform) p'.ruleset.directives) := by
      simpa only [List.filter_true] using
        Ruleset.alike_admitted halike (fun _ => true) fun d hd _ => happlies d hd
    exact (h.reflects.answersAlike_of_admitted h'.reflects hall).isSymbolExcluded_eq
  · have hrules : p.symbolRules = p'.symbolRules :=
      symbolRules_congr (h.reflects.directivesOf_alike h'.reflects (hadmitted .symbolPriority rfl))
    funext module symbols
    simp only [symbolOrder, hrules, hdefault]

/-- The policy of a run without modules, of which the lines and something else can be computed. -/
lemma exists_of_run (run : Except ResolveError Policy) (lines : List String) (q : Policy → Bool)
    (h : (run.toOption.any fun p => p.ruleset.activeDirectives.map Directive.line = lines ∧
      p.order = [] ∧ p.placements = [] ∧ q p) = true) :
    ∃ p, run = .ok p ∧ p.summary = .obj [("directives", .strings lines), ("order", .strings []),
      ("placements", .arr [])] ∧ q p = true := by
  cases run with
  | error e => cases h
  | ok p =>
    obtain ⟨rfl, horder, hplacements, hq⟩ := of_decide_eq_true h
    exact ⟨p, rfl, by simp [summary, horder, hplacements], hq⟩

/-- Rules in different layouts, under platforms on neither of which the first one applies. -/
theorem summary_determines_answers_neither_platform : ∃ p p',
    Config.resolveText {} "rules" "-class@win32 Foo\n+sort M: b=1\n" {} = .ok p ∧
    Config.resolveText { platform := "macos", validateSymbols := false } "more"
      "# rules\n  -class@win32  Foo\r\n+sort M : b = 1" {} = .ok p' ∧
    p.summary = p'.summary ∧ p.isModuleExcluded = p'.isModuleExcluded ∧
    p.bindingName? = p'.bindingName? ∧ p.isSymbolExcluded = p'.isSymbolExcluded ∧
    p.symbolOrder = p'.symbolOrder := by
  obtain ⟨p, hp, hlines, hq⟩ := exists_of_run
    (Config.resolveText {} "rules" "-class@win32 Foo\n+sort M: b=1\n" {})
    ["-class@win32 Foo", "+sort M: b=1"]
    (fun p => p.config = {} ∧ ∀ d ∈ p.ruleset.activeDirectives,
      d.appliesTo (some "linux") = d.appliesTo (some "macos"))
    (by decide +kernel)
  obtain ⟨p', hp', hlines', hq'⟩ := exists_of_run
    (Config.resolveText { platform := "macos", validateSymbols := false } "more"
      "# rules\n  -class@win32  Foo\r\n+sort M : b = 1" {})
    ["-class@win32 Foo", "+sort M: b=1"]
    (fun p => p.config = { platform := "macos", validateSymbols := false })
    (by decide +kernel)
  obtain ⟨hconfig, happlies⟩ := of_decide_eq_true hq
  have hconfig' := of_decide_eq_true hq'
  have hsummary := hlines.trans hlines'.symm
  obtain ⟨hmodule, hname, hsymbol, horder⟩ := summary_determines_answers p p'
    (isResolved_of_resolve (.inl ⟨_, _, hp⟩)) (isResolved_of_resolve (.inl ⟨_, _, hp'⟩)) hsummary
  refine ⟨p, p', hp, hp', hsummary, hmodule, hname, hsymbol ?_, horder ?_⟩
  · rw [hconfig, hconfig']
    exact happlies
  · rw [hconfig, hconfig']

/-- Settings with different platforms, and settings with different default priorities: the rules
and the summary are the same, and the answers are not. -/
theorem summary_determines_answers_settings_differ :
    let s : Symbol := { kind := .plainClass, name := "Foo" }
    (∃ p p', Config.resolveText { platform := "win32" } "rules" "-class@win32 Foo\n" {} = .ok p ∧
      Config.resolveText {} "rules" "-class@win32 Foo\n" {} = .ok p' ∧ p.summary = p'.summary ∧
      p.isSymbolExcluded s = true ∧ p'.isSymbolExcluded s = false) ∧
    ∃ p p', Config.resolveText { defaultSymbolPriority := 0 } "rules" "+sort M: b=1\n" {} =
        .ok p ∧
      Config.resolveText {} "rules" "+sort M: b=1\n" {} = .ok p' ∧ p.summary = p'.summary ∧
      p.symbolOrder "M" ["a", "b"] = ["a", "b"] ∧ p'.symbolOrder "M" ["a", "b"] = ["b", "a"] := by
  intro s
  constructor
  · obtain ⟨p, hp, hlines, hq⟩ := exists_of_run
      (Config.resolveText { platform := "win32" } "rules" "-class@win32 Foo\n" {})
      ["-class@win32 Foo"] (·.isSymbolExcluded s) (by decide +kernel)
    obtain ⟨p', hp', hlines', hq'⟩ := exists_of_run
      (Config.resolveText {} "rules" "-class@win32 Foo\n" {})
      ["-class@win32 Foo"] (!·.isSymbolExcluded s) (by decide +kernel)
    exact ⟨p, p', hp, hp', hlines.trans hlines'.symm, hq, by simpa using hq'⟩
  · obtain ⟨p, hp, hlines, hq⟩ := exists_of_run
      (Config.resolveText { defaultSymbolPriority := 0 } "rules" "+sort M: b=1\n" {})
      ["+sort M: b=1"]
      (fun p => p.symbolRules "M" = [⟨"b", 1⟩] ∧ p.config.defaultSymbolPriority = 0)
      (by decide +kernel)
    obtain ⟨p', hp', hlines', hq'⟩ := exists_of_run
      (Config.resolveText {} "rules" "+sort M: b=1\n" {}) ["+sort M: b=1"]
      (fun p => p.symbolRules "M" = [⟨"b", 1⟩] ∧ p.config.defaultSymbolPriority = 10000)
      (by decide +kernel)
    obtain ⟨hrules, hdefault⟩ := of_decide_eq_true hq
    obtain ⟨hrules', hdefault'⟩ := of_decide_eq_true hq'
    refine ⟨p, p', hp, hp', hlines.trans hlines'.symm, ?_, ?_⟩
    · rw [symbolOrder, hrules, hdefault]
      exact List.mergeSort_of_pairwise (by decide +kernel)
    · have hlt : symbolPriority [⟨"b", 1⟩] 10000 "b" < symbolPriority [⟨"b", 1⟩] 10000 "a" := by
        decide +kernel
      rw [symbolOrder, hrules', hdefault', orderSymbols, List.mergeSort]
      simp [hlt]

end Policy

end BindingRules
