import BindingRules.Proofs.RulesetReading
import BindingRules.Proofs.StoreAnswers

set_option relaxedAutoImplicit false
set_option autoImplicit false

/-!
# What later rules take back

Rules that are added behind others cannot end the exclusion of a name: some directive is about it as
before. But return types and the functions of all scopes are excluded by the texts of targets, while
directives for them are told apart by the names that these texts stand for. So a pattern for a
return type gives way to a later one that differs in its template arguments alone, and what the
first one excluded may no longer be.

## Main definitions

* `Directive.fitsText` — whether a symbol is excluded by the text of a target.
* `Policy.GivesWay` — a directive that gives way to a later one with another text.

## Main results

* `Ruleset.exists_ofText_append` — a text behind a line feed adds directives.
* `Store.isExcluded_append`, `Store.exists_mem_directivesOf_append` — what later directives do to
  the answers of a store.
* `Config.exclusions_persist_or_give_way` — a symbol stays excluded unless it was by the text of a
  target that gives way.
-/

namespace BindingRules

variable {platform : Option String} {kind : DirectiveKind} {n : Name} {d e : Directive}
  {before later ds : List Directive} {store store' : Store}

/-! ## Reading on -/

/-- A line feed ends a line, and the lines behind it do not depend on that one. -/
lemma exists_splitLinesAfter_lineFeed (line : List Char) :
    ∃ row, ∀ rest, splitLinesAfter line ('\n' :: rest) = row :: splitLinesAfter [] rest := by
  by_cases h : ∃ front, line = '\r' :: front
  · obtain ⟨front, rfl⟩ := h
    exact ⟨_, fun rest => by rw [splitLinesAfter]⟩
  · exact ⟨_, fun rest => by rw [splitLinesAfter]; exact fun front hfront => h ⟨front, hfront⟩⟩

/-- The lines of a text behind a line feed are read as if the text began there. -/
lemma splitLinesAfter_append (line s rest : List Char) :
    splitLinesAfter line (s ++ '\n' :: rest) =
      splitLinesAfter line (s ++ ['\n']) ++ splitLinesAfter [] rest := by
  induction s generalizing line with
  | nil =>
    obtain ⟨row, hrow⟩ := exists_splitLinesAfter_lineFeed line
    rw [List.nil_append, List.nil_append, hrow, hrow]
    rfl
  | cons c s ih =>
    rw [List.cons_append, List.cons_append]
    by_cases hc : c = '\n'
    · obtain ⟨row, hrow⟩ := exists_splitLinesAfter_lineFeed line
      rw [hc, hrow, hrow, ih, List.cons_append]
    · rw [splitLinesAfter, splitLinesAfter, ih]
      all_goals exact hc

/-- **A text behind a line feed adds directives** to those in front of it. -/
lemma Ruleset.exists_ofText_append (name rules more : String) : ∃ r r' later,
    ofText .permissive name (rules ++ "\n") = .ok r ∧
      ofText .permissive name (rules ++ "\n" ++ more) = .ok r' ∧
      r'.directives = r.directives ++ later := by
  obtain ⟨lines, hlines⟩ :=
    exists_readLines_permissive name 1 0 (splitLines (rules ++ "\n").toList)
  obtain ⟨rest, hrest⟩ := exists_readLines_append hlines (splitLines more.toList)
  have hsplit : splitLines (rules ++ "\n" ++ more).toList =
      splitLines (rules ++ "\n").toList ++ splitLines more.toList := by
    simpa [splitLines] using splitLinesAfter_append [] rules.toList more.toList
  refine ⟨⟨[⟨name, lines⟩]⟩, ⟨[⟨name, lines ++ rest⟩]⟩, rest.filterMap RuleLine.directive?,
    ?_, ?_, ?_⟩
  · rw [ofText_eq, hlines]
  · rw [ofText_eq, hsplit, hrest]
  · rw [directives_mk, directives_mk, List.filterMap_append]

namespace Store

/-! ## What later directives do to the answers -/

/-- Exclusions are of exclusive kinds. -/
lemma resolution_of_isExclusion (h : kind.isExclusion = true) : kind.resolution = .exclusive := by
  cases kind <;> first | rfl | cases h

/-- **No later directive ends the exclusion of a name**: it is excluded as long as some directive of
the kind is about it. -/
lemma isExcluded_append (hs : store.Reflects platform before)
    (hs' : store'.Reflects platform (before ++ later)) (h : store.isExcluded kind n = true) :
    store'.isExcluded kind n = true := by
  rw [isExcluded, Bool.and_eq_true] at h ⊢
  obtain ⟨hexclusion, hquery⟩ := h
  have hkind := resolution_of_isExclusion hexclusion
  refine ⟨hexclusion, ?_⟩
  rw [hs.query_eq hkind, List.getLast?_isSome] at hquery
  rw [hs'.query_eq hkind, List.getLast?_isSome, admitted, List.filter_append, List.filter_append]
  exact fun hnil => hquery (List.append_eq_nil_iff.1 hnil).1

/-- What stands yields to nothing that comes later. -/
lemma le_of_mem_standing (h : ds.Pairwise fun d e => d.order < e.order) (hd : d ∈ standing ds)
    (he : e ∈ ds) (hyields : d.YieldsTo e) : e.order ≤ d.order := by
  obtain ⟨f, hf, hle, heq⟩ := exists_standing h he
  have hdf : d.YieldsTo f := by
    rcases heq with rfl | hef
    · exact hyields
    · exact ⟨hyields.1, hyields.2.1.trans hef.2.1, hyields.2.2.trans hef.2.2⟩
  rwa [eq_of_mem_standing hd hf hdf]

/-- A live directive is one of those that were applied. -/
lemma mem_of_mem_directivesOf (hs : store.Reflects platform before)
    (hd : d ∈ store.directivesOf kind) : d ∈ before := by
  rw [hs.directivesOf_eq] at hd
  exact (List.mem_filter.1 (standing_subset _ (List.mem_filter.1 hd).1)).1

/-- **A live directive stays live, or yields to a later one.** -/
lemma exists_mem_directivesOf_append (hs : store.Reflects platform before)
    (hs' : store'.Reflects platform (before ++ later)) (hd : d ∈ store.directivesOf kind) :
    d ∈ store'.directivesOf kind ∨ ∃ e ∈ store'.directivesOf kind, e ∈ later ∧ d.YieldsTo e := by
  have hadmitted : admitted platform (before ++ later) =
      admitted platform before ++ admitted platform later := List.filter_append ..
  have hincreasing : (admitted platform (before ++ later)).Pairwise fun d e => d.order < e.order :=
    hs'.increasing.filter _
  simp only [hs.directivesOf_eq, hs'.directivesOf_eq, List.mem_filter, beq_iff_eq] at hd ⊢
  obtain ⟨hstands, rfl⟩ := hd
  have hmem : d ∈ admitted platform (before ++ later) := by
    rw [hadmitted]
    exact List.mem_append_left _ (standing_subset _ hstands)
  obtain ⟨e, he, hle, rfl | hyields⟩ := exists_standing hincreasing hmem
  · exact .inl ⟨he, rfl⟩
  · have heither := standing_subset _ he
    rw [hadmitted, List.mem_append] at heither
    rcases heither with hebefore | helater
    · -- nothing that came before is later than what stands
      have hge := le_of_mem_standing (hs.increasing.filter _) hstands hebefore hyields
      obtain rfl := Directive.eq_of_order_eq hincreasing hmem (standing_subset _ he)
        (Nat.le_antisymm hle hge)
      exact .inl ⟨he, rfl⟩
    · exact .inr ⟨e, ⟨he, hyields.2.1.symm⟩, (List.mem_filter.1 helater).1, hyields⟩

end Store

/-! ## What later rules take back -/

/-- Whether a symbol that can be called is excluded by the text of a target: by its last identifier,
or by its return type. -/
def Directive.fitsText (kind : DirectiveKind) (s : Symbol) (d : Directive) : Bool :=
  s.kind.isCallable &&
    match kind with
    | .functionNameExclude => (s.candidates.toOption.bind List.head?).any fun n =>
        Text.wildcardMatch (Text.trim d.target.toList) n.baseName.toList
    | .returnTypeExclude => s.returnType.any fun type =>
        Text.wildcardMatch (Text.trim d.target.toList) (Text.trim type.toList)
    | _ => false

namespace Policy

variable {p p' : Policy} {s : Symbol}

/-- Names stay excluded under later directives. -/
lemma excludes_append {later : List Directive} {raw : String}
    (hs : p.store.Reflects platform before) (hs' : p'.store.Reflects platform (before ++ later))
    (h : p.excludes kind raw = true) : p'.excludes kind raw = true := by
  rw [excludes] at h ⊢
  split at h
  · exact Store.isExcluded_append hs hs' h
  · exact h

/-- A live directive that excludes a symbol by the text of its target, under the rules of `p`, gives
way under those of `p'` to a later one that stands under the same address and does not exclude the
symbol. -/
structure GivesWay (p p' : Policy) (s : Symbol) (kind : DirectiveKind) (d e : Directive) :
    Prop where
  /-- The directive is live. -/
  live : d ∈ p.store.directivesOf kind
  /-- It excludes the symbol. -/
  fits : d.fitsText kind s = true
  /-- The other one is live under the rules of `p'`. -/
  later_live : e ∈ p'.store.directivesOf kind
  /-- It is none of the rules of `p`. -/
  later : e ∉ p.ruleset.directives
  /-- It comes later. -/
  order_lt : d.order < e.order
  /-- It has the same kind and address. -/
  yields : d.YieldsTo e
  /-- It does not exclude the symbol. -/
  not_fits : e.fitsText kind s = false

/-- Which return types are excluded. -/
lemma isReturnTypeExcluded_iff {type : String} : p.isReturnTypeExcluded type = true ↔
    ∃ d ∈ p.store.directivesOf .returnTypeExclude,
      Text.wildcardMatch (Text.trim d.target.toList) (Text.trim type.toList) = true := by
  simp [isReturnTypeExcluded, excludedReturnTypes, targets]

/-- Which symbols are excluded by the texts of targets. -/
lemma exists_fitsText_iff {names : List Name} (hnames : s.candidates = .ok names) :
    (∃ kind, ∃ d ∈ p.store.directivesOf kind, d.fitsText kind s = true) ↔
      s.kind.isCallable = true ∧ (names.head?.any p.isBaseNameExcluded = true ∨
        s.returnType.any p.isReturnTypeExcluded = true) := by
  simp only [Directive.fitsText, Bool.and_eq_true, hnames, Except.toOption, Option.bind_some,
    Option.any_eq_true, isReturnTypeExcluded_iff, isBaseNameExcluded, List.any_eq_true]
  constructor
  · rintro ⟨kind, d, hd, hcallable, hfits⟩
    refine ⟨hcallable, ?_⟩
    split at hfits
    · obtain ⟨n, hn, hmatch⟩ := (Option.any_eq_true _ _).1 hfits
      exact .inl ⟨n, hn, d, hd, hmatch⟩
    · obtain ⟨type, htype, hmatch⟩ := (Option.any_eq_true _ _).1 hfits
      exact .inr ⟨type, htype, d, hd, hmatch⟩
    · cases hfits
  · rintro ⟨hcallable, ⟨n, hn, d, hd, hmatch⟩ | ⟨type, htype, d, hd, hmatch⟩⟩
    · exact ⟨.functionNameExclude, d, hd, hcallable, (Option.any_eq_true _ _).2 ⟨n, hn, hmatch⟩⟩
    · exact ⟨.returnTypeExclude, d, hd, hcallable, (Option.any_eq_true _ _).2 ⟨type, htype, hmatch⟩⟩

/-- A symbol is excluded with its module, by a directive about one of its names, with the class
around it, or by the text of a target. -/
lemma isSymbolExcluded_iff : p.isSymbolExcluded s = true ↔
    p.isModuleExcluded s.moduleName = true ∨ ∃ names, s.candidates = .ok names ∧
      ((∃ n ∈ names, p.store.isExcluded (exclusionOf s.kind) n = true) ∨
        (isMember s.kind = true ∧ ∃ scope, enclosingScope? s.name = some scope ∧
          p.isClassExcluded scope = true) ∨
        ∃ kind, ∃ d ∈ p.store.directivesOf kind, d.fitsText kind s = true) := by
  rw [isSymbolExcluded, Bool.or_eq_true]
  refine or_congr_right ?_
  cases hnames : s.candidates with
  | error e => simp
  | ok names =>
    simp only [Except.ok.injEq, exists_eq_left', exists_fitsText_iff hnames, Bool.or_eq_true,
      Bool.and_eq_true, List.any_eq_true, Option.any_eq_true]
    rw [or_assoc]
    exact or_congr_right or_comm

/-- **What later directives leave of the exclusions.** Names stay excluded. A symbol stays excluded
too, unless it was by the text of a target that gives way. -/
lemma isSymbolExcluded_append {later : List Directive}
    (hs : p.store.Reflects platform p.ruleset.directives)
    (hs' : p'.store.Reflects platform (p.ruleset.directives ++ later))
    (h : p.isSymbolExcluded s = true) :
    p'.isSymbolExcluded s = true ∨ ∃ kind d e, GivesWay p p' s kind d e := by
  rcases isSymbolExcluded_iff.1 h with hmodule | ⟨names, hnames, hname | hscope | htext⟩
  · exact .inl (isSymbolExcluded_iff.2 (.inl (excludes_append hs hs' hmodule)))
  · obtain ⟨n, hn, hexcluded⟩ := hname
    refine .inl (isSymbolExcluded_iff.2 (.inr ⟨names, hnames, .inl ⟨n, hn, ?_⟩⟩))
    exact Store.isExcluded_append hs hs' hexcluded
  · obtain ⟨hmember, scope, hscope, hexcluded⟩ := hscope
    exact .inl (isSymbolExcluded_iff.2 (.inr ⟨names, hnames,
      .inr (.inl ⟨hmember, scope, hscope, excludes_append hs hs' hexcluded⟩)⟩))
  · obtain ⟨kind, d, hd, hfits⟩ := htext
    rcases Store.exists_mem_directivesOf_append hs hs' hd with hd' | ⟨e, he, hlater, hyields⟩
    · exact .inl (isSymbolExcluded_iff.2 (.inr ⟨names, hnames, .inr (.inr ⟨kind, d, hd', hfits⟩)⟩))
    · by_cases hfits' : e.fitsText kind s = true
      · exact .inl (isSymbolExcluded_iff.2 (.inr ⟨names, hnames,
          .inr (.inr ⟨kind, e, he, hfits'⟩)⟩))
      · have horder := (List.pairwise_append.1 hs'.increasing).2.2
        refine .inr ⟨kind, d, e, hd, hfits, he, fun hold => ?_, ?_, hyields, by simpa using hfits'⟩
        · exact Nat.lt_irrefl _ (horder e hold e hlater)
        · exact horder d (Store.mem_of_mem_directivesOf hs hd) e hlater

end Policy

namespace Config

/-- **Exclusions persist under later rules, or give way to them.** Under permissive settings, rules
that end with a line feed and the same rules with more behind them are both resolved. Every name
that is excluded stays so. A symbol that is excluded stays so, unless it was by the text of the
target of a directive for return types or for functions in all scopes, and this one gives way to a
later directive that stands under the same address but does not have such a target.

**Proof sketch.** More text adds directives behind those that are read already. The last admitted
directive about a name is found as before, or a later one is. A live directive stays live, or a
later one takes its place, and then the text of its target may be another. -/
theorem exclusions_persist_or_give_way (c : Config) (hpermissive : c.strict = false)
    (name rules more : String) (inputs : Inputs) : ∃ p p',
      c.resolveText name (rules ++ "\n") inputs = .ok p ∧
      c.resolveText name (rules ++ "\n" ++ more) inputs = .ok p' ∧
      (∀ kind raw, p.excludes kind raw = true → p'.excludes kind raw = true) ∧
      ∀ s, p.isSymbolExcluded s = true →
        p'.isSymbolExcluded s = true ∨ ∃ kind d e, Policy.GivesWay p p' s kind d e := by
  obtain ⟨r, r', later, hr, hr', hlater⟩ := Ruleset.exists_ofText_append name rules more
  have hs : (c.policyOf r inputs).store.Reflects (some c.platform) r.directives :=
    c.reflects_fillStore (Ruleset.holdsText_of_ofText hr).increasing
  have hs' : (c.policyOf r' inputs).store.Reflects (some c.platform) (r.directives ++ later) :=
    hlater ▸ c.reflects_fillStore (Ruleset.holdsText_of_ofText hr').increasing
  have hrun : ∀ {text r}, Ruleset.ofText .permissive name text = .ok r →
      c.resolveText name text inputs = .ok (c.policyOf r inputs) := by
    intro text r hr
    have hmode : c.ruleMode = .permissive := by simp [ruleMode, hpermissive]
    rw [resolveText, hmode, hr]
    simp [resolve, hpermissive]
  exact ⟨_, _, hrun hr, hrun hr', fun kind raw => Policy.excludes_append hs hs',
    fun s => Policy.isSymbolExcluded_append hs hs'⟩

/-- A data member stays excluded with its class, and the exclusion of a method by its return type
gives way. -/
theorem exclusions_persist_or_give_way_both :
    let s : Symbol := { kind := .field, name := "Foo<int>::value" }
    let t : Symbol :=
      { kind := .method, name := "Bar::Values", returnType := some "std::vector<int>" }
    ({} : Config).strict = false ∧ ∃ p p',
      resolveText {} "rules" ("-class Foo<T>\n-rtype std::vector<int>" ++ "\n") {} = .ok p ∧
      resolveText {} "rules" ("-class Foo<T>\n-rtype std::vector<int>" ++ "\n" ++
        "-class@win32 Foo<T>\nmalformed\n-rtype std::vector<double>") {} = .ok p' ∧
      (p.isSymbolExcluded s = true ∧ p'.isSymbolExcluded s = true) ∧
      p.isSymbolExcluded t = true ∧ ∃ kind d e, Policy.GivesWay p p' t kind d e := by
  intro s t
  obtain ⟨p, p', hp, hp', -, hsymbols⟩ := exclusions_persist_or_give_way {} rfl "rules"
    "-class Foo<T>\n-rtype std::vector<int>"
    "-class@win32 Foo<T>\nmalformed\n-rtype std::vector<double>" {}
  have hbefore : (resolveText {} "rules" ("-class Foo<T>\n-rtype std::vector<int>" ++ "\n")
      {}).toOption.any (fun p => p.isSymbolExcluded s && p.isSymbolExcluded t) = true := by
    decide +kernel
  have hafter : (resolveText {} "rules" ("-class Foo<T>\n-rtype std::vector<int>" ++ "\n" ++
      "-class@win32 Foo<T>\nmalformed\n-rtype std::vector<double>") {}).toOption.any
        (fun p => !p.isSymbolExcluded t) = true := by
    decide +kernel
  rw [hp] at hbefore
  rw [hp'] at hafter
  obtain ⟨hs, ht⟩ : p.isSymbolExcluded s = true ∧ p.isSymbolExcluded t = true := by
    simpa [Except.toOption] using hbefore
  have ht' : p'.isSymbolExcluded t = false := by simpa [Except.toOption] using hafter
  refine ⟨rfl, p, p', hp, hp', ⟨hs, ?_⟩, ht, ?_⟩
  · -- a data member is not excluded by the text of a target
    rcases hsymbols s hs with hs' | ⟨kind, d, e, hgives⟩
    · exact hs'
    · exact absurd hgives.fits (by simp [Directive.fitsText, s, SymbolKind.isCallable])
  · rcases hsymbols t ht with hexcluded | hgives
    · rw [ht'] at hexcluded
      cases hexcluded
    · exact hgives

/-- **Exclusions that are taken back.** Patterns for return types that differ in their template
arguments alone stand under one address, and so do spellings of an identifier with and without a
leading scope separator; of each two, only the last one counts, as it is written. -/
theorem exclusions_taken_back :
    let c : Config := {}
    let s : Symbol :=
      { kind := .method, name := "Foo::Values", signature := some "() const",
        returnType := some "std::vector<int>" }
    let t : Symbol := { kind := .method, name := "Foo::Dump", signature := some "()" }
    (c.resolveText "rules" "-rtype std::vector<int>\n" {}).map (·.isSymbolExcluded s) = .ok true ∧
      (c.resolveText "rules" "-rtype std::vector<int>\n-rtype std::vector<double>\n" {}).map
        (·.isSymbolExcluded s) = .ok false ∧
      (c.resolveText "rules" "-function* Dump\n" {}).map (·.isSymbolExcluded t) = .ok true ∧
      (c.resolveText "rules" "-function* Dump\n-function* ::Dump\n" {}).map
        (·.isSymbolExcluded t) = .ok false := by
  decide +kernel

end Config

end BindingRules
