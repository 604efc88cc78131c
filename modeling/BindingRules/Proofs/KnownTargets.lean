import BindingRules.Proofs.KeyLookup
import BindingRules.Proofs.StoreAnswers
import BindingRules.SymbolIndex

set_option relaxedAutoImplicit false
set_option autoImplicit false

/-!
# Known targets

A directive is warned about if its target is known to no symbol. The warning decides this with tests
of its own: it looks for the key of the target among the keys of all names, and then matches the
target against every name, whether it has wildcards or not. The store looks a target up by its key
alone if it has no wildcards, and matches it otherwise. The two agree, so that a directive is warned
about exactly if the store never gives it as an answer.

## Main definitions

* `Store.AnswersNone` — stores that have no directive of a kind for any name of some symbols.

## Main results

* `SymbolIndex.knows_iff_concerns` — a target is known if the directive is about one of the names.
* `Store.Reflects.queryAll_alone` — what a store with a single directive answers.
* `unknownTargets_iff_answersNone` — which directives are warned about.
-/

namespace BindingRules

variable {platform : Option String} {d : Directive} {rule n : Name} {symbols : List Symbol}
  {s : Store}

/-! ## The names of the symbols -/

namespace SymbolIndex

/-- The index has the names of all symbols of which the names can be read. -/
lemma mem_names_ofSymbols : n ∈ (ofSymbols symbols).names ↔
    ∃ symbol ∈ symbols, ∃ names, symbol.candidates = .ok names ∧ n ∈ names := by
  simp only [ofSymbols, List.mem_flatMap, namesOf]
  refine exists_congr fun symbol => and_congr_right fun _ => ?_
  cases symbol.candidates <;> simp [Except.toOption]

/-- **A target is known** exactly if a query for one of the names looks for its directive. What a
target without wildcards matches is found at its key as well. -/
lemma knows_iff_concerns (h : d.targetName = .ok rule) (index : SymbolIndex) :
    index.knows rule = true ↔ ∃ n ∈ index.names, d.toStatement.concerns d.kind n = true := by
  have htarget : Name.normalize d.target = .ok rule := h
  simp only [knows, Statement.concerns, Address.ofTarget, htarget, beq_self_eq_true,
    Bool.true_and, Bool.or_eq_true, Bool.and_eq_true, Bool.not_eq_true', List.any_eq_true]
  cases hpattern : rule.isPattern with
  | true => simp
  | false =>
    simp only [Bool.false_eq_true, if_false, true_and]
    refine or_iff_left_of_imp ?_
    rintro ⟨n, hn, hcovers⟩
    exact ⟨n, hn, List.contains_iff_mem.2 (Name.key_mem_lookupKeys hpattern hcovers)⟩

end SymbolIndex

/-! ## A single directive -/

namespace Store

/-- A fresh store takes any directive, and reflects it. -/
lemma exists_apply_fresh (platform : Option String) (d : Directive) :
    ∃ s, ({ platform } : Store).apply d = .ok s ∧ s.Reflects platform [d] :=
  ⟨_, rfl, reflects_applyAll platform [d]⟩

/-- **A store with a single directive** that is admitted answers with it if it is about the name. -/
lemma Reflects.queryAll_alone (hs : s.Reflects platform [d]) (hactive : d.active = true)
    (happlies : d.appliesTo platform = true) (n : Name) :
    s.queryAll d.kind n = if d.toStatement.concerns d.kind n then [d] else [] := by
  have hadmitted : admitted platform [d] = [d] := by simp [admitted, hactive, happlies]
  rw [hs.queryAll_eq, hadmitted]
  cases hconcerns : d.toStatement.concerns d.kind n <;> cases d.kind.resolution <;>
    simp [hconcerns]

/-- Whether queries of a kind for the names of some symbols have no answers. Symbols of which the
names cannot be read are passed over. -/
def AnswersNone (s : Store) (kind : DirectiveKind) (symbols : List Symbol) : Prop :=
  ∀ symbol ∈ symbols, ∀ names, symbol.candidates = .ok names → ∀ n ∈ names, s.queryAll kind n = []

/-- A store with a single directive has no answers exactly if the target is not known. -/
lemma answersNone_iff (hs : s.Reflects platform [d]) (hactive : d.active = true)
    (happlies : d.appliesTo platform = true) (htarget : d.targetName = .ok rule) :
    s.AnswersNone d.kind symbols ↔ (SymbolIndex.ofSymbols symbols).knows rule = false := by
  have hnone : ∀ n, s.queryAll d.kind n = [] ↔ ¬ d.toStatement.concerns d.kind n = true := by
    intro n
    rw [hs.queryAll_alone hactive happlies]
    split <;> simp_all
  rw [← Bool.not_eq_true, SymbolIndex.knows_iff_concerns htarget]
  simp only [AnswersNone, hnone, SymbolIndex.mem_names_ofSymbols, not_exists, not_and]
  constructor
  · rintro h n ⟨symbol, hsymbol, names, hnames, hn⟩
    exact h symbol hsymbol names hnames n hn
  · intro h symbol hsymbol names hnames n hn
    exact h n ⟨symbol, hsymbol, names, hnames, hn⟩

end Store

/-! ## Warnings -/

/-- The warnings about directives are given one after the other. -/
lemma unknownTargets_append (ds es : List Directive) (index : SymbolIndex) :
    unknownTargets (ds ++ es) index = unknownTargets ds index ++ unknownTargets es index := by
  simp [unknownTargets]

/-- **Which directives are warned about.** Let a directive be active and not limited to a platform,
and let its target be a name, as it has to be the one of a symbol. Among the warnings about any
directives, the one about this directive stands in its place exactly if a fresh store for any
platform that has taken it alone answers no query of its kind for a name of the symbols. -/
theorem unknownTargets_iff_answersNone (symbols : List Symbol) (platform : Option String)
    (before after : List Directive) (hactive : d.active = true) (hplatform : d.platform = none)
    (hkind : d.kind.targetsSymbol = true) (hname : d.kind ≠ .functionNameExclude)
    (htarget : d.targetName = .ok rule) :
    ∃ s, ({ platform } : Store).apply d = .ok s ∧
      let index := SymbolIndex.ofSymbols symbols
      ∃ warnings, unknownTargets (before ++ d :: after) index =
          unknownTargets before index ++ warnings ++ unknownTargets after index ∧
        (s.AnswersNone d.kind symbols → warnings = [d.unknownTarget]) ∧
        (¬ s.AnswersNone d.kind symbols → warnings = []) := by
  obtain ⟨s, happly, hs⟩ := Store.exists_apply_fresh platform d
  have happlies : d.appliesTo platform = true := by simp [Statement.appliesTo, hplatform]
  have hanswers : s.AnswersNone d.kind symbols ↔
      (SymbolIndex.ofSymbols symbols).knows rule = false :=
    Store.answersNone_iff hs hactive happlies htarget
  have hknown : d.isKnown (SymbolIndex.ofSymbols symbols) =
      (SymbolIndex.ofSymbols symbols).knows rule := by
    simp [Directive.isKnown, hname, htarget]
  refine ⟨s, happly, unknownTargets [d] (SymbolIndex.ofSymbols symbols), ?_, fun hnone => ?_,
    fun hsome => ?_⟩
  · rw [List.append_cons, unknownTargets_append, unknownTargets_append]
  · simp [unknownTargets, hactive, hkind, hknown, hanswers.1 hnone]
  · have hknows : (SymbolIndex.ofSymbols symbols).knows rule = true := by
      simpa using mt hanswers.2 hsome
    simp [unknownTargets, hknown, hknows]

/-- A class template that is addressed by its parameters is found, a static method with another
signature is not, and a symbol of which the name cannot be read is passed over. -/
theorem unknownTargets_iff_answersNone_overload :
    let symbols : List Symbol :=
      [{ kind := .classTemplate, name := "NCollection_List" },
        { kind := .staticMethod, name := "BRep::Find", signature := some "(gp_XY, gp_XY)" },
        { kind := .method, name := "A<" }]
    let d : Directive :=
      { kind := .immutable, target := "NCollection_List<TheItemType>", payload := .absent,
        order := 0, active := true, location := ⟨"rules", 1⟩ }
    let e : Directive :=
      { kind := .functionExclude, target := "BRep::Find(gp_XY)", payload := .absent,
        order := 1, active := true, location := ⟨"rules", 2⟩ }
    (d.active = true ∧ d.platform = none ∧ d.kind.targetsSymbol = true ∧
        d.kind ≠ .functionNameExclude ∧
        d.targetName = .ok (.path ⟨[.template "NCollection_List"], none⟩) ∧
        ∃ s, ({ platform := some "linux" } : Store).apply d = .ok s ∧
          ¬ s.AnswersNone d.kind symbols) ∧
      (e.active = true ∧ e.platform = none ∧ e.kind.targetsSymbol = true ∧
        e.kind ≠ .functionNameExclude ∧
        e.targetName = .ok (.path ⟨[.exact "BRep", .exact "Find"], some "(gp_XY)"⟩) ∧
        ∃ s, ({ platform := none } : Store).apply e = .ok s ∧ s.AnswersNone e.kind symbols) ∧
      unknownTargets [d, e] (SymbolIndex.ofSymbols symbols) = [e.unknownTarget] := by
  intro symbols d e
  have hd : d.targetName = .ok (.path ⟨[.template "NCollection_List"], none⟩) := by decide +kernel
  have he : e.targetName = .ok (.path ⟨[.exact "BRep", .exact "Find"], some "(gp_XY)"⟩) := by
    decide +kernel
  have hsilent : unknownTargets [d] (SymbolIndex.ofSymbols symbols) = [] := by decide +kernel
  have hwarnings : unknownTargets [d, e] (SymbolIndex.ofSymbols symbols) = [e.unknownTarget] := by
    decide +kernel
  obtain ⟨s, hs, warnings, hplace, hwarned, -⟩ := unknownTargets_iff_answersNone symbols
    (some "linux") [] [] rfl rfl rfl (by decide) hd
  obtain ⟨t, ht, warnings', hplace', -, hnot⟩ := unknownTargets_iff_answersNone symbols
    none [d] [] rfl rfl rfl (by decide) he
  refine ⟨⟨rfl, rfl, rfl, by decide, hd, s, hs, fun hnone => ?_⟩,
    ⟨rfl, rfl, rfl, by decide, he, t, ht, by_contra fun hsome => ?_⟩, hwarnings⟩
  · rw [hwarned hnone] at hplace
    exact List.cons_ne_nil _ _ (hplace.symm.trans hsilent)
  · rw [hnot hsome, hsilent] at hplace'
    exact List.cons_ne_nil _ _ (hwarnings.symm.trans hplace')

end BindingRules
