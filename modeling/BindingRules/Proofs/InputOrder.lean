import BindingRules.Proofs.DependencyGraph

set_option relaxedAutoImplicit false
set_option autoImplicit false

/-!
# Inputs in another order

The inputs list modules, dependencies and symbols. Nothing depends on how they are listed: two
inputs that list the same facts, in any order and with any repetitions, give the same graph, answer
alike whether a target is known, and therefore give the same policy or the same errors.

## Main definitions

* `Inputs.SameFacts` — inputs that list the same facts.

## Main results

* `Graph.eq_of_mem_iff` — a graph is known by its modules and its edges.
* `Inputs.SameFacts.dependencyGraph_eq` — the same facts give the same graph.
* `Inputs.SameFacts.validate_eq` — and the same warnings about targets, in the same order.
* `Config.resolve_ignores_input_order` — and the same result in the end.
-/

namespace BindingRules

variable {inputs inputs' : Inputs} {s : Store} {c : Config} {r : Ruleset}

/-- Inputs that list the same modules, the same dependencies and the same symbols, each of them in
any place and any number of times. -/
structure Inputs.SameFacts (inputs inputs' : Inputs) : Prop where
  /-- The modules are the same. -/
  modules : ∀ m, m ∈ inputs.modules ↔ m ∈ inputs'.modules
  /-- The dependencies are the same. -/
  dependencies : ∀ e, e ∈ inputs.dependencies ↔ e ∈ inputs'.dependencies
  /-- The symbols are the same. -/
  symbols : ∀ symbol, symbol ∈ inputs.symbols ↔ symbol ∈ inputs'.symbols

/-! ## The graph -/

/-- **A graph is known by its modules and its edges**, since both are kept in increasing order. -/
lemma Graph.eq_of_mem_iff {g g' : Graph} (hmodules : ∀ m, m ∈ g.modules ↔ m ∈ g'.modules)
    (hedges : ∀ e, e ∈ g.edges ↔ e ∈ g'.edges) : g = g' := by
  have hmodules' : g.modules = g'.modules :=
    g.modules_increasing.eq_of_mem_iff strictTotal_textLt g'.modules_increasing hmodules
  have hedges' : g.edges = g'.edges :=
    g.edges_increasing.eq_of_mem_iff Edge.strictTotal_lt g'.edges_increasing hedges
  cases g
  cases g'
  simp_all

/-- The same facts give the same graph. -/
lemma Inputs.SameFacts.dependencyGraph_eq (h : inputs.SameFacts inputs') (s : Store) :
    dependencyGraph s inputs = dependencyGraph s inputs' := by
  refine Graph.eq_of_mem_iff (fun m => ?_) fun e => ?_
  · simp only [mem_modules_dependencyGraph, h.modules, h.dependencies]
  · simp only [mem_edges_dependencyGraph, h.dependencies]

/-! ## Looking up targets -/

namespace SymbolIndex

variable {index index' : SymbolIndex}

/-- Whether a rule is about a symbol depends on which names there are. -/
lemma knows_congr (h : ∀ n, n ∈ index.names ↔ n ∈ index'.names) (rule : Name) :
    index.knows rule = index'.knows rule := by
  rw [Bool.eq_iff_iff]
  simp only [knows, Bool.or_eq_true, Bool.and_eq_true, List.any_eq_true, h]

/-- Whether a pattern is about a symbol depends on which identifiers there are. -/
lemma knowsBaseName_congr (h : ∀ b, b ∈ index.baseNames ↔ b ∈ index'.baseNames)
    (pattern : String) : index.knowsBaseName pattern = index'.knowsBaseName pattern := by
  rw [Bool.eq_iff_iff]
  simp only [knowsBaseName, List.any_eq_true, h]

end SymbolIndex

/-- Whether a target is known depends on which symbols there are. -/
lemma Inputs.SameFacts.isKnown_eq (h : inputs.SameFacts inputs') (d : Directive) :
    d.isKnown (.ofSymbols inputs.symbols) = d.isKnown (.ofSymbols inputs'.symbols) := by
  have hnames : ∀ n, n ∈ (SymbolIndex.ofSymbols inputs.symbols).names ↔
      n ∈ (SymbolIndex.ofSymbols inputs'.symbols).names := by
    simp only [SymbolIndex.ofSymbols, List.mem_flatMap, h.symbols, implies_true]
  have hbases : ∀ b, b ∈ (SymbolIndex.ofSymbols inputs.symbols).baseNames ↔
      b ∈ (SymbolIndex.ofSymbols inputs'.symbols).baseNames := by
    simp only [SymbolIndex.ofSymbols, List.mem_flatMap, List.mem_filter, h.symbols, implies_true]
  simp only [Directive.isKnown, SymbolIndex.knows_congr hnames,
    SymbolIndex.knowsBaseName_congr hbases]

/-- The same facts give the same warnings about targets, in the same order. -/
lemma Inputs.SameFacts.validate_eq (h : inputs.SameFacts inputs') (c : Config) (r : Ruleset) :
    c.validate r inputs = c.validate r inputs' := by
  have hempty : inputs.symbols.isEmpty = inputs'.symbols.isEmpty := by
    rw [Bool.eq_iff_iff]
    simp only [List.isEmpty_iff, List.eq_nil_iff_forall_not_mem, h.symbols]
  simp only [Config.validate, unknownTargets, hempty, h.isKnown_eq]

/-! ## The result -/

namespace Config

/-- The same facts give the same policy of a ruleset. -/
lemma policyOf_eq_of_sameFacts (h : inputs.SameFacts inputs') (c : Config) (r : Ruleset) :
    c.policyOf r inputs = c.policyOf r inputs' := by
  simp only [policyOf, h.dependencyGraph_eq, h.validate_eq]

/-- The same facts give the same result for a ruleset. -/
lemma resolve_eq_of_sameFacts (h : inputs.SameFacts inputs') (c : Config) (r : Ruleset) :
    c.resolve r inputs = c.resolve r inputs' := by
  simp only [resolve, policyOf_eq_of_sameFacts h]

/-- **The order of the inputs does not matter.** Whatever the settings and the rules, inputs that
list the same modules, dependencies and symbols, in any order and with any repetitions, give the
same result: the same errors with the same diagnostics, or the same policy with its generation
order, its placements, its diagnostics and its fingerprint. -/
theorem resolve_ignores_input_order (c : Config) (h : inputs.SameFacts inputs') :
    (∀ name text, c.resolveText name text inputs = c.resolveText name text inputs') ∧
    ∀ files paths, c.resolveFiles files paths inputs = c.resolveFiles files paths inputs' := by
  constructor
  · intro name text
    simp only [resolveText, resolve_eq_of_sameFacts h]
  · intro files paths
    simp only [resolveFiles, resolve_eq_of_sameFacts h]

/-- A cycle and an unknown target, with the facts listed in two ways: there is a policy under
permissive settings, and there are errors under strict ones. -/
theorem resolve_ignores_input_order_repeated :
    let text := "-class Foo\n+sort B: 1\n"
    let inputs : Inputs :=
      { modules := ["A"]
        dependencies := [⟨"A", "B"⟩, ⟨"B", "A"⟩]
        symbols := [{ kind := .plainClass, name := "Bar" }, { kind := .enum, name := "Baz" }] }
    let inputs' : Inputs :=
      { modules := ["A", "A"]
        dependencies := [⟨"B", "A"⟩, ⟨"A", "B"⟩, ⟨"B", "A"⟩]
        symbols := [{ kind := .enum, name := "Baz" }, { kind := .plainClass, name := "Bar" },
          { kind := .enum, name := "Baz" }] }
    inputs.SameFacts inputs' ∧
    (∃ p, resolveText {} "rules" text inputs = .ok p ∧ resolveText {} "rules" text inputs' = .ok p ∧
      p.order = ["B", "A"] ∧ p.diagnostics.length = 3) ∧
    ∃ e, resolveText { strict := true } "rules" text inputs = .error e ∧
      resolveText { strict := true } "rules" text inputs' = .error e := by
  intro text inputs inputs'
  have hsame : inputs.SameFacts inputs' := by
    constructor <;> intro x <;> simp [inputs, inputs'] <;> tauto
  have hok : (resolveText {} "rules" text inputs).toOption.any (fun p =>
      p.order = ["B", "A"] ∧ p.diagnostics.length = 3) = true := by decide +kernel
  have herror : (resolveText { strict := true } "rules" text inputs).toOption = none := by
    decide +kernel
  refine ⟨hsame, ?_, ?_⟩
  · rw [← (resolve_ignores_input_order {} hsame).1]
    cases hp : resolveText {} "rules" text inputs with
    | error e => simp [hp, Except.toOption] at hok
    | ok p =>
      rw [hp] at hok
      exact ⟨p, rfl, rfl, of_decide_eq_true hok⟩
  · rw [← (resolve_ignores_input_order { strict := true } hsame).1]
    cases hp : resolveText { strict := true } "rules" text inputs with
    | error e => exact ⟨e, rfl, rfl⟩
    | ok p => simp [hp, Except.toOption] at herror

end Config

end BindingRules
