import BindingRules.Datum
import BindingRules.Guard
import BindingRules.Symbol

set_option autoImplicit false

/-!
# Generation inputs

What is known about the wrapped library before the rules are resolved: its modules, which of them
need which others, and the table of its symbols.

## Main definitions

* `Inputs` — the facts.
* `Inputs.ofDatum?` — the facts that a structure states.
* `Inputs.ofDocument?` — the facts that a document states, which may be a list of modules alone.
-/

namespace BindingRules

/-- The kind of symbols with the given identifier. -/
def SymbolKind.ofText? (word : String) : Option SymbolKind := all.find? (·.text == word)

/-- The symbol that a structure states. -/
def Symbol.ofDatum? (d : Datum) : Option Symbol := do
  match ← d.fields? ["kind", "name", "signature", "return_type"] with
  | [some kind, some name, signature, returnType] =>
    let kind ← kind.choice?
    return {
      kind := ← SymbolKind.ofText? kind
      name := ← name.text?
      signature := ← Datum.optional? Datum.text? signature
      returnType := ← Datum.optional? Datum.text? returnType }
  | _ => none

/-- The edge that a structure states. -/
def Edge.ofDatum? (d : Datum) : Option Edge := do
  match ← d.fields? ["from", "to"] with
  | [some source, some target] => return { source := ← source.text?, target := ← target.text? }
  | _ => none

/-- What is known about the wrapped library. -/
structure Inputs where
  /-- Its modules. -/
  modules : List String := []
  /-- Which of its modules need which others. -/
  dependencies : List Edge := []
  /-- Its symbols. Without any, targets are not looked up. -/
  symbols : List Symbol := []
  deriving DecidableEq, Repr

namespace Inputs

/-- The facts that a structure states; each part may be missing. -/
def ofDatum? (d : Datum) : Option Inputs := do
  match ← d.fields? ["modules", "dependencies", "symbols"] with
  | [modules, dependencies, symbols] =>
    return {
      modules := ← Datum.withDefault? [] (Datum.list? Datum.text?) modules
      dependencies := ← Datum.withDefault? [] (Datum.list? Edge.ofDatum?) dependencies
      symbols := ← Datum.withDefault? [] (Datum.list? Symbol.ofDatum?) symbols }
  | _ => none

/-- The facts that a document states: a list of modules, or a structure. -/
def ofDocument? (d : Datum) : Option Inputs :=
  match d.list? Datum.text? with
  | some modules => some { modules }
  | none => ofDatum? d

end Inputs

end BindingRules
