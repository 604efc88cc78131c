import BindingRules.Directive.Basic
import BindingRules.Name.Cover
import BindingRules.Symbol

set_option autoImplicit false

/-!
# Looking up targets

A rule whose target no symbol has is most likely misspelt. The targets of the directives are looked
up among all names under which the symbols of the wrapped library can be addressed.

## Main definitions

* `SymbolIndex`, `SymbolIndex.ofSymbols` — the names of the symbols.
* `SymbolIndex.knows`, `SymbolIndex.knowsBaseName` — whether a rule is about one of them.
* `unknownTargets` — warnings about directives that are about none.
-/

namespace BindingRules

/-- The names under which symbols can be addressed. -/
structure SymbolIndex where
  /-- All names. -/
  names : List Name := []
  /-- The identifiers of the last segments of symbols that can be called. -/
  baseNames : List String := []
  deriving DecidableEq, Repr

namespace SymbolIndex

/-- The names under which a symbol can be addressed; none if its name cannot be read. -/
def namesOf (s : Symbol) : List Name := s.candidates.toOption.getD []

/-- The index of a symbol table. -/
def ofSymbols (symbols : List Symbol) : SymbolIndex :=
  { names := symbols.flatMap namesOf
    baseNames :=
      (symbols.filter (·.kind.isCallable)).flatMap fun s => (namesOf s).map Name.baseName }

/-- The number of names. -/
def size (index : SymbolIndex) : Nat := index.names.length

/-- Whether a rule with the given name is about a symbol of the index. -/
def knows (index : SymbolIndex) (rule : Name) : Bool :=
  (!rule.isPattern && index.names.any fun n => n.lookupKeys.contains rule.key) ||
    index.names.any rule.covers

/-- Whether a pattern for identifiers is about a symbol that can be called. -/
def knowsBaseName (index : SymbolIndex) (pattern : String) : Bool :=
  index.baseNames.any fun b => b == pattern || Text.wildcardMatch pattern.toList b.toList

end SymbolIndex

/-- Whether the targets of a kind are names of symbols. -/
def DirectiveKind.targetsSymbol : DirectiveKind → Bool
  | classExclude | functionExclude | functionNameExclude | enumExclude | typedefExclude
  | fieldExclude | immutable | noDelete | nameOverride | callGuard | baseExclude | returnPolicy
  | keepAlive | opaqueType | nested | downcast | beforeType | afterType => true
  | _ => false

namespace Directive

/-- Whether the target of a directive is known to the index. -/
def isKnown (d : Directive) (index : SymbolIndex) : Bool :=
  if d.kind = .functionNameExclude then index.knowsBaseName (Text.trimmed d.target)
  else
    match d.targetName with
    | .ok rule => index.knows rule
    | .error _ => false

/-- The warning that the target of a directive is not known. -/
def unknownTarget (d : Directive) : Diagnostic :=
  { severity := .warning
    kind := .unknownSymbol
    location := some d.location
    message := "`" ++ d.target ++ "` matches no introspected symbol" }

end Directive

/-- The warnings about active directives of which the target should be a symbol and is none. -/
def unknownTargets (directives : List Directive) (index : SymbolIndex) : List Diagnostic :=
  (directives.filter fun d => d.active && d.kind.targetsSymbol && !d.isKnown index).map
    Directive.unknownTarget

end BindingRules
