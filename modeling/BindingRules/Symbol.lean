import BindingRules.Name.Normalize

set_option autoImplicit false

/-!
# Symbols of the wrapped library

The rules are checked against a table of the symbols that the library declares. Of a symbol only
its kind and its spellings are known.

## Main definitions

* `SymbolKind`, `Symbol` — an entry of the table.
* `Symbol.qualifiedName` — the name of a symbol, with its signature if it has one.
* `Symbol.candidates` — all names under which rules may address a symbol.
-/

namespace BindingRules

/-- What a symbol is. -/
inductive SymbolKind where
  /-- A class or struct that is no template. -/
  | plainClass
  /-- A class template. -/
  | classTemplate
  /-- A free function. -/
  | function
  /-- An instance method. -/
  | method
  /-- A static method, which rules address with a final underscore. -/
  | staticMethod
  /-- A constructor. -/
  | constructor
  /-- An enumeration. -/
  | enum
  /-- A type alias. -/
  | typedef
  /-- A data member. -/
  | field
  deriving DecidableEq, Repr

namespace SymbolKind

/-- All kinds of symbols. -/
def all : List SymbolKind :=
  [plainClass, classTemplate, function, method, staticMethod, constructor, enum, typedef, field]

/-- The identifier of a kind. -/
def text : SymbolKind → String
  | plainClass => "class"
  | classTemplate => "class_template"
  | function => "function"
  | method => "method"
  | staticMethod => "static_method"
  | constructor => "constructor"
  | enum => "enum"
  | typedef => "typedef"
  | field => "field"

/-- Whether symbols of the kind can be called. -/
def isCallable : SymbolKind → Bool
  | function | method | staticMethod | constructor => true
  | _ => false

end SymbolKind

/-- A symbol as the library declares it. -/
structure Symbol where
  /-- What the symbol is. -/
  kind : SymbolKind
  /-- Its scoped name. -/
  name : String
  /-- The parameter list with its parentheses, of a symbol that can be called. -/
  signature : Option String := none
  /-- The return type, of a symbol that can be called. -/
  returnType : Option String := none
  deriving DecidableEq, Repr

namespace Symbol

/-- The name of a symbol, with its signature if it has one. -/
def qualifiedName (s : Symbol) : Except NameError Name :=
  Name.normalize (s.name ++ s.signature.getD "")

/-- All names under which rules may address a symbol: its own, for a static method the one with a
final underscore, and for a class template that is spelled without parameters the one with any
arguments. -/
def candidates (s : Symbol) : Except NameError (List Name) := do
  let name ← s.qualifiedName
  match s.kind with
  | .staticMethod => return [name, name.staticVariant]
  | .classTemplate =>
    if s.name.toList.contains '<' then return [name]
    else return [name, ← Name.normalize (s.name ++ String.ofList templateMark)]
  | _ => return [name]

/-- The module that owns a symbol. -/
def moduleName (s : Symbol) : String := Name.moduleOf s.name

end Symbol

end BindingRules
