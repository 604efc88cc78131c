import BindingRules.Config.Basic
import BindingRules.Digest
import BindingRules.Graph.Ordering
import BindingRules.Json.Printer
import BindingRules.Symbol

set_option autoImplicit false

/-!
# Resolved policies

A policy holds everything that a generator of bindings asks about modules and symbols. Names are
asked for as they are written; a name that cannot be read is covered by no rule.

## Main definitions

* `Policy` — the result of resolving rules.
* `Policy.isModuleExcluded`, `Policy.isSymbolExcluded` and their like — what is left out.
* `Policy.extraHeaders`, `Policy.bindingName?`, `Policy.patchSource`, `Policy.symbolOrder` and
  their like — how the rest is generated.
* `Policy.fingerprint` — the digest of a policy.
-/

namespace BindingRules

/-- The result of resolving rules. -/
structure Policy where
  /-- The settings under which the rules were resolved. -/
  config : Config
  /-- The rules. -/
  ruleset : Ruleset
  /-- The directives, ready for queries. -/
  store : Store
  /-- The modules in generation order. -/
  order : List String
  /-- The guards among these modules. -/
  guards : Guards
  /-- What was decided for the guarded edges. -/
  placements : List Placement
  /-- Warnings and notes. -/
  diagnostics : List Diagnostic
  deriving DecidableEq, Repr

namespace Policy

/-! ## Queries in general -/

/-- Whether an exclusion of the given kind covers a name. -/
def excludes (p : Policy) (kind : DirectiveKind) (raw : String) : Bool :=
  match Name.normalize raw with
  | .ok n => p.store.isExcluded kind n
  | .error _ => false

/-- Whether there is a directive of the given kind for a text. -/
def marks (p : Policy) (kind : DirectiveKind) (raw : String) : Bool :=
  !(p.store.queryText kind raw).isEmpty

/-- The values of the directives of the given kind for a text, in their order. -/
def values (p : Policy) (kind : DirectiveKind) (raw : String) : List String :=
  (p.store.queryText kind raw).map (·.payload.shown)

/-- The value of the directive of the given exclusive kind for a name. -/
def value? (p : Policy) (kind : DirectiveKind) (raw : String) : Option String :=
  match Name.normalize raw with
  | .ok n => (p.store.query kind n).map (·.payload.shown)
  | .error _ => none

/-- The targets of the directives of the given kind, in their order and without repetitions. -/
def targets (p : Policy) (kind : DirectiveKind) : List String :=
  ((p.store.directivesOf kind).map (·.target)).eraseDups

/-! ## What is left out -/

/-- Whether a module is excluded. -/
def isModuleExcluded (p : Policy) (module : String) : Bool := p.excludes .moduleExclude module

/-- Whether a class is excluded, apart from its module. -/
def isClassExcluded (p : Policy) (name : String) : Bool := p.excludes .classExclude name

/-- Whether the functions with the last identifier of a name are excluded in all scopes. -/
def isBaseNameExcluded (p : Policy) (n : Name) : Bool :=
  (p.store.directivesOf .functionNameExclude).any fun d =>
    Text.wildcardMatch (Text.trim d.target.toList) n.baseName.toList

/-- Whether a function is excluded, by its name or in all scopes. -/
def isFunctionExcluded (p : Policy) (name : String) : Bool :=
  match Name.normalize name with
  | .ok n => p.store.isExcluded .functionExclude n || p.isBaseNameExcluded n
  | .error _ => false

/-- The patterns for return types of excluded functions. -/
def excludedReturnTypes (p : Policy) : List String := p.targets .returnTypeExclude

/-- Whether functions with the given return type are excluded. -/
def isReturnTypeExcluded (p : Policy) (returnType : String) : Bool :=
  p.excludedReturnTypes.any fun pattern =>
    Text.wildcardMatch (Text.trim pattern.toList) (Text.trim returnType.toList)

/-- Whether an enumeration is excluded. -/
def isEnumExcluded (p : Policy) (name : String) : Bool := p.excludes .enumExclude name

/-- Whether a type alias is excluded. -/
def isTypedefExcluded (p : Policy) (name : String) : Bool := p.excludes .typedefExclude name

/-- Whether a data member is excluded. -/
def isFieldExcluded (p : Policy) (name : String) : Bool := p.excludes .fieldExclude name

/-- The part of a text before its last scope separator outside template brackets, looked for in
front of the first parenthesis outside them. The text goes on behind `before`, which is given last
character first, inside `depth` brackets; `found` is the part before the last separator so far. -/
def enclosingScopeAfter (before : List Char) (depth : Nat) (found : Option (List Char)) :
    List Char → Option (List Char)
  | [] => found
  | ':' :: ':' :: cs =>
    if depth = 0 then enclosingScopeAfter (':' :: ':' :: before) 0 (some before.reverse) cs
    else enclosingScopeAfter (':' :: before) depth found (':' :: cs)
  | c :: cs =>
    if c == '<' then enclosingScopeAfter (c :: before) (depth + 1) found cs
    else if c == '>' then enclosingScopeAfter (c :: before) (depth - 1) found cs
    else if c == '(' && depth == 0 then found
    else enclosingScopeAfter (c :: before) depth found cs

/-- The scope in which a name stands, if there is one. -/
def enclosingScope? (name : String) : Option String :=
  match enclosingScopeAfter [] 0 none name.toList with
  | some scope => if (Text.trim scope).isEmpty then none else some (String.ofList (Text.trim scope))
  | none => none

/-- The kind of directives that exclude symbols of a kind. -/
def exclusionOf : SymbolKind → DirectiveKind
  | .plainClass | .classTemplate => .classExclude
  | .function | .method | .staticMethod | .constructor => .functionExclude
  | .enum => .enumExclude
  | .typedef => .typedefExclude
  | .field => .fieldExclude

/-- Whether symbols of a kind belong to the scope around them. -/
def isMember : SymbolKind → Bool
  | .plainClass | .classTemplate => false
  | _ => true

/-- Whether a symbol is left out: with its module, by one of its names, by its last identifier or
its return type if it can be called, or with the class around it. -/
def isSymbolExcluded (p : Policy) (s : Symbol) : Bool :=
  p.isModuleExcluded s.moduleName ||
    match s.candidates with
    | .error _ => false
    | .ok names =>
      names.any (p.store.isExcluded (exclusionOf s.kind)) ||
        (s.kind.isCallable &&
          (names.head?.any p.isBaseNameExcluded || s.returnType.any p.isReturnTypeExcluded)) ||
        (isMember s.kind && (enclosingScope? s.name).any p.isClassExcluded)

/-! ## Headers -/

/-- The headers removed from a module. -/
def excludedHeaders (p : Policy) (module : String) : List String := p.values .headerRemove module

/-- The headers removed from all modules. -/
def bannedHeaders (p : Policy) : List String := p.targets .headerBan

/-- The headers added to a module and not removed again, without repetitions. -/
def extraHeaders (p : Policy) (module : String) : List String :=
  ((p.values .headerAdd module).filter fun h =>
    !(p.excludedHeaders module).contains h && !p.bannedHeaders.contains h).eraseDups

/-! ## Types and functions -/

/-- The types of which the values do not change. -/
def immutableTypes (p : Policy) : List String := p.targets .immutable

/-- Whether the values of a type do not change. -/
def isImmutable (p : Policy) (name : String) : Bool := p.marks .immutable name

/-- The types of which the values are not deleted. -/
def noDeleteTypes (p : Policy) : List String := p.targets .noDelete

/-- Whether the values of a type are not deleted. -/
def isNoDelete (p : Policy) (name : String) : Bool := p.marks .noDelete name

/-- Whether a type is opaque. -/
def isOpaque (p : Policy) (name : String) : Bool := p.marks .opaqueType name

/-- Whether a type is nested. -/
def isNested (p : Policy) (name : String) : Bool := p.marks .nested name

/-- Whether a type can be cast down. -/
def isDowncast (p : Policy) (name : String) : Bool := p.marks .downcast name

/-- The base classes that a class does not show. -/
def excludedBases (p : Policy) (name : String) : List String := p.values .baseExclude name

/-- The name of a symbol in the bindings, if the rules state one. -/
def bindingName? (p : Policy) (name : String) : Option String := p.value? .nameOverride name

/-- The return policy of a function, if the rules state one. -/
def returnPolicy? (p : Policy) (name : String) : Option String := p.value? .returnPolicy name

/-- The arguments that a function keeps alive, if the rules state them. -/
def keepAlive? (p : Policy) (name : String) : Option String := p.value? .keepAlive name

/-! ## Modules -/

/-- The comment at the top of a module, if there is one. -/
def topComment? (p : Policy) (module : String) : Option String :=
  match p.values .topComment module with
  | [] => none
  | lines => some (String.intercalate "\n" lines)

/-- The code inserted before a module. -/
def beforeModule (p : Policy) (module : String) : List String := p.values .beforeModule module

/-- The code inserted before a type. -/
def beforeType (p : Policy) (name : String) : List String := p.values .beforeType name

/-- The code inserted behind a type. -/
def afterType (p : Policy) (name : String) : List String := p.values .afterType name

/-- The replacements in a generated module, in their order. -/
def patches (p : Policy) (module : String) : List (String × String) :=
  (p.store.queryText .patch module).filterMap fun d =>
    match d.payload with
    | .replacement find replace => some (find, replace)
    | _ => none

/-- The source of a generated module after all replacements. -/
def patchSource (p : Policy) (module source : String) : String :=
  (p.patches module).foldl
    (fun text (find, put) => String.ofList (Text.replaceAll find.toList put.toList text.toList))
    source

/-- Whether a module is generated in several parts. -/
def isSplit (p : Policy) (module : String) : Bool := p.marks .split module

/-- Whether a symbol is left out of the output. -/
def isSkipped (p : Policy) (name : String) : Bool := p.marks .skip name

/-- The priorities for the symbols of a module, in their order. -/
def symbolRules (p : Policy) (module : String) : List SymbolRule :=
  ((p.store.directivesOf .symbolPriority).filter fun d =>
    Text.trimmed d.target == module).filterMap fun d =>
      match d.payload with
      | .patternPriority pattern priority => some ⟨pattern, priority⟩
      | _ => none

/-- The symbols of a module in generation order. -/
def symbolOrder (p : Policy) (module : String) (symbols : List String) : List String :=
  orderSymbols (p.symbolRules module) p.config.defaultSymbolPriority symbols

/-! ## Settings of the build -/

/-- The directories in which headers are looked for. -/
def includeDirs (p : Policy) : List String := p.targets .includeDir

/-- The platform of compiler arguments that hold everywhere. -/
def anyPlatform : String := "any"

/-- The compiler arguments for a platform: those that hold everywhere, then its own. -/
def compilerArgs (p : Policy) (platform : String) : List String :=
  let args (wanted : String) := ((p.store.directivesOf .compilerArg).filter fun d =>
    Text.trimmed d.target == wanted).map (·.payload.shown)
  if platform == anyPlatform then args anyPlatform else args anyPlatform ++ args platform

/-! ## The fingerprint -/

/-- A placement as a JSON value. -/
def placementJson (e : Placement) : Json :=
  .obj [
    ("from", .str e.edge.source),
    ("to", .str e.edge.target),
    ("placement", .str e.site.text),
    ("anchors", .strings e.anchors),
    ("on_cycle", .bool e.onCycle),
    ("redundant", .bool e.redundant)]

/-- What the fingerprint of a policy is taken of: the lines of the active directives, the
generation order and the placements. -/
def summary (p : Policy) : Json :=
  .obj [
    ("directives", .strings (p.ruleset.activeDirectives.map Directive.line)),
    ("order", .strings p.order),
    ("placements", .arr (p.placements.map placementJson))]

/-- The digest of a policy. -/
def fingerprint (p : Policy) : Digest := .ofMessage p.summary.canonicalText

end Policy

end BindingRules
