import BindingRules.Directive.Basic
import BindingRules.Name.Cover
import BindingRules.Table

set_option autoImplicit false

/-!
# The store of directives

The store takes directives in their order and says which of them are in force for a name. Of
directives of an exclusive kind for the same target only the last is live; the others are
overridden. Directives that are commented out or meant for another platform are inert.

A directive whose target has wildcards may be about any name, and is tried for every query. All
others stand in tables under their kind and the key of their target: one directive for each key of
an exclusive kind, and all of them for a key of an accumulating kind.

## Main definitions

* `Address`, `Directive.address` — which names a directive is about.
* `Store`, `Store.apply` — the store, and how it takes a directive.
* `Store.query`, `Store.queryAll`, `Store.queryText`, `Store.directivesOf`, `Store.affecting` —
  what is in force.
* `ObservedStore`, `ObservedStore.apply` — a store with the record of an observer.
-/

namespace BindingRules

/-- What the target of a directive is about. -/
inductive Address where
  /-- The names with the given key. A target that is no name is its own key. -/
  | key (text : String)
  /-- The names covered by a name with wildcards. -/
  | pattern (rule : Name)
  deriving DecidableEq, Repr

/-- The text under which an address is known. -/
def Address.text : Address → String
  | key text => text
  | pattern rule => rule.key

/-- What a target is about. -/
def Address.ofTarget (target : String) : Address :=
  match Name.normalize target with
  | .ok name => if name.isPattern then .pattern name else .key name.key
  | .error _ => .key (Text.trimmed target)

namespace Directive

/-- What the directive is about. -/
def address (d : Directive) : Address := .ofTarget d.target

/-- Whether the target of the directive, taken as a rule, covers the name `n`. A target that is no
name covers the name with the same text. -/
def covers (d : Directive) (n : Name) : Bool :=
  match d.targetName with
  | .ok rule => rule.covers n
  | .error _ => n.key == Text.trimmed d.target

/-- Directives in the order of their positions. -/
def sort (ds : List Directive) : List Directive :=
  ds.mergeSort fun a b => decide (a.order ≤ b.order)

/-- The directives with `d` in front of them, but of neighbours with one position only the first. -/
def dropRepeatsAfter (d : Directive) : List Directive → List Directive
  | [] => [d]
  | e :: ds =>
    if d.order = e.order then dropRepeatsAfter d ds else d :: dropRepeatsAfter e ds

/-- The directives, but of neighbours with one position only the first. -/
def dropRepeats : List Directive → List Directive
  | [] => []
  | d :: ds => dropRepeatsAfter d ds

/-- The directive with the greatest position; of several, the last one. -/
def latest? : List Directive → Option Directive
  | [] => none
  | d :: ds => some (ds.foldl (fun last e => if last.order ≤ e.order then e else last) d)

end Directive

/-- A directive that lost its place, with the one that took it. -/
structure Override where
  /-- The directive that is no longer in force. -/
  loser : Directive
  /-- The directive that took its place. -/
  winner : Directive
  deriving DecidableEq, Repr

/-- A live directive whose target has wildcards. -/
structure PatternEntry where
  /-- The name with wildcards. -/
  name : Name
  /-- The directive. -/
  directive : Directive
  deriving DecidableEq, Repr

/-- A store of directives. -/
structure Store where
  /-- The platform for which directives are looked up, if one is known. -/
  platform : Option String := none
  /-- The directives of exclusive kinds in force, by kind and key. -/
  exclusive : Table (DirectiveKind × String) Directive := .empty
  /-- The directives of accumulating kinds in force, by kind and key, in their order. -/
  accumulating : Table (DirectiveKind × String) (List Directive) := .empty
  /-- The directives in force whose targets have wildcards, in their order. -/
  patterns : List PatternEntry := []
  /-- The directives that were overridden, in the order in which that happened. -/
  overrides : List Override := []
  /-- The directives that are commented out or meant for another platform. -/
  inert : List Directive := []
  /-- The position of the last directive that was taken. -/
  lastOrder : Option Nat := none
  deriving DecidableEq, Repr

/-- The refusal of a directive that does not come behind the last one. -/
structure OutOfOrder where
  /-- The directive that is refused. -/
  directive : Directive
  /-- The position of the last directive that was taken. -/
  last : Nat
  deriving DecidableEq, Repr

namespace OutOfOrder

/-- The wording of the refusal. -/
def message (e : OutOfOrder) : String :=
  e.directive.location.text ++ ": " ++ e.directive.kind.text ++ " directive with source order " ++
    toString e.directive.order ++ " applied after source order " ++ toString e.last

/-- The refusal as an error. -/
def diagnostic (e : OutOfOrder) : Diagnostic :=
  { severity := .error
    kind := .storeConflict
    location := some e.directive.location
    message := e.message }

end OutOfOrder

namespace Store

/-- Whether a directive takes part in queries: it is not commented out, and meant for the
platform of the store. -/
def admits (s : Store) (d : Directive) : Bool := d.active && d.appliesTo s.platform

/-- The directive in the way of an exclusive one whose target has wildcards: the one of the same
kind with the same name. -/
def isReplaced (rule : Name) (d : Directive) (p : PatternEntry) : Bool :=
  d.kind.resolution == .exclusive && p.directive.kind == d.kind && p.name == rule

/-- The store with one live directive more, of which the target has wildcards. -/
def placePattern (s : Store) (rule : Name) (d : Directive) : Store :=
  { s with
    patterns := s.patterns.eraseP (isReplaced rule d) ++ [⟨rule, d⟩]
    overrides :=
      s.overrides ++ ((s.patterns.find? (isReplaced rule d)).map (⟨·.directive, d⟩)).toList }

/-- The store with one live directive more, which is looked up by a key. -/
def placeKey (s : Store) (key : String) (d : Directive) : Store :=
  match d.kind.resolution with
  | .exclusive =>
    { s with
      exclusive := s.exclusive.insert (d.kind, key) d
      overrides := s.overrides ++ ((s.exclusive.get? (d.kind, key)).map (⟨·, d⟩)).toList }
  | .accumulating =>
    { s with
      accumulating := s.accumulating.insert (d.kind, key)
        ((s.accumulating.get? (d.kind, key)).getD [] ++ [d]) }

/-- The store with one live directive more. -/
def placeLive (s : Store) (d : Directive) : Store :=
  match d.address with
  | .pattern rule => s.placePattern rule d
  | .key key => s.placeKey key d

/-- The store after a directive of which the position has been checked. -/
def place (s : Store) (d : Directive) : Store :=
  let s := { s with lastOrder := some d.order }
  if s.admits d then s.placeLive d else { s with inert := s.inert ++ [d] }

/-- The store after a directive, which has to come behind all directives taken so far. -/
def apply (s : Store) (d : Directive) : Except OutOfOrder Store :=
  match s.lastOrder with
  | some last => if d.order ≤ last then .error ⟨d, last⟩ else .ok (s.place d)
  | none => .ok (s.place d)

/-- The store after several directives, and the refusals of those that came out of order. -/
def applyAll (s : Store) : List Directive → Store × List OutOfOrder
  | [] => (s, [])
  | d :: ds =>
    match s.apply d with
    | .ok s => s.applyAll ds
    | .error e =>
      let (s, errors) := s.applyAll ds
      (s, e :: errors)

/-- The live directives of a kind with wildcards that cover a name. -/
def matchingPatterns (s : Store) (kind : DirectiveKind) (n : Name) : List Directive :=
  (s.patterns.filter fun p => p.directive.kind == kind && p.name.covers n).map (·.directive)

/-- The directive of an exclusive kind in force for a name: the last one of those found by a key
and those with wildcards. -/
def query (s : Store) (kind : DirectiveKind) (n : Name) : Option Directive :=
  Directive.latest? ((n.lookupKeys.filterMap fun key => s.exclusive.get? (kind, key)) ++
    s.matchingPatterns kind n)

/-- All directives of a kind in force for a name, in their order: of an exclusive kind the last
one. -/
def queryAll (s : Store) (kind : DirectiveKind) (n : Name) : List Directive :=
  let found :=
    match kind.resolution with
    | .exclusive => (s.query kind n).toList
    | .accumulating =>
      (n.lookupKeys.filterMap fun key => s.accumulating.get? (kind, key)).flatten ++
        s.matchingPatterns kind n
  Directive.dropRepeats (Directive.sort found)

/-- The directives of a kind in force that are looked up by a key. -/
def atKey (s : Store) (kind : DirectiveKind) (key : String) : List Directive :=
  match kind.resolution with
  | .exclusive => (s.exclusive.get? (kind, key)).toList
  | .accumulating => (s.accumulating.get? (kind, key)).getD []

/-- All directives of a kind in force for a text: for the name it stands for, or for a target with
the same text if it stands for none. -/
def queryText (s : Store) (kind : DirectiveKind) (raw : String) : List Directive :=
  match Name.normalize raw with
  | .ok n => s.queryAll kind n
  | .error _ => s.atKey kind (Text.trimmed raw)

/-- Whether an exclusion of the given kind is in force for a name. -/
def isExcluded (s : Store) (kind : DirectiveKind) (n : Name) : Bool :=
  kind.isExclusion && (s.query kind n).isSome

/-- All live directives of a kind, in their order. -/
def directivesOf (s : Store) (kind : DirectiveKind) : List Directive :=
  let keyed :=
    match kind.resolution with
    | .exclusive => (s.exclusive.entries.filter (·.1.1 == kind)).map (·.2)
    | .accumulating => (s.accumulating.entries.filter (·.1.1 == kind)).flatMap (·.2)
  Directive.sort
    (keyed ++ (s.patterns.filter (·.directive.kind == kind)).map (·.directive))

/-- The directives that were overridden, in the order in which that happened. -/
def overridden (s : Store) : List Directive := s.overrides.map Override.loser

/-- All directives about a name, in their order: the live ones that address it and the overridden
ones that cover it. -/
def affecting (s : Store) (n : Name) : List Directive :=
  Directive.sort
    ((s.exclusive.entries.filter fun e => n.lookupKeys.contains e.1.2).map (·.2) ++
      (s.accumulating.entries.filter fun e => n.lookupKeys.contains e.1.2).flatMap (·.2) ++
      (s.patterns.filter fun p => p.name.covers n).map (·.directive) ++
      s.overridden.filter (·.covers n))

/-- The number of live directives. -/
def size (s : Store) : Nat :=
  s.exclusive.entries.length + s.accumulating.values.flatten.length + s.patterns.length

/-- The live directive that a directive takes the place of, if there is one. -/
def displaced? (s : Store) (d : Directive) : Option Directive :=
  if s.admits d then
    match d.address with
    | .pattern rule => (s.patterns.find? (isReplaced rule d)).map (·.directive)
    | .key key =>
      match d.kind.resolution with
      | .exclusive => s.exclusive.get? (d.kind, key)
      | .accumulating => none
  else none

end Store

/-- A store with the record of an observer that is told of each directive that loses its place. -/
structure ObservedStore where
  /-- The store. -/
  store : Store := {}
  /-- What the observer was told, in the order in which it happened. -/
  record : List Override := []
  deriving DecidableEq, Repr

namespace ObservedStore

/-- The store after a directive, of which the observer is told whose place it took. A directive that
is refused changes nothing. -/
def apply (o : ObservedStore) (d : Directive) : ObservedStore × Option OutOfOrder :=
  match o.store.apply d with
  | .ok store =>
    ({ store, record := o.record ++ ((o.store.displaced? d).map (⟨·, d⟩)).toList }, none)
  | .error e => (o, some e)

/-- The store after several directives, one after the other. -/
def applyAll (o : ObservedStore) (ds : List Directive) : ObservedStore :=
  ds.foldl (fun o d => (o.apply d).1) o

end ObservedStore

end BindingRules
