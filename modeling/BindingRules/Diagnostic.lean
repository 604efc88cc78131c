set_option autoImplicit false

/-!
# Diagnostics

Every condition that is reported, whether it stops the work or not, is a diagnostic, so that a
caller can show one uniform list with the places in the rules.

## Main definitions

* `Location` — a line of a rule source.
* `Severity`, `DiagnosticKind`, `Diagnostic` — reported conditions.
* `Diagnostic.sort` — the order in which diagnostics are shown: by location, and those without
  one at the end.
-/

namespace BindingRules

/-- A line of a rule source. -/
structure Location where
  /-- The name of the source. -/
  source : String
  /-- The number of the line; the first line has number 1. -/
  line : Nat
  deriving DecidableEq, Repr

namespace Location

/-- A location as it is shown. -/
def text (l : Location) : String := l.source ++ ":" ++ toString l.line

/-- Whether `a` does not stand behind `b`: sources by name, and lines of one source by number. -/
def le (a b : Location) : Bool :=
  decide (a.source < b.source) || (a.source == b.source && decide (a.line ≤ b.line))

end Location

/-- How serious a condition is. -/
inductive Severity where
  /-- A note that never changes the outcome. -/
  | info
  /-- A condition that is reported while the work goes on. -/
  | warning
  /-- A condition that stops the work. -/
  | error
  deriving DecidableEq, Repr

/-- The word for a severity. -/
def Severity.text : Severity → String
  | info => "info"
  | warning => "warning"
  | error => "error"

/-- All severities, the least serious first. -/
def Severity.all : List Severity := [info, warning, error]

/-- What is reported. -/
inductive DiagnosticKind where
  /-- A line that is no directive. -/
  | malformedDirective
  /-- A target that no symbol has. -/
  | unknownSymbol
  /-- A dependency cycle that guards do not break. -/
  | unbrokenCycle
  /-- Priorities that contradict a dependency. -/
  | orderingConflict
  /-- A directive that comes out of order. -/
  | storeConflict
  /-- An edge with guards of both kinds. -/
  | redundantGuard
  /-- A directive for another platform. -/
  | platformSkipped
  deriving DecidableEq, Repr

/-- The identifier of a kind of diagnostic. -/
def DiagnosticKind.text : DiagnosticKind → String
  | malformedDirective => "malformed_directive"
  | unknownSymbol => "unknown_symbol"
  | unbrokenCycle => "unbroken_cycle"
  | orderingConflict => "ordering_conflict"
  | storeConflict => "store_conflict"
  | redundantGuard => "redundant_guard"
  | platformSkipped => "platform_skipped"

/-- All kinds of diagnostics. -/
def DiagnosticKind.all : List DiagnosticKind :=
  [malformedDirective, unknownSymbol, unbrokenCycle, orderingConflict, storeConflict,
    redundantGuard, platformSkipped]

/-- One reported condition. -/
structure Diagnostic where
  /-- How serious the condition is. -/
  severity : Severity
  /-- What is reported. -/
  kind : DiagnosticKind
  /-- The line from which the condition stems, if it is a single one. -/
  location : Option Location := none
  /-- The description for readers. -/
  message : String
  deriving DecidableEq, Repr

namespace Diagnostic

/-- Whether the condition stops the work. -/
def isError (d : Diagnostic) : Bool := d.severity == .error

/-- A diagnostic as it is shown. -/
def text (d : Diagnostic) : String :=
  (d.location.elim "" fun l => l.text ++ ": ") ++ d.severity.text ++ " [" ++ d.kind.text ++ "]: " ++
    d.message

/-- Whether `a` may be shown before `b`: by location, and without location at the end. -/
def shownBefore (a b : Diagnostic) : Bool :=
  match a.location, b.location with
  | some x, some y => x.le y
  | none, some _ => false
  | _, none => true

/-- Diagnostics in the order in which they are shown. Those at one place, and those at none, keep
their order. -/
def sort (ds : List Diagnostic) : List Diagnostic := ds.mergeSort shownBefore

/-- Diagnostics as they are shown, one on each line. -/
def listText (ds : List Diagnostic) : String :=
  String.join ((sort ds).map fun d => d.text ++ "\n")

end Diagnostic

end BindingRules
