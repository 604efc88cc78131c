import BindingRules.Diagnostic
import BindingRules.Directive.Statement
import BindingRules.Name.Normalize

set_option autoImplicit false

/-!
# Directives

A directive is a statement together with its place: the line where it stands and its position
among all directives of a ruleset. A directive that is commented out is kept, but it is not active.

## Main definitions

* `Directive` — a statement with its place.
* `Directive.line` — its canonical line.
* `Directive.targetName` — the name of its target.
-/

namespace BindingRules

/-- A statement with its place. -/
structure Directive extends Statement where
  /-- The position among all directives; of two directives the later one has the greater. -/
  order : Nat
  /-- Whether the directive counts; one that is commented out does not. -/
  active : Bool
  /-- The line where the directive stands. -/
  location : Location
  deriving DecidableEq, Repr

namespace Directive

/-- The canonical line of a directive, commented out if it is not active. -/
def line (d : Directive) : String :=
  if d.active then d.toStatement.line else "# " ++ d.toStatement.line

/-- The name of the target. -/
def targetName (d : Directive) : Except NameError Name := Name.normalize d.target

end Directive

end BindingRules
