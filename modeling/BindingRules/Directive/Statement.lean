import BindingRules.Directive.Kind

set_option autoImplicit false

/-!
# Statements

A statement is what a directive's line says: a kind, a target, a value and perhaps a platform. It
does not know where the line stands.

## Main definitions

* `Payload` — the value of a statement.
* `Statement` — the content of a directive's line.
* `Statement.line` — the canonical line of a statement.
-/

namespace BindingRules

/-- The value behind the target of a statement. -/
inductive Payload where
  /-- No value. -/
  | absent
  /-- A header file. -/
  | header (file : String)
  /-- A name in the bindings. -/
  | bindingName (name : String)
  /-- A priority; the lower one comes first. -/
  | priority (value : Int)
  /-- A priority for the symbols that contain a text. -/
  | patternPriority (pattern : String) (priority : Int)
  /-- A module. -/
  | module (name : String)
  /-- Any text. -/
  | text (value : String)
  /-- A text and what to put in its place. -/
  | replacement (find replace : String)
  deriving DecidableEq, Repr

namespace Payload

/-- The value as it stands in a line. -/
def shown : Payload → String
  | absent => ""
  | header file => file
  | bindingName name => name
  | priority value => toString value
  | patternPriority pattern value => pattern ++ "=" ++ toString value
  | module name => name
  | text value => value
  | replacement find replace => find ++ "-->" ++ replace

/-- The module that the value names. -/
def module? : Payload → Option String
  | module name => some name
  | _ => none

/-- The priority that the value states. -/
def priority? : Payload → Option Int
  | priority value => some value
  | patternPriority _ value => some value
  | _ => none

end Payload

/-- What a directive's line says. -/
structure Statement where
  /-- What the directive does. -/
  kind : DirectiveKind
  /-- To what it does so, without blanks around it. -/
  target : String
  /-- The value behind the target. -/
  payload : Payload
  /-- The platform to which the statement is limited. -/
  platform : Option String := none
  deriving DecidableEq, Repr

namespace Statement

/-- Sign and verb of a kind. -/
def opening (kind : DirectiveKind) : String := kind.sign.toString ++ kind.verb

/-- The canonical line of a statement. -/
def line (s : Statement) : String :=
  let body :=
    match s.kind.shape with
    | .bare => s.target
    | .colon => s.target ++ ": " ++ s.payload.shown
    | .arrow => s.target ++ "-->" ++ s.payload.shown
  opening s.kind ++ (s.platform.elim "" ("@" ++ ·)) ++ " " ++ body

/-- Whether the statement holds on a platform. A statement that is limited to a platform does not
hold where none is known. -/
def appliesTo (s : Statement) (platform : Option String) : Bool :=
  match s.platform with
  | none => true
  | some wanted => platform == some wanted

end Statement

end BindingRules
