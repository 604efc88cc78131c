import BindingRules.Directive.Basic
import BindingRules.Directive.Reader

set_option autoImplicit false

/-!
# Rulesets

A ruleset holds every line of every rule source. Blank lines, remarks and lines that are no
directives are kept beside the directives, so that the sources can be written out again exactly as
they were read.

## Main definitions

* `LineContent`, `LineEnding`, `RuleLine`, `RuleSource`, `Ruleset` — the lines of the sources.
* `Ruleset.directives`, `Ruleset.activeDirectives`, `Ruleset.remarks`, `Ruleset.malformed` — what
  the lines hold.
* `Ruleset.render`, `Ruleset.renderSource?` — the sources as they were read.
* `Ruleset.canonical` — the directives in canonical form.
-/

namespace BindingRules

/-- How a line ends. -/
inductive LineEnding where
  /-- With a line feed. -/
  | lineFeed
  /-- With a carriage return and a line feed. -/
  | carriageReturn
  /-- With the end of the source. -/
  | endOfSource
  deriving DecidableEq, Repr

/-- The characters of a line ending. -/
def LineEnding.chars : LineEnding → List Char
  | lineFeed => ['\n']
  | carriageReturn => ['\r', '\n']
  | endOfSource => []

/-- What a line holds. -/
inductive LineContent where
  /-- Nothing but blanks. -/
  | blank
  /-- A comment that is no directive. -/
  | remark
  /-- A directive, active or commented out. -/
  | directive (d : Directive)
  /-- Something that is no directive, with the reason. -/
  | malformed (reason : StatementError)
  deriving DecidableEq, Repr

/-- A line of a source, as it was read, with what it holds. -/
structure RuleLine where
  /-- The line without its ending. -/
  raw : String
  /-- How the line ends. -/
  ending : LineEnding
  /-- Where the line stands. -/
  location : Location
  /-- What the line holds. -/
  content : LineContent
  deriving DecidableEq, Repr

/-- A source of rules. -/
structure RuleSource where
  /-- The name of the source. -/
  name : String
  /-- Its lines, in order. -/
  lines : List RuleLine
  deriving DecidableEq, Repr

/-- Sources of rules, in the order in which they count. -/
structure Ruleset where
  /-- The sources. -/
  sources : List RuleSource := []
  deriving DecidableEq, Repr

/-- A line that is no directive. -/
structure MalformedLine where
  /-- Where the line stands. -/
  location : Location
  /-- The line without its ending. -/
  raw : String
  /-- Why it is no directive. -/
  reason : StatementError
  deriving DecidableEq, Repr

namespace MalformedLine

/-- The wording of the complaint. -/
def message (m : MalformedLine) : String :=
  m.location.text ++ ": malformed directive " ++ Text.quoted m.raw ++ ": " ++ m.reason.message

/-- The complaint as a diagnostic of the given severity. -/
def diagnostic (m : MalformedLine) (severity : Severity) : Diagnostic :=
  { severity
    kind := .malformedDirective
    location := some m.location
    message := m.reason.message ++ ": " ++ m.raw }

end MalformedLine

namespace RuleLine

/-- The characters of a line with its ending. -/
def chars (l : RuleLine) : List Char := l.raw.toList ++ l.ending.chars

/-- The directive that a line holds. -/
def directive? (l : RuleLine) : Option Directive :=
  match l.content with
  | .directive d => some d
  | _ => none

/-- The complaint about a line that is no directive. -/
def malformed? (l : RuleLine) : Option MalformedLine :=
  match l.content with
  | .malformed reason => some ⟨l.location, l.raw, reason⟩
  | _ => none

/-- Whether a line holds a remark. -/
def isRemark (l : RuleLine) : Bool := l.content == .remark

end RuleLine

/-- A source as it was read. -/
def RuleSource.render (s : RuleSource) : String := String.ofList (s.lines.flatMap RuleLine.chars)

namespace Ruleset

/-- All lines of all sources. -/
def lines (r : Ruleset) : List RuleLine := r.sources.flatMap RuleSource.lines

/-- All directives, active or commented out. -/
def directives (r : Ruleset) : List Directive := r.lines.filterMap RuleLine.directive?

/-- The directives that are not commented out. -/
def activeDirectives (r : Ruleset) : List Directive := r.directives.filter (·.active)

/-- The lines that hold remarks. -/
def remarks (r : Ruleset) : List RuleLine := r.lines.filter RuleLine.isRemark

/-- The complaints about lines that are no directives. -/
def malformed (r : Ruleset) : List MalformedLine := r.lines.filterMap RuleLine.malformed?

/-- All sources as they were read, one behind the other. -/
def render (r : Ruleset) : String := String.join (r.sources.map RuleSource.render)

/-- The first source of the given name as it was read. -/
def renderSource? (r : Ruleset) (name : String) : Option String :=
  (r.sources.find? (·.name == name)).map RuleSource.render

/-- The canonical lines of all directives. -/
def canonical (r : Ruleset) : String :=
  String.join (r.directives.map fun d => d.line ++ "\n")

end Ruleset

end BindingRules
