import BindingRules.Ruleset.Basic

set_option autoImplicit false

/-!
# Reading rulesets

Sources are read one after the other, and their directives are numbered through. In strict mode a
line that is no directive stops the reading of its source, which is then not added; the numbers
given to its directives up to that line stay used. In permissive mode such a line is kept.

## Main definitions

* `splitLines` — the lines of a text with their endings.
* `LineClass`, `classify` — what a line holds, apart from its place.
* `RulesetReader`, `RulesetReader.addSource` — reading source by source.
* `Files`, `FileError`, `Ruleset.addFiles` — reading sources from files.
-/

namespace BindingRules

open Text

/-- Whether malformed lines are errors. -/
inductive RuleMode where
  /-- The first malformed line stops the reading. -/
  | strict
  /-- Malformed lines are kept and reported. -/
  | permissive
  deriving DecidableEq, Repr

/-- The identifier of a mode. -/
def RuleMode.text : RuleMode → String
  | strict => "strict"
  | permissive => "permissive"

/-- The lines of a text that goes on behind `line`, which is given last character first. -/
def splitLinesAfter (line : List Char) : List Char → List (List Char × LineEnding)
  | [] => if line.isEmpty then [] else [(line.reverse, .endOfSource)]
  | '\n' :: rest =>
    match line with
    | '\r' :: line => (line.reverse, .carriageReturn) :: splitLinesAfter [] rest
    | line => (line.reverse, .lineFeed) :: splitLinesAfter [] rest
  | c :: rest => splitLinesAfter (c :: line) rest

/-- The lines of a text with their endings. -/
def splitLines (text : List Char) : List (List Char × LineEnding) := splitLinesAfter [] text

/-- What a line holds, apart from its place. -/
inductive LineClass where
  /-- Nothing but blanks. -/
  | blank
  /-- A comment that is no statement. -/
  | remark
  /-- A statement, active or commented out. -/
  | statement (s : Statement) (active : Bool)
  /-- Something that is no statement, with the reason. -/
  | malformed (reason : StatementError)
  deriving DecidableEq, Repr

/-- What a commented line holds, given what stands behind its first comment mark. -/
def classifyComment (s : List Char) : LineClass :=
  let inner := trim (dropAll ['#'] s)
  if Statement.hasSign inner then
    match Statement.ofLine inner with
    | .ok statement => .statement statement false
    | .error _ => .remark
  else .remark

/-- What a line holds. -/
def classify (raw : List Char) : LineClass :=
  match trim raw with
  | [] => .blank
  | '#' :: rest => classifyComment rest
  | line =>
    match Statement.ofLine line with
    | .ok statement => .statement statement true
    | .error reason => .malformed reason

/-- The result of reading the lines of a source: the next position for a directive, and the lines
or the line that stopped the reading. -/
structure SourceReading where
  /-- The position of the next directive. -/
  nextOrder : Nat
  /-- The lines of the source, or the malformed one that stopped the reading. -/
  lines : Except MalformedLine (List RuleLine)

/-- Puts a line in front of the lines read after it. -/
def SourceReading.cons (l : RuleLine) (r : SourceReading) : SourceReading :=
  { r with lines := r.lines.map (l :: ·) }

/-- Reads lines of the source `name`, of which the first has the number `number`; the first
directive gets the position `order`. -/
def readLines (mode : RuleMode) (name : String) (number order : Nat) :
    List (List Char × LineEnding) → SourceReading
  | [] => ⟨order, .ok []⟩
  | (raw, ending) :: rest =>
    let location : Location := ⟨name, number⟩
    let line (content : LineContent) : RuleLine := ⟨String.ofList raw, ending, location, content⟩
    match classify raw with
    | .blank => (readLines mode name (number + 1) order rest).cons (line .blank)
    | .remark => (readLines mode name (number + 1) order rest).cons (line .remark)
    | .statement s active =>
      (readLines mode name (number + 1) (order + 1) rest).cons
        (line (.directive { s with order, active, location }))
    | .malformed reason =>
      match mode with
      | .strict => ⟨order, .error ⟨location, String.ofList raw, reason⟩⟩
      | .permissive =>
        (readLines mode name (number + 1) order rest).cons (line (.malformed reason))

/-- A ruleset that is being read. -/
structure RulesetReader where
  /-- How malformed lines are handled. -/
  mode : RuleMode
  /-- The sources read so far. -/
  ruleset : Ruleset := {}
  /-- The position of the next directive. -/
  nextOrder : Nat := 0

namespace RulesetReader

/-- Reads a source and adds it to the ruleset, unless a malformed line stops the reading. -/
def addSource (r : RulesetReader) (name text : String) : RulesetReader × Option MalformedLine :=
  let reading := readLines r.mode name 1 r.nextOrder (splitLines text.toList)
  match reading.lines with
  | .ok lines =>
    ({ r with
        ruleset := ⟨r.ruleset.sources ++ [⟨name, lines⟩]⟩
        nextOrder := reading.nextOrder }, none)
  | .error m => ({ r with nextOrder := reading.nextOrder }, some m)

end RulesetReader

/-- Why a file cannot be read. -/
inductive FileError where
  /-- There is no such file. -/
  | notFound
  /-- The file holds bytes that are no text. -/
  | notText
  /-- Another reason, in words. -/
  | other (reason : String)
  deriving DecidableEq, Repr

/-- The wording of the reason. -/
def FileError.message : FileError → String
  | notFound => "No such file or directory (os error 2)"
  | notText => "stream did not contain valid UTF-8"
  | other reason => reason

/-- The texts of files, by their paths. -/
abbrev Files := String → Except FileError String

/-- Why rules cannot be read. -/
inductive RuleError where
  /-- A line is no directive. -/
  | malformed (line : MalformedLine)
  /-- A file cannot be read. -/
  | unreadable (path : String) (error : FileError)
  deriving DecidableEq, Repr

namespace RuleError

/-- The wording of the complaint. -/
def message : RuleError → String
  | malformed line => line.message
  | unreadable path error => "failed to read rules at " ++ path ++ ": " ++ error.message

/-- The complaint as an error. -/
def diagnostic : RuleError → Diagnostic
  | malformed line => line.diagnostic .error
  | e@(unreadable _ _) =>
    { severity := .error, kind := .malformedDirective, message := e.message }

end RuleError

namespace Ruleset

/-- The ruleset of a single source. -/
def ofText (mode : RuleMode) (name text : String) : Except RuleError Ruleset :=
  match RulesetReader.addSource { mode } name text with
  | (r, none) => .ok r.ruleset
  | (_, some m) => .error (.malformed m)

/-- Adds the files with the given paths to a ruleset that is being read. -/
def addFiles (files : Files) (r : RulesetReader) : List String → Except RuleError Ruleset
  | [] => .ok r.ruleset
  | path :: paths =>
    match files path with
    | .error e => .error (.unreadable path e)
    | .ok text =>
      match r.addSource path text with
      | (r, none) => addFiles files r paths
      | (_, some m) => .error (.malformed m)

/-- The ruleset of the files with the given paths. -/
def ofFiles (mode : RuleMode) (files : Files) (paths : List String) : Except RuleError Ruleset :=
  addFiles files { mode } paths

end Ruleset

end BindingRules
