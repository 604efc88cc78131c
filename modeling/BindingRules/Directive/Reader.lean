import BindingRules.Directive.Statement
import BindingRules.Name.Normalize
import BindingRules.Text.Integer

set_option autoImplicit false

/-!
# Reading statements

A line is cut into sign, verb, platform and body; sign and verb decide the kind, the kind decides
how the body is cut into target and value, and the value is read as that kind wants it.

## Main definitions

* `StatementError` — why a line is no statement, with `StatementError.message`.
* `Statement.ofLine` — the statement of a line without blanks around it.
-/

namespace BindingRules

open Text

/-- Why a line is no statement. The opening is the sign and the verb as the line has them. -/
inductive StatementError where
  /-- The line does not begin with a sign. -/
  | missingSign
  /-- There is nothing behind the mark for a platform. -/
  | emptyPlatform (opening : String)
  /-- No kind has this sign and verb. -/
  | unknownVerb (opening : String)
  /-- The kind cannot be limited to a platform. -/
  | platformNotAccepted (opening : String)
  /-- There is no target. -/
  | missingTarget (opening : String)
  /-- The colon or the arrow behind the target is missing. -/
  | missingSeparator (opening : String) (shape : Shape)
  /-- There is nothing behind the colon or the arrow. -/
  | missingValue (opening : String)
  /-- A priority for symbols has no text to look for. -/
  | emptyPattern
  /-- A priority is no integer. -/
  | notAnInteger (text : String)
  /-- The name of a module has blanks. -/
  | blankInModule (name : String)
  /-- A replacement has no arrow. -/
  | missingReplacement
  /-- A replacement has no text to look for. -/
  | emptySearch
  /-- The target is no name. -/
  | invalidTarget (error : NameError)
  deriving DecidableEq, Repr

/-- The wording of the reason. -/
def StatementError.message : StatementError → String
  | missingSign => "directive must start with `+` or `-`"
  | emptyPlatform opening => "empty platform qualifier on `" ++ opening ++ "`"
  | unknownVerb opening => "unknown verb `" ++ opening ++ "`"
  | platformNotAccepted opening => "`" ++ opening ++ "` does not accept a platform qualifier"
  | missingTarget opening => "`" ++ opening ++ "` requires a target"
  | missingSeparator opening .arrow => "`" ++ opening ++ "` expects `<target>--><value>`"
  | missingSeparator opening _ => "`" ++ opening ++ "` expects `<target>: <value>`"
  | missingValue opening => "`" ++ opening ++ "` requires a value after the separator"
  | emptyPattern => "empty symbol pattern before `=`"
  | notAnInteger text => "expected integer priority, found " ++ quoted text
  | blankInModule name => "module name " ++ quoted name ++ " contains whitespace"
  | missingReplacement => "expected `<find>--><replace>`"
  | emptySearch => "empty search text before `-->`"
  | invalidTarget error => "invalid target: " ++ error.message

namespace Statement

/-- The arrow between a target and its value. -/
def arrow : List Char := ['-', '-', '>']

/-- A text cut at its first colon that is no half of a scope separator. -/
def splitColon? : List Char → Option (List Char × List Char)
  | [] => none
  | ':' :: ':' :: cs => (splitColon? cs).map fun (a, b) => (':' :: ':' :: a, b)
  | ':' :: cs => some ([], cs)
  | c :: cs => (splitColon? cs).map fun (a, b) => (c :: a, b)

/-- The body of a line cut into target and value. The targets of import guards may end at an arrow
as well. -/
def splitTarget? (kind : DirectiveKind) (body : List Char) : Option (List Char × List Char) :=
  match kind.shape with
  | .bare => some (body, [])
  | .colon =>
    if kind = .importGuard ∧ occursIn arrow body then splitOnce? arrow body else splitColon? body
  | .arrow => splitOnce? arrow body

/-- The target and the value of a line's body, without blanks around them. -/
def splitBody (kind : DirectiveKind) (body : List Char) :
    Except StatementError (List Char × List Char) :=
  match splitTarget? kind body with
  | none => .error (.missingSeparator (opening kind) kind.shape)
  | some (target, value) =>
    if kind.shape = .bare then .ok (target, value)
    else if (trim target).isEmpty then .error (.missingTarget (opening kind))
    else if (trim value).isEmpty then .error (.missingValue (opening kind))
    else .ok (trim target, trim value)

/-- The priority that a text states. -/
def readPriority (s : List Char) : Except StatementError Int :=
  match readSigned64? (trim s) with
  | some n => .ok n
  | none => .error (.notAnInteger (String.ofList (trim s)))

/-- The priority for symbols that stands on both sides of the last equals sign. -/
def readPatternPriority (pattern priority : List Char) : Except StatementError Payload :=
  if (trim pattern).isEmpty then .error .emptyPattern
  else (readPriority priority).map (.patternPriority (String.ofList (trim pattern)))

/-- The replacement that a text states. -/
def readReplacement (value : List Char) : Except StatementError Payload :=
  match splitOnce? arrow value with
  | none => .error .missingReplacement
  | some (find, put) =>
    if (trim find).isEmpty then .error .emptySearch
    else .ok (.replacement (String.ofList (trim find)) (String.ofList (trim put)))

/-- The kind and the value of a statement whose sign and verb belong to `kind`. A priority with an
equals sign is one for symbols. -/
def readPayload (kind : DirectiveKind) (value : List Char) :
    Except StatementError (DirectiveKind × Payload) :=
  let text := String.ofList value
  match kind with
  | .headerAdd | .headerRemove => .ok (kind, .header text)
  | .nameOverride => .ok (kind, .bindingName text)
  | .sortPriority | .symbolPriority =>
    match splitOnceLast? ['='] value with
    | some (pattern, priority) =>
      (readPatternPriority pattern priority).map (.symbolPriority, ·)
    | none => (readPriority value).map fun n => (.sortPriority, .priority n)
  | .importGuard | .callGuard | .importExclude =>
    if value.any isBlank then .error (.blankInModule text) else .ok (kind, .module text)
  | .patch => (readReplacement value).map (kind, ·)
  | .topComment | .returnPolicy | .keepAlive | .beforeModule | .beforeType | .afterType
  | .baseExclude | .compilerArg => .ok (kind, .text text)
  | _ => .ok (kind, .absent)

/-- Whether the target of a kind is taken as it is written, and need not be a name. -/
def takesAnyTarget : DirectiveKind → Bool
  | .includeDir | .headerBan | .compilerArg | .returnTypeExclude => true
  | _ => false

/-- Checks that a target is a name where it has to be one. -/
def checkTarget (kind : DirectiveKind) (target : String) : Except StatementError Unit :=
  if takesAnyTarget kind then .ok ()
  else
    match Name.normalize target with
    | .ok _ => .ok ()
    | .error e => .error (.invalidTarget e)

/-- The verb of a line and the platform behind it. -/
def splitVerb (sign : Char) (word : List Char) :
    Except StatementError (List Char × Option String) :=
  match splitOnce? ['@'] word with
  | none => .ok (word, none)
  | some (verb, platform) =>
    if (trim platform).isEmpty then .error (.emptyPlatform (String.ofList (sign :: verb)))
    else .ok (verb, some (String.ofList (trim platform)))

/-- The first kind with the given sign and verb. -/
def kindOf? (sign : Char) (verb : List Char) : Option DirectiveKind :=
  DirectiveKind.all.find? fun k => k.sign == sign && k.verb.toList == verb

/-- The statement of a line, given by its sign and what stands behind it. -/
def ofSigned (sign : Char) (rest : List Char) : Except StatementError Statement := do
  let body := trim (rest.dropWhile fun c => !isBlank c)
  let (verb, platform) ← splitVerb sign (rest.takeWhile fun c => !isBlank c)
  let opening := String.ofList (sign :: verb)
  match kindOf? sign verb with
  | none => .error (.unknownVerb opening)
  | some kind =>
    if platform.isSome && !kind.takesPlatform then .error (.platformNotAccepted opening)
    else if body.isEmpty then .error (.missingTarget opening)
    else
      let (target, value) ← splitBody kind body
      let (kind, payload) ← readPayload kind value
      let target := String.ofList target
      checkTarget kind target
      return { kind, target, payload, platform }

/-- Whether a line begins like a statement. -/
def hasSign (s : List Char) : Bool := s.head? == some '+' || s.head? == some '-'

/-- The statement of a line without blanks around it. -/
def ofLine (s : List Char) : Except StatementError Statement :=
  match s with
  | sign :: rest => if sign == '+' || sign == '-' then ofSigned sign rest else .error .missingSign
  | [] => .error .missingSign

end Statement

end BindingRules
