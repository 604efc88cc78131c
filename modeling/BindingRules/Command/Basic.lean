import BindingRules.Config.Reader
import BindingRules.Inputs.Reader
import BindingRules.Policy.Explain
import BindingRules.Policy.Resolve

set_option autoImplicit false

/-!
# Commands

What can be asked of a set of rule files from a command line: whether it resolves, in which order
modules are generated, what bears on a name, what its fingerprint is, and how it reads. A command
works on the texts of files and yields texts, so that it can be run without a file system.

## Main definitions

* `Question`, `Command`, `CommandOptions` — what is asked, and about which files.
* `CommandOutput`, `CommandError` — what is printed, and why nothing can be.
* `Command.run` — the answer to a command.
-/

namespace BindingRules

/-- What is asked of a policy. -/
inductive Question where
  /-- Whether the rules resolve, with all notes or without. -/
  | check (all : Bool)
  /-- The generation order, as lines or as JSON. -/
  | order (json : Bool)
  /-- What bears on a name, for readers or as JSON. -/
  | explain (name : String) (json : Bool)
  /-- The fingerprint, or whether it is the expected one. -/
  | fingerprint (expected : Option String)
  deriving DecidableEq, Repr

/-- What is asked of rule files. -/
inductive Command where
  /-- The answer of their policy to a question. -/
  | ask (question : Question)
  /-- The files as they are written, or the lines of their directives. -/
  | render (canonical : Bool)
  deriving DecidableEq, Repr

/-- The files to which a command is put, and the settings that go before the configuration. -/
structure CommandOptions where
  /-- The rule files. -/
  rules : List String
  /-- The file with the configuration. -/
  config : Option String := none
  /-- The file with the generation inputs. -/
  inputs : Option String := none
  /-- Whether the rules are resolved strictly in any case. -/
  strict : Bool := false
  /-- The platform in place of that of the configuration. -/
  platform : Option String := none
  deriving DecidableEq, Repr

/-- What a command prints and how it ends. -/
structure CommandOutput where
  /-- The exit code: one if the answer is a failure. -/
  code : Nat := 0
  /-- What is printed as the answer. -/
  answer : String := ""
  /-- What is printed as complaints. -/
  complaints : String := ""
  deriving DecidableEq, Repr

/-- Why a command has no answer. -/
inductive CommandError where
  /-- The configuration cannot be loaded. -/
  | config (path : String) (cause : LoadError)
  /-- The inputs cannot be loaded. -/
  | inputs (path : String) (cause : LoadError)
  /-- There is no policy. -/
  | resolution (cause : ResolveError)
  /-- The expected fingerprint is no digest. -/
  | expected (cause : Digest.Malformed)
  /-- The rules cannot be read. -/
  | rules (cause : RuleError)
  deriving DecidableEq, Repr

namespace CommandError

/-- What failed. -/
def context : CommandError → String
  | config path _ => "failed to load engine configuration " ++ path
  | inputs path _ => "failed to load generation inputs " ++ path
  | resolution _ => "policy resolution failed"
  | expected _ => "invalid --check value"
  | rules _ => "failed to read rule files"

/-- Why it failed. -/
def reason : CommandError → String
  | config _ cause | inputs _ cause => cause.message
  | resolution cause => cause.message
  | expected cause => cause.message
  | rules cause => cause.message

end CommandError

namespace CommandOptions

/-- The configuration of a command. -/
def loadConfig (o : CommandOptions) (files : Files) : Except CommandError Config := do
  let c ←
    match o.config with
    | some path => (Config.load files path).mapError (.config path)
    | none => pure {}
  return { c with strict := c.strict || o.strict, platform := o.platform.getD c.platform }

/-- The inputs of a command. -/
def loadInputs (o : CommandOptions) (files : Files) : Except CommandError Inputs :=
  match o.inputs with
  | some path => (Inputs.load files path).mapError (.inputs path)
  | none => .ok {}

/-- The policy of the files of a command, or the diagnostics that stand against one. -/
def resolve (o : CommandOptions) (files : Files) :
    Except CommandError (Except (List Diagnostic) Policy) := do
  let config ← o.loadConfig files
  let inputs ← o.loadInputs files
  match config.resolveFiles files o.rules inputs with
  | .ok policy => return .ok policy
  | .error (.diagnostics list) => return .error list
  | .error e => throw (.resolution e)

end CommandOptions

namespace Command

/-- A text as a line. -/
def line (s : String) : String := s ++ "\n"

/-- The answer of `check` for a policy: the diagnostics and a summary. -/
def checkPolicy (all : Bool) (p : Policy) : CommandOutput :=
  { code := if p.diagnostics.any Diagnostic.isError then 1 else 0, answer := p.report all }

/-- The answer of `order` for a policy. -/
def orderPolicy (json : Bool) (p : Policy) : CommandOutput :=
  { answer :=
      if json then line (Json.strings p.order).pretty else String.join (p.order.map line) }

/-- The answer of `explain` for a policy. -/
def explainPolicy (name : String) (json : Bool) (p : Policy) : CommandOutput :=
  { answer := if json then line (p.explain name).json.pretty else p.describe name }

/-- The answer of `fingerprint` for a policy. -/
def fingerprintPolicy (expected : Option String) (p : Policy) :
    Except CommandError CommandOutput :=
  let digest := p.fingerprint
  match expected with
  | none => .ok { answer := line digest.text }
  | some text =>
    match Digest.ofText text with
    | .error e => .error (.expected e)
    | .ok wanted =>
      if wanted = digest then .ok { answer := line ("OK: fingerprint matches " ++ digest.text) }
      else
        .ok {
          code := 1
          answer := line ("FAIL: fingerprint mismatch: expected " ++ wanted.text ++ ", got " ++
            digest.text) }

/-- The answer of a policy to a question. -/
def answerFor (p : Policy) : Question → Except CommandError CommandOutput
  | .check all => .ok (checkPolicy all p)
  | .order json => .ok (orderPolicy json p)
  | .explain name json => .ok (explainPolicy name json p)
  | .fingerprint expected => fingerprintPolicy expected p

/-- The answer to a question if diagnostics stand against a policy. -/
def answerWithout (diagnostics : List Diagnostic) (q : Question) : CommandOutput :=
  { code := 1
    answer :=
      match q with
      | .check _ => line "FAIL: policy resolution failed"
      | _ => ""
    complaints := Diagnostic.listText diagnostics }

/-- The answer of `render`: malformed lines are complained about and kept. -/
def renderFiles (files : Files) (paths : List String) (canonical : Bool) :
    Except CommandError CommandOutput :=
  match Ruleset.ofFiles .permissive files paths with
  | .error e => .error (.rules e)
  | .ok r =>
    .ok {
      code := if r.malformed.isEmpty then 0 else 1
      answer := if canonical then r.canonical else r.render
      complaints := String.join (r.malformed.map fun m => line (m.diagnostic .error).text) }

/-- The answer to a command. -/
def run (files : Files) (o : CommandOptions) : Command → Except CommandError CommandOutput
  | render canonical => renderFiles files o.rules canonical
  | ask question => do
    match ← o.resolve files with
    | .ok policy => answerFor policy question
    | .error diagnostics => return answerWithout diagnostics question

end Command

end BindingRules
