import BindingRules.Command.Basic

set_option autoImplicit false

/-!
# Arguments of the command line

A command line names a command and its rule files, with options in between.

## Main definitions

* `Arguments`, `Arguments.read?` — the words and options of a command line.
* `Arguments.command?` — the command that they state.
* `usage` — how a command line is written.
-/

namespace BindingRules

/-- The words and options of a command line. -/
structure Arguments where
  /-- The words that are no options, the last one first. -/
  words : List String := []
  /-- The files and settings that options state. -/
  options : CommandOptions := { rules := [] }
  /-- Whether all notes are asked for. -/
  all : Bool := false
  /-- Whether JSON is asked for. -/
  json : Bool := false
  /-- Whether the lines of directives are asked for. -/
  canonical : Bool := false
  /-- The name to explain. -/
  name : Option String := none
  /-- The expected fingerprint. -/
  expected : Option String := none

namespace Arguments

/-- A long option with its value behind an equality sign, as two words. -/
def splitOption (word : String) : List String :=
  if word.startsWith "--" then
    match Text.splitOnce? ['='] word.toList with
    | some (option, value) => [String.ofList option, String.ofList value]
    | none => [word]
  else [word]

/-- An option without a value. -/
def flag? (a : Arguments) : String → Option Arguments
  | "--strict" => some { a with options.strict := true }
  | "--all" => some { a with all := true }
  | "--json" => some { a with json := true }
  | "--canonical" => some { a with canonical := true }
  | _ => none

/-- An option with its value. -/
def setting? (a : Arguments) (value : String) : String → Option Arguments
  | "--config" => some { a with options.config := some value }
  | "--inputs" => some { a with options.inputs := some value }
  | "--platform" => some { a with options.platform := some value }
  | "--name" => some { a with name := some value }
  | "--check" => some { a with expected := some value }
  | _ => none

/-- Adds the given words and options. -/
def readFrom? : Arguments → List String → Option Arguments
  | a, [] => some a
  | a, word :: rest =>
    if word.startsWith "-" then
      match a.flag? word with
      | some a => readFrom? a rest
      | none =>
        match rest with
        | [] => none
        | value :: rest => (a.setting? value word).bind fun a => readFrom? a rest
    else readFrom? { a with words := word :: a.words } rest

/-- The words and options of a command line. -/
def read? (args : List String) : Option Arguments :=
  readFrom? {} (args.flatMap splitOption)

/-- The command with the given word. -/
def commandOf? (a : Arguments) : String → Option Command
  | "check" => some (.ask (.check a.all))
  | "order" => some (.ask (.order a.json))
  | "explain" => a.name.map fun name => .ask (.explain name a.json)
  | "fingerprint" => some (.ask (.fingerprint a.expected))
  | "render" => some (.render a.canonical)
  | _ => none

/-- The command of a command line, with its files. At least one rule file is named. -/
def command? (a : Arguments) : Option (Command × CommandOptions) :=
  match a.words.reverse with
  | word :: rules =>
    if rules.isEmpty then none
    else (a.commandOf? word).map fun c => (c, { a.options with rules })
  | [] => none

end Arguments

/-- How a command line is written. -/
def usage : String :=
  String.join ([
    "usage: binding-rules [--config FILE] COMMAND RULES... [OPTIONS]",
    "  check        report diagnostics [--all]",
    "  order        print the module generation order [--json]",
    "  explain      show the directives bearing on a name --name QNAME [--json]",
    "  fingerprint  print or verify the fingerprint [--check DIGEST]",
    "  render       print the rule files [--canonical]",
    "options: --inputs FILE, --strict, --platform NAME"].map (· ++ "\n"))

end BindingRules
