import BindingRules.Command.Arguments

set_option autoImplicit false

/-!
# The command line

Reads the files that a command names, runs the command, and prints what it answers. The exit code
is that of the command, or two if there is no answer.
-/

namespace BindingRules.CommandLine

/-- The text of a file, or why there is none. -/
def readFile (path : String) : IO (Except FileError String) := do
  try
    let bytes ← IO.FS.readBinFile path
    match String.fromUTF8? bytes with
    | some text => return .ok text
    | none => return .error .notText
  catch
    | .noFileOrDirectory _ _ _ => return .error .notFound
    | e => return .error (.other (toString e))

/-- The texts of the files that a command names. -/
def readFiles (o : CommandOptions) : IO Files := do
  let texts ← (o.config.toList ++ o.inputs.toList ++ o.rules).mapM fun path => do
    return (path, ← readFile path)
  return fun path => (texts.lookup path).getD (.error .notFound)

/-- Runs a command and prints what it answers. -/
def run (c : Command) (o : CommandOptions) : IO UInt32 := do
  match c.run (← readFiles o) o with
  | .ok output =>
    IO.eprint output.complaints
    IO.print output.answer
    return UInt32.ofNat output.code
  | .error e =>
    IO.eprintln ("error: " ++ e.context ++ ": " ++ e.reason)
    return 2

end BindingRules.CommandLine

open BindingRules in
/-- Runs the command that the arguments state. -/
def main (args : List String) : IO UInt32 :=
  match (Arguments.read? args).bind Arguments.command? with
  | some (command, options) => CommandLine.run command options
  | none => do
    IO.eprint usage
    return 2
