import BindingRules.Text.Unprintable

set_option autoImplicit false

/-!
# Quoted text

Messages show the text they complain about between double quotes, so that a reader sees exactly
which characters it holds.

## Main definitions

* `Text.quoted` — a string between double quotes, with escapes for quotes, backslashes, controls
  and every character that is not shown as it is.
-/

namespace BindingRules.Text

/-- How one character stands between the quotes. -/
def escape (c : Char) : List Char :=
  if c = '"' then ['\\', '"']
  else if c = '\\' then ['\\', '\\']
  else if c = '\t' then ['\\', 't']
  else if c = '\r' then ['\\', 'r']
  else if c = '\n' then ['\\', 'n']
  else if c = '\x00' then ['\\', '0']
  else if isUnprintable c then
    ['\\', 'u', '\x7b'] ++ Nat.toDigits 16 c.toNat ++ ['\x7d']
  else [c]

/-- The string `s` between double quotes. -/
def quoted (s : String) : String :=
  String.ofList (['"'] ++ s.toList.flatMap escape ++ ['"'])

end BindingRules.Text
