set_option autoImplicit false

/-!
# Hexadecimal digits

## Main definitions

* `Text.hexDigit` — the digit of a number below sixteen, in small letters.
* `Text.hexValue?` — the number that a digit denotes, in large or small letters.
-/

namespace BindingRules.Text

/-- The hexadecimal digit, in small letters, of a number below sixteen. -/
def hexDigit (n : Nat) : Char := Nat.digitChar n

/-- The value of a hexadecimal digit. -/
def hexValue? (c : Char) : Option Nat :=
  if '0' ≤ c && c ≤ '9' then some (c.toNat - '0'.toNat)
  else if 'a' ≤ c && c ≤ 'f' then some (c.toNat - 'a'.toNat + 10)
  else if 'A' ≤ c && c ≤ 'F' then some (c.toNat - 'A'.toNat + 10)
  else none

end BindingRules.Text
