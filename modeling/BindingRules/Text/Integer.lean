set_option autoImplicit false

/-!
# Integers in rule lines

Priorities are signed integers of 64 bits, written in decimal with an optional sign.

## Main definitions

* `Text.readInt?` — the integer a text denotes.
* `Text.fitsSigned64`, `Text.fitsUnsigned64` — the ranges of the two machine integers.
* `Text.readSigned64?` — the integer a text denotes, if it fits in 64 bits.
-/

namespace BindingRules.Text

/-- Whether `c` is one of the ten digits `0` to `9`. -/
def isDecimalDigit (c : Char) : Bool := '0'.toNat ≤ c.toNat && c.toNat ≤ '9'.toNat

/-- The number that a row of decimal digits denotes, the most significant first. -/
def digitsValue (ds : List Char) : Nat :=
  ds.foldl (fun n d => 10 * n + (d.toNat - '0'.toNat)) 0

/-- The number denoted by a row of at least one decimal digit and nothing else. -/
def readNat? (s : List Char) : Option Nat :=
  if !s.isEmpty && s.all isDecimalDigit then some (digitsValue s) else none

/-- The integer denoted by decimal digits with at most one sign in front. -/
def readInt? : List Char → Option Int
  | '+' :: ds => (readNat? ds).map Int.ofNat
  | '-' :: ds => (readNat? ds).map fun n => -Int.ofNat n
  | ds => (readNat? ds).map Int.ofNat

/-- Whether `n` is a signed integer of 64 bits. -/
def fitsSigned64 (n : Int) : Bool := -9223372036854775808 ≤ n && n ≤ 9223372036854775807

/-- Whether `n` is an unsigned integer of 64 bits. -/
def fitsUnsigned64 (n : Int) : Bool := 0 ≤ n && n ≤ 18446744073709551615

/-- The signed integer of 64 bits that a text denotes. -/
def readSigned64? (s : List Char) : Option Int :=
  (readInt? s).filter fitsSigned64

end BindingRules.Text
