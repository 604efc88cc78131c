import BindingRules.Decimal.Binary64

set_option autoImplicit false

/-!
# The shortest decimal of a floating point number

A floating point number is written with the fewest decimal digits that read back as the same
number, and of those with the digits nearest to it, the greater ones at a tie. The digits are
written out in full, without an exponent.

## Main definitions

* `Binary64.shortest` — the digits, and the decimal place of the last one.
* `Binary64.text` — the number as text.
-/

namespace BindingRules.Binary64

/-- Whether `digits · 10 ^ place` reads back as the number `m · 2 ^ e`: it lies between the middles
to the two neighbours, the middles included if `m` is even. The middle below the least mantissa of
a binary place is nearer than the others. -/
def readsBack (m : Nat) (e : Int) (digits : Nat) (place : Int) : Bool :=
  let low := if m == 1 <<< 52 && decide (leastExponent < e) then 4 * m - 1 else 4 * m - 2
  let high := 4 * m + 2
  let (num, den) := shiftDecimal digits 1 place
  let (n, d) := shift num den (2 - e)
  if m % 2 == 0 then decide (low * d ≤ n) && decide (n ≤ high * d)
  else decide (low * d < n) && decide (n < high * d)

/-- The number `m · 2 ^ e` in units of `10 ^ place`, rounded down, and whether the next unit is at
least as near. -/
def units (m : Nat) (e : Int) (place : Int) : Nat × Bool :=
  let (num, den) := shiftDecimal m 1 (-place)
  let (n, d) := shift num den e
  (n / d, decide (d ≤ 2 * (n % d)))

/-- The place of the first decimal digit of a positive number. -/
def leadingPlace (m : Nat) (e : Int) : Int :=
  let guess : Int := ((m.log2 : Int) + e) * 1233 / 4096
  let upward : Bool := (units m e (guess + 1)).1 != 0
  let downward : Bool := (units m e guess).1 == 0
  if upward then guess + 1 else if downward then guess - 1 else guess

/-- The first of the decimal places from `place` down to `place - tries` on whose grid a
neighbour of the number reads back, with that neighbour; the nearer one if both do. -/
def shortestFrom (m : Nat) (e : Int) (place : Int) : (tries : Nat) → Nat × Int
  | 0 => ((units m e place).1, place)
  | tries + 1 =>
    let (below, upper) := units m e place
    let okBelow := readsBack m e below place
    let okAbove := readsBack m e (below + 1) place
    if okBelow && (!okAbove || !upper) then (below, place)
    else if okAbove then (below + 1, place)
    else shortestFrom m e (place - 1) tries

/-- The fewest digits that read back, and the decimal place of the last of them. -/
def shortest (x : Binary64) : Nat × Int :=
  shortestFrom x.mantissa x.exponent (leadingPlace x.mantissa x.exponent) 17

/-- Digits written out up to the decimal point or behind it. -/
def positional (digits : List Char) (place : Int) : List Char :=
  if 0 ≤ place then digits ++ List.replicate place.toNat '0'
  else
    let behind := (-place).toNat
    if behind < digits.length then
      digits.take (digits.length - behind) ++ '.' :: digits.drop (digits.length - behind)
    else ['0', '.'] ++ List.replicate (behind - digits.length) '0' ++ digits

/-- A digit row without the zeros at its end, which raise the place of the last digit instead. -/
def withoutZeros (digits : Nat) (place : Int) : (tries : Nat) → Nat × Int
  | 0 => (digits, place)
  | tries + 1 =>
    if digits % 10 == 0 then withoutZeros (digits / 10) (place + 1) tries else (digits, place)

/-- The number as text: the shortest digits that read back, in full, without a fraction if there
is none. -/
def text (x : Binary64) : String :=
  let magnitude :=
    if x.mantissa = 0 then ['0']
    else
      let (digits, place) := shortest x
      let (digits, place) := withoutZeros digits place 17
      positional (Nat.toDigits 10 digits) place
  String.ofList (if x.negative then '-' :: magnitude else magnitude)

end BindingRules.Binary64
