set_option autoImplicit false

/-!
# Binary floating point numbers of 64 bits

The finite numbers of the format are `± m · 2 ^ e` with `m < 2 ^ 53` and `-1074 ≤ e ≤ 971`. All
arithmetic here is exact arithmetic of natural numbers.

## Main definitions

* `Binary64` — a finite number, as sign, mantissa and exponent.
* `Binary64.ofDecimal?` — the number nearest to a decimal, if it is not too large.
-/

namespace BindingRules

/-- The finite number `± mantissa · 2 ^ exponent`. -/
structure Binary64 where
  /-- Whether the number has a minus sign; zero may have one. -/
  negative : Bool
  /-- The mantissa, below `2 ^ 53`. -/
  mantissa : Nat
  /-- The exponent of the last binary place. -/
  exponent : Int
  deriving DecidableEq, Repr

namespace Binary64

/-- The exponent of the last binary place of the smallest numbers. -/
def leastExponent : Int := -1074

/-- The exponent of the last binary place of the largest numbers. -/
def greatestExponent : Int := 971

/-- The natural number nearest to `num / den`, the even one of two that are equally near. -/
def nearestEven (num den : Nat) : Nat :=
  let q := num / den
  let r := num % den
  if 2 * r < den || (2 * r == den && q % 2 == 0) then q else q + 1

/-- The fraction `num / den` times `2 ^ k`, as a numerator and a denominator. -/
def shift (num den : Nat) (k : Int) : Nat × Nat :=
  (num <<< k.toNat, den <<< (-k).toNat)

/-- The fraction `num / den` times `10 ^ k`, as a numerator and a denominator. -/
def shiftDecimal (num den : Nat) (k : Int) : Nat × Nat :=
  (num * Nat.pow 10 k.toNat, den * Nat.pow 10 (-k).toNat)

/-- The greatest `k` with `2 ^ k ≤ num / den`, for a positive fraction. -/
def floorLog2 (num den : Nat) : Int :=
  let k : Int := (num.log2 : Int) - (den.log2 : Int)
  let (n, d) := shift num den (-k)
  if n < d then k - 1 else k

/-- The number nearest to the fraction `num / den`, unless it lies beyond the greatest one. -/
def ofFraction? (negative : Bool) (num den : Nat) : Option Binary64 :=
  if num = 0 then some ⟨negative, 0, leastExponent⟩
  else
    let e := max (floorLog2 num den - 52) leastExponent
    let (n, d) := shift num den (-e)
    let m := nearestEven n d
    let (m, e) := if m = 1 <<< 53 then (1 <<< 52, e + 1) else (m, e)
    if e ≤ greatestExponent then some ⟨negative, m, e⟩ else none

/-- The number nearest to `± digits · 10 ^ exponent`, where `digits` is written with `width`
decimal digits. Decimals far beyond the range of the format are settled by the exponent alone. -/
def ofDecimal? (negative : Bool) (digits width : Nat) (exponent : Int) : Option Binary64 :=
  if digits = 0 || exponent + width < -400 then some ⟨negative, 0, leastExponent⟩
  else if exponent > 400 then none
  else
    let (n, d) := shiftDecimal digits 1 exponent
    ofFraction? negative n d

end Binary64

end BindingRules
