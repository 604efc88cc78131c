import BindingRules.Datum
import BindingRules.Decimal.Binary64
import BindingRules.Text.Hexadecimal
import BindingRules.Text.Integer
import BindingRules.Yaml.Basic

set_option autoImplicit false

/-!
# What the nodes of a YAML document mean

A plain scalar may be null, a truth value, an integer or a floating point number; any other one is
a text. A tag names the type of a scalar instead.

## Main definitions

* `Yaml.isNull`, `Yaml.truth?`, `Yaml.integer?`, `Yaml.isFloat` — the spellings of the types.
* `Yaml.plainDatum?`, `Yaml.taggedDatum?` — the data that scalars mean.
* `Yaml.datum?` — the data that a node means.
-/

namespace BindingRules.Yaml

open Text

/-- Whether a text is a spelling of null. -/
def isNull (s : String) : Bool := ["null", "Null", "NULL", "~"].contains s

/-- The truth value of which a text is a spelling. -/
def truth? (s : String) : Option Bool :=
  if ["true", "True", "TRUE"].contains s then some true
  else if ["false", "False", "FALSE"].contains s then some false
  else none

/-- The number that a row of at least one digit denotes in a base. -/
def digits? (base : Nat) (s : List Char) : Option Nat := do
  let values ← s.mapM hexValue?
  if !values.isEmpty && values.all (· < base) then
    return values.foldl (fun n d => base * n + d) 0
  else none

/-- The number without a sign that a text denotes. A row of decimal digits does not start with a
zero, unless it is the only one. -/
def natural? : List Char → Option Nat
  | '0' :: 'x' :: ds => digits? 16 ds
  | '0' :: 'o' :: ds => digits? 8 ds
  | '0' :: 'b' :: ds => digits? 2 ds
  | ['0'] => some 0
  | '0' :: _ => none
  | ds => digits? 10 ds

/-- The integer that a text denotes. -/
def integer? : List Char → Option Int
  | '+' :: s => (natural? s).map Int.ofNat
  | '-' :: s => (natural? s).map fun n => -Int.ofNat n
  | s => (natural? s).map Int.ofNat

/-- Whether a text is a row of decimal digits with a sign or without, of which the first one is a
zero that is not the only one. -/
def hasIdleZero (s : List Char) : Bool :=
  let ds :=
    match s with
    | '+' :: ds | '-' :: ds => ds
    | ds => ds
  1 < ds.length && ds.head? == some '0' && ds.all isDecimalDigit

/-- Whether a text without a sign is a decimal with or without an exponent, at least one digit in
front of that, and not beyond the greatest floating point number. -/
def isDecimal (s : List Char) : Bool :=
  let whole := s.takeWhile isDecimalDigit
  let rest := s.dropWhile isDecimalDigit
  let fraction := if rest.head? == some '.' then (rest.drop 1).takeWhile isDecimalDigit else []
  let rest := if rest.head? == some '.' then rest.drop (1 + fraction.length) else rest
  let exponent? :=
    match rest with
    | [] => some 0
    | e :: power => if e == 'e' || e == 'E' then readInt? power else none
  let row := whole ++ fraction
  match exponent? with
  | some exponent =>
    !row.isEmpty &&
      (Binary64.ofDecimal? false (digitsValue row) row.length
        (exponent - fraction.length)).isSome
  | none => false

/-- Whether a text is a spelling of a floating point number. -/
def isFloat (s : String) : Bool :=
  let infinities := [".inf", ".Inf", ".INF"]
  infinities.contains s || infinities.any (fun i => s == "+" ++ i || s == "-" ++ i) ||
    [".nan", ".NaN", ".NAN"].contains s ||
    match s.toList with
    | '+' :: s | '-' :: s => isDecimal s
    | s => isDecimal s

/-- Whether `n` fits in 128 bits, with or without a sign. -/
def fits128 (n : Int) : Bool := -(1 <<< 127) ≤ n && n < 1 <<< 128

/-- The number that a text denotes as a datum. Integers of up to 64 bits have a value; those of up
to 128 bits are refused, which the outer answer says. -/
def numberDatum? (s : String) : Option (Option Datum) :=
  let asFloat := if !hasIdleZero s.toList && isFloat s then some (.number none) else none
  match integer? s.toList with
  | some n =>
    if fitsSigned64 n || fitsUnsigned64 n then some (some (.number (some n)))
    else if fits128 n then none
    else some asFloat
  | none => some asFloat

/-- What a plain scalar means. -/
def plainDatum? (s : String) : Option Datum :=
  if s.isEmpty || isNull s then some .null
  else
    match truth? s with
    | some b => some (.truth b)
    | none => (numberDatum? s).map (·.getD (.text s))

/-- The tag of a type of the format. -/
def coreTag (name : String) : String := "tag:yaml.org,2002:" ++ name

/-- What a scalar with a tag means. A document's own tags mean nothing. -/
def taggedDatum? (tag s : String) : Option Datum :=
  if isLocalTag tag then none
  else if tag == coreTag "null" then if isNull s then some .null else none
  else if tag == coreTag "bool" then (truth? s).map .truth
  else if tag == coreTag "int" then
    match integer? s.toList with
    | some n =>
      if fitsSigned64 n || fitsUnsigned64 n then some (.number (some n)) else none
    | none => none
  else if tag == coreTag "float" then if isFloat s then some (.number none) else none
  else some (.text s)

/-- Whether the tag of a collection is admitted: any but a document's own. -/
def admitsTag (tag : Option String) : Bool := !(tag.map isLocalTag).getD false

/-- What a node means in which collections are nested at most `depth` deep. -/
def datum? : (depth : Nat) → Yaml → Option Datum
  | _, scalar (some tag) s _ => taggedDatum? tag s
  | _, scalar none s plain => if plain then plainDatum? s else some (.text s)
  | 0, _ => none
  | depth + 1, sequence tag items =>
    if admitsTag tag then (items.mapM (datum? depth)).map .list else none
  | depth + 1, mapping tag entries =>
    if admitsTag tag then
      (entries.mapM fun (key, value) => do
        return (← datum? depth key, ← datum? depth value)).map .record
    else none

/-- How deep the collections of a document may be nested. -/
def greatestDepth : Nat := 128

end BindingRules.Yaml
