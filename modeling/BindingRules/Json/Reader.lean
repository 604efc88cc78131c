import BindingRules.Json.Basic
import BindingRules.Text.Hexadecimal
import BindingRules.Text.Integer

set_option autoImplicit false

/-!
# Reading JSON

The reader accepts exactly one value with blanks around it. Containers may be nested 127 deep. A
number without fraction and exponent is an integer if it fits in 64 bits; the integer minus zero
and all other numbers are floating point numbers, and a number beyond the largest one is refused.

Of two members of an object with the same key the later one counts, and the members are put in the
order of their keys. Readers of structures look at the members as they are written instead.

## Main definitions

* `Json.readWritten?` — the value of a text, with the members of objects as they are written.
* `Json.read?` — the value of a text, with the members of objects by key.
-/

namespace BindingRules.Json

open Text

/-- Whether `c` may stand between the tokens of a document. -/
def isGap (c : Char) : Bool := c == ' ' || c == '\n' || c == '\t' || c == '\r'

/-- A text without its leading gap. -/
def skipGap (s : List Char) : List Char := s.dropWhile isGap

/-- The number that four hexadecimal digits denote. -/
def hexValue4? (a b c d : Char) : Option Nat := do
  let a ← hexValue? a
  let b ← hexValue? b
  let c ← hexValue? c
  let d ← hexValue? d
  return ((a * 16 + b) * 16 + c) * 16 + d

/-- The character for which a letter behind a backslash stands. -/
def escaped? : Char → Option Char
  | '"' => some '"'
  | '\\' => some '\\'
  | '/' => some '/'
  | 'b' => some '\x08'
  | 'f' => some '\x0C'
  | 'n' => some '\n'
  | 'r' => some '\r'
  | 't' => some '\t'
  | _ => none

/-- The characters of a text up to its closing quote, and what stands behind it. A character
beyond the first plane is escaped as a pair of surrogates, and a surrogate without its partner is
refused, as is a control character. -/
def readText : List Char → Option (List Char × List Char)
  | [] => none
  | '"' :: rest => some ([], rest)
  | '\\' :: 'u' :: a :: b :: c :: d :: '\\' :: 'u' :: a' :: b' :: c' :: d' :: rest => do
    let high ← hexValue4? a b c d
    if 0xD800 ≤ high && high < 0xDC00 then
      let low ← hexValue4? a' b' c' d'
      if 0xDC00 ≤ low && low < 0xE000 then
        let (text, rest) ← readText rest
        return (Char.ofNat (0x10000 + (high - 0xD800) * 0x400 + (low - 0xDC00)) :: text, rest)
      else none
    else if 0xDC00 ≤ high && high < 0xE000 then none
    else
      let (text, rest) ← readText ('\\' :: 'u' :: a' :: b' :: c' :: d' :: rest)
      return (Char.ofNat high :: text, rest)
  | '\\' :: 'u' :: a :: b :: c :: d :: rest => do
    let n ← hexValue4? a b c d
    if 0xD800 ≤ n && n < 0xE000 then none
    else
      let (text, rest) ← readText rest
      return (Char.ofNat n :: text, rest)
  | '\\' :: c :: rest => do
    let c ← escaped? c
    let (text, rest) ← readText rest
    return (c :: text, rest)
  | c :: rest => do
    if c.toNat < 0x20 then none
    else
      let (text, rest) ← readText rest
      return (c :: text, rest)

/-- The leading decimal digits of a text, and the rest. -/
def spanDigits (s : List Char) : List Char × List Char := s.span isDecimalDigit

/-- The exponent part of a number, with its sign. -/
def readExponent (s : List Char) : Option (Int × List Char) :=
  let (negative, s) :=
    match s with
    | '-' :: rest => (true, rest)
    | '+' :: rest => (false, rest)
    | _ => (false, s)
  let (digits, rest) := spanDigits s
  if digits.isEmpty then none
  else
    let n : Int := digitsValue digits
    some (if negative then -n else n, rest)

/-- The number `± whole.fraction · 10 ^ exponent`, each part given by its digits. -/
def numberOf? (negative : Bool) (whole fraction : List Char) (exponent : Int) : Option Json :=
  let digits := whole ++ fraction
  (Binary64.ofDecimal? negative (digitsValue digits) digits.length
    (exponent - fraction.length)).map .float

/-- The number of the digits `whole` and nothing else: an integer if it fits in 64 bits. -/
def integerOf? (negative : Bool) (whole : List Char) : Option Json :=
  let n : Int := digitsValue whole
  if negative then
    if n != 0 && fitsSigned64 (-n) then some (.int (-n)) else numberOf? true whole [] 0
  else if fitsUnsigned64 n then some (.int n)
  else numberOf? false whole [] 0

/-- A number behind its sign. A whole part of several digits does not start with a zero. -/
def readNumber (negative : Bool) (s : List Char) : Option (Json × List Char) := do
  let (whole, rest) := spanDigits s
  if whole.isEmpty || (whole.head? == some '0' && whole.length != 1) then none
  else
    let (fraction, rest, fractional) ←
      match rest with
      | '.' :: rest =>
        let (fraction, rest) := spanDigits rest
        if fraction.isEmpty then none else some (fraction, rest, true)
      | _ => some ([], rest, false)
    match rest with
    | 'e' :: rest | 'E' :: rest =>
      let (exponent, rest) ← readExponent rest
      return (← numberOf? negative whole fraction exponent, rest)
    | _ =>
      if fractional then return (← numberOf? negative whole fraction 0, rest)
      else return (← integerOf? negative whole, rest)

/-- The items of an array behind its opening bracket, at least one, each read by `one`. -/
def readItems (one : List Char → Option (Json × List Char)) :
    (bound : Nat) → List Char → Option (List Json × List Char)
  | 0, _ => none
  | bound + 1, s => do
    let (item, rest) ← one (skipGap s)
    match skipGap rest with
    | ',' :: rest =>
      let (items, rest) ← readItems one bound rest
      return (item :: items, rest)
    | ']' :: rest => return ([item], rest)
    | _ => none

/-- The members of an object behind its opening bracket, at least one, with values read by `one`,
as they are written. -/
def readMembers (one : List Char → Option (Json × List Char)) :
    (bound : Nat) → List Char → Option (List (String × Json) × List Char)
  | 0, _ => none
  | bound + 1, s => do
    match skipGap s with
    | '"' :: rest =>
      let (key, rest) ← readText rest
      match skipGap rest with
      | ':' :: rest =>
        let (value, rest) ← one (skipGap rest)
        match skipGap rest with
        | ',' :: rest =>
          let (members, rest) ← readMembers one bound rest
          return ((String.ofList key, value) :: members, rest)
        | '\x7d' :: rest => return ([(String.ofList key, value)], rest)
        | _ => none
      | _ => none
    | _ => none

/-- A value without a gap before it, in which containers are nested at most `depth` deep, and what
stands behind it. -/
def readValue : (depth : Nat) → List Char → Option (Json × List Char)
  | depth, s =>
    match s with
    | 'n' :: 'u' :: 'l' :: 'l' :: rest => some (.null, rest)
    | 't' :: 'r' :: 'u' :: 'e' :: rest => some (.bool true, rest)
    | 'f' :: 'a' :: 'l' :: 's' :: 'e' :: rest => some (.bool false, rest)
    | '"' :: rest => (readText rest).map fun (text, rest) => (.str (String.ofList text), rest)
    | '-' :: rest => readNumber true rest
    | '[' :: rest =>
      match depth with
      | 0 => none
      | depth + 1 =>
        match skipGap rest with
        | ']' :: rest => some (.arr [], rest)
        | rest =>
          (readItems (readValue depth) rest.length rest).map fun (items, rest) => (.arr items, rest)
    | '\x7b' :: rest =>
      match depth with
      | 0 => none
      | depth + 1 =>
        match skipGap rest with
        | '\x7d' :: rest => some (.obj [], rest)
        | rest =>
          (readMembers (readValue depth) rest.length rest).map fun (members, rest) =>
            (.obj members, rest)
    | _ => readNumber false s

/-- How deep the containers of a document may be nested. -/
def greatestDepth : Nat := 127

/-- The value that a text stands for, with the members of its objects as they are written. -/
def readWritten? (text : String) : Option Json :=
  match readValue greatestDepth (skipGap text.toList) with
  | some (value, rest) => if (skipGap rest).isEmpty then some value else none
  | none => none

/-- Inserts a member into members in the order of their keys, in place of one with its key. -/
def insertMember (key : String) (value : Json) : List (String × Json) → List (String × Json)
  | [] => [(key, value)]
  | (k, v) :: rest =>
    if key < k then (key, value) :: (k, v) :: rest
    else if key = k then (key, value) :: rest
    else (k, v) :: insertMember key value rest

mutual

/-- A value with the members of its objects in the order of their keys, each key once. -/
def settle : Json → Json
  | arr items => arr (settleItems items)
  | obj members => obj (settleMembers [] members)
  | value => value

/-- The items of an array, settled. -/
def settleItems : List Json → List Json
  | [] => []
  | item :: rest => settle item :: settleItems rest

/-- The members of an object, settled and added to `settled`. -/
def settleMembers (settled : List (String × Json)) : List (String × Json) → List (String × Json)
  | [] => settled
  | (key, value) :: rest => settleMembers (insertMember key (settle value) settled) rest

end

/-- The value that a text stands for. -/
def read? (text : String) : Option Json := (readWritten? text).map settle

end BindingRules.Json
