import BindingRules.Json.Basic
import BindingRules.Decimal.Shortest
import BindingRules.Text.Hexadecimal

set_option autoImplicit false

/-!
# Writing JSON

Values are written on one line without blanks, or over several lines for readers. The canonical
form is the one-line form in which the members of every object are sorted by their keys as they
are written, quotes and escapes included. It is the same for all orders of members, and refuses
floating point numbers.

## Main definitions

* `Json.compact`, `Json.pretty` — a value on one line, and over several lines.
* `Json.canonical` — the canonical form of a value.
-/

namespace BindingRules.Json

open Text

/-- How a character stands inside a quoted text. -/
def escapeChar (c : Char) : List Char :=
  if c = '"' then ['\\', '"']
  else if c = '\\' then ['\\', '\\']
  else if c = '\x08' then ['\\', 'b']
  else if c = '\x0C' then ['\\', 'f']
  else if c = '\n' then ['\\', 'n']
  else if c = '\r' then ['\\', 'r']
  else if c = '\t' then ['\\', 't']
  else if c.toNat < 0x20 then
    ['\\', 'u', '0', '0', hexDigit (c.toNat / 16), hexDigit (c.toNat % 16)]
  else [c]

/-- A text between quotes. -/
def quote (s : String) : List Char := ['"'] ++ s.toList.flatMap escapeChar ++ ['"']

/-- Texts with `sep` between them. -/
def separated (sep : List Char) : List (List Char) → List Char
  | [] => []
  | [s] => s
  | s :: rest => s ++ sep ++ separated sep rest

mutual

/-- The characters of a value on one line. -/
def compactChars : Json → List Char
  | null => "null".toList
  | bool true => "true".toList
  | bool false => "false".toList
  | int n => (toString n).toList
  | float x => x.text.toList
  | str s => quote s
  | arr items => ['['] ++ separated [','] (compactItems items) ++ [']']
  | obj members => ['\x7b'] ++ separated [','] (compactMembers members) ++ ['\x7d']

/-- The characters of the items of an array. -/
def compactItems : List Json → List (List Char)
  | [] => []
  | item :: rest => compactChars item :: compactItems rest

/-- The characters of the members of an object. -/
def compactMembers : List (String × Json) → List (List Char)
  | [] => []
  | (key, value) :: rest => (quote key ++ [':'] ++ compactChars value) :: compactMembers rest

end

/-- A value on one line without blanks. -/
def compact (v : Json) : String := String.ofList v.compactChars

/-- The items of a container, one on each line, inside `depth` containers. -/
def block (depth : Nat) (opening closing : Char) : List (List Char) → List Char
  | [] => [opening, closing]
  | items =>
    let inner := '\n' :: List.replicate (2 * (depth + 1)) ' '
    [opening] ++ inner ++ separated (',' :: inner) items ++
      '\n' :: List.replicate (2 * depth) ' ' ++ [closing]

mutual

/-- The characters of a value inside `depth` containers, over several lines. -/
def prettyChars (depth : Nat) : Json → List Char
  | arr items => block depth '[' ']' (prettyItems (depth + 1) items)
  | obj members => block depth '\x7b' '\x7d' (prettyMembers (depth + 1) members)
  | v => compactChars v

/-- The characters of the items of an array, over several lines. -/
def prettyItems (depth : Nat) : List Json → List (List Char)
  | [] => []
  | item :: rest => prettyChars depth item :: prettyItems depth rest

/-- The characters of the members of an object, over several lines. -/
def prettyMembers (depth : Nat) : List (String × Json) → List (List Char)
  | [] => []
  | (key, value) :: rest =>
    (quote key ++ [':', ' '] ++ prettyChars depth value) :: prettyMembers depth rest

end

/-- A value over several lines, with two blanks for each container around it. -/
def pretty (v : Json) : String := String.ofList (prettyChars 0 v)

mutual

/-- The first floating point number in a value, from left to right. -/
def firstFloat? : Json → Option Binary64
  | float x => some x
  | arr items => firstFloatOfItems? items
  | obj members => firstFloatOfMembers? members
  | _ => none

/-- The first floating point number in the items of an array. -/
def firstFloatOfItems? : List Json → Option Binary64
  | [] => none
  | item :: rest => (firstFloat? item).or (firstFloatOfItems? rest)

/-- The first floating point number in the members of an object. -/
def firstFloatOfMembers? : List (String × Json) → Option Binary64
  | [] => none
  | (_, value) :: rest => (firstFloat? value).or (firstFloatOfMembers? rest)

end

/-- The members of an object sorted by their written keys. -/
def sortMembers (members : List (String × Json)) : List (String × Json) :=
  members.mergeSort fun a b => !decide (quote b.1 < quote a.1)

mutual

/-- A value in which the members of every object are sorted by their written keys. -/
def sorted : Json → Json
  | arr items => arr (sortedItems items)
  | obj members => obj (sortMembers (sortedValues members))
  | v => v

/-- The items of an array with sorted objects. -/
def sortedItems : List Json → List Json
  | [] => []
  | item :: rest => sorted item :: sortedItems rest

/-- The members of an object with sorted objects as values. -/
def sortedValues : List (String × Json) → List (String × Json)
  | [] => []
  | (key, value) :: rest => (key, sorted value) :: sortedValues rest

end

/-- A floating point number where none may stand. -/
structure FloatRejected where
  /-- The first floating point number of the value. -/
  value : Binary64

/-- The wording of the refusal. -/
def FloatRejected.message (e : FloatRejected) : String :=
  "float values are not permitted in canonical representations: " ++ e.value.text

/-- The canonical form of a value that has no floating point number. -/
def canonicalText (v : Json) : String := compact (sorted v)

/-- The canonical form of a value, unless it has a floating point number. -/
def canonical (v : Json) : Except FloatRejected String :=
  match firstFloat? v with
  | some x => .error ⟨x⟩
  | none => .ok v.canonicalText

end BindingRules.Json
