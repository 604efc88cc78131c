import BindingRules.Json.Basic

set_option autoImplicit false

/-!
# Data of documents

Inputs may come in two formats. Whatever the format, a document holds data of a few shapes, and a
structure is read from them in one way: from a record by the names of its fields or their numbers,
or from a list by their places.

## Main definitions

* `Datum` — what a document holds.
* `Datum.ofJson` — the data of a JSON value.
* `Datum.text?`, `Datum.list?`, `Datum.optional?`, `Datum.choice?`, `Datum.fields?` — how data are
  read.
-/

namespace BindingRules

/-- What a document holds. -/
inductive Datum where
  /-- Nothing. -/
  | null
  /-- A truth value. -/
  | truth (value : Bool)
  /-- A number, with its value if it is an integer. -/
  | number (value : Option Int)
  /-- A text. -/
  | text (value : String)
  /-- Data in a row. -/
  | list (items : List Datum)
  /-- Data by keys. -/
  | record (entries : List (Datum × Datum))
  deriving Inhabited

namespace Datum

mutual

/-- The data of a JSON value. -/
def ofJson : Json → Datum
  | .null => null
  | .bool value => truth value
  | .int value => number (some value)
  | .float _ => number none
  | .str value => text value
  | .arr items => list (ofItems items)
  | .obj members => record (ofMembers members)

/-- The data of the items of an array. -/
def ofItems : List Json → List Datum
  | [] => []
  | item :: rest => ofJson item :: ofItems rest

/-- The data of the members of an object. -/
def ofMembers : List (String × Json) → List (Datum × Datum)
  | [] => []
  | (key, value) :: rest => (text key, ofJson value) :: ofMembers rest

end

/-- The text that a datum is. -/
def text? : Datum → Option String
  | text value => some value
  | _ => none

/-- The truth value that a datum is. -/
def truth? : Datum → Option Bool
  | truth value => some value
  | _ => none

/-- The integer that a datum is, if it lies in the given range. -/
def integer? (fits : Int → Bool) : Datum → Option Int
  | number (some value) => if fits value then some value else none
  | _ => none

/-- The items of a list, each read by `one`. -/
def list? {α : Type} (one : Datum → Option α) : Datum → Option (List α)
  | list items => items.mapM one
  | _ => none

/-- A datum read by `one`, or nothing if it is null or missing. -/
def optional? {α : Type} (one : Datum → Option α) : Option Datum → Option (Option α)
  | none | some null => some none
  | some d => (one d).map some

/-- A datum read by `one`, or `default` if it is missing. -/
def withDefault? {α : Type} (default : α) (one : Datum → Option α) : Option Datum → Option α
  | none => some default
  | some d => one d

/-- The word for one of several choices: a text, or a record that gives null under that text
alone. -/
def choice? : Datum → Option String
  | text word => some word
  | record [(text word, null)] => some word
  | _ => none

/-- The place of the field that a key stands for, among fields with the given names: the field of
that name, or the field with that number. Keys of other fields stand for places behind the last. -/
def place? (names : List String) : Datum → Option Nat
  | text name => some (names.idxOf name)
  | number (some (.ofNat place)) => some place
  | _ => none

/-- The fields of a structure with the given field names. No field may be given twice, and other
fields are not looked at. -/
def fields? (names : List String) : Datum → Option (List (Option Datum))
  | record entries => do
    let placed ← entries.mapM fun (key, value) => (key.place? names).map (·, value)
    names.zipIdx.mapM fun (_, place) =>
      match placed.filter (·.1 == place) with
      | [] => some none
      | [(_, value)] => some (some value)
      | _ => none
  | list items =>
    if items.length ≤ names.length then
      some (items.map some ++ List.replicate (names.length - items.length) none)
    else none
  | _ => none

end Datum

end BindingRules
