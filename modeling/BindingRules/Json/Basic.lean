import BindingRules.Decimal.Binary64

set_option autoImplicit false

/-!
# JSON values

Generation inputs may be given as JSON, and reports and fingerprints are written as JSON. Numbers
are kept as integers where they are written as integers of 64 bits; every other number is a
floating point number.

## Main definitions

* `Json` — JSON values; an object is the list of its members.
* `Json.get?` — the value of an object's member.
-/

namespace BindingRules

/-- A JSON value. -/
inductive Json where
  /-- The value `null`. -/
  | null
  /-- One of the two truth values. -/
  | bool (value : Bool)
  /-- An integer. -/
  | int (value : Int)
  /-- A number written with a fraction or an exponent, or too large for an integer. -/
  | float (value : Binary64)
  /-- A text. -/
  | str (value : String)
  /-- An array. -/
  | arr (items : List Json)
  /-- An object, as the list of its members. -/
  | obj (members : List (String × Json))
  deriving Inhabited

namespace Json

/-- A list of texts as a value. -/
def strings (items : List String) : Json := .arr (items.map .str)

/-- A text or `null`. -/
def ofText? (text : Option String) : Json := text.elim .null .str

/-- The member `key` of an object. -/
def get? (v : Json) (key : String) : Option Json :=
  match v with
  | obj members => members.lookup key
  | _ => none

end Json

end BindingRules
