import BindingRules.Name.Normalize

set_option autoImplicit false

/-!
# Which names a rule covers

A rule is written against a name, and covers every symbol whose name fits: segment by segment, by
base name for templates and by shell pattern for wildcards. A rule without a signature covers all
overloads, and one with a signature only that overload.

## Main definitions

* `Segment.covers`, `Name.covers` — whether the name of a rule covers the name of a symbol.
-/

namespace BindingRules

/-- Whether the segment `rule` covers the segment `candidate`. -/
def Segment.covers (rule candidate : Segment) : Bool :=
  match rule with
  | .glob pattern => Text.wildcardMatch pattern.toList candidate.chars
  | _ => rule == candidate

/-- Whether two paths have the same length and each segment of the first covers the one at the
same place of the second. -/
def Segment.coversAll : (rules candidates : List Segment) → Bool
  | [], [] => true
  | r :: rs, c :: cs => r.covers c && coversAll rs cs
  | _, _ => false

/-- Whether a rule with the name `rule` covers the name `candidate`. -/
def Name.covers (rule candidate : Name) : Bool :=
  match rule, candidate with
  | .literal text, c => text == c.key
  | .path r, .path c =>
    (r.signature.isNone || r.signature == c.signature) && Segment.coversAll r.segments c.segments
  | .path _, .literal _ => false

end BindingRules
