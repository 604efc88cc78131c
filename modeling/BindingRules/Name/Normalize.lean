import BindingRules.Name.Basic
import BindingRules.Text.Blank
import BindingRules.Text.Split
import BindingRules.Text.Wildcard

set_option autoImplicit false

/-!
# From text to names

A text becomes a name in three steps: its signature is cut off at the first parenthesis outside
template brackets, the rest is cut at the scope separators outside template brackets, and each
piece becomes a segment. Angle brackets and parentheses that belong to an operator, as in
`operator<` or `operator()`, are no brackets.

## Main definitions

* `Name.splitSignature`, `Name.splitScope` — the two cuts.
* `Segment.ofChars` — the segment that a piece stands for.
* `Name.normalize` — the name that a text stands for.
* `Name.moduleOf` — the module that owns a name, by the naming convention of the wrapped library.
* `Name.baseName` — the identifier of the last segment.
-/

namespace BindingRules

open Text

/-- The word with which an operator's segment begins. -/
def operatorWord : List Char := "operator".toList

/-- Of a text given last character first, the part behind its last scope separator, likewise last
character first. -/
def sinceScopeMark : List Char → List Char
  | ':' :: ':' :: _ => []
  | c :: rest => c :: sinceScopeMark rest
  | [] => []

/-- Whether the character behind `before`, which is given last character first, stands in the
segment of an operator. -/
def inOperator (before : List Char) : Bool :=
  operatorWord.isPrefixOf (trimStart (sinceScopeMark before).reverse)

/-- The segment that is a shell pattern if `s` has wildcards and that is exact otherwise. -/
def Segment.plain (s : List Char) : Segment :=
  if hasWildcard s then .glob (String.ofList s) else .exact (String.ofList s)

/-- The segment that the piece `piece` of a name stands for. -/
def Segment.ofChars (piece : List Char) : Segment :=
  let s := trim piece
  if operatorWord.isPrefixOf s then .exact (String.ofList s)
  else if s.contains '<' then
    let base := trim (before '<' s)
    if hasWildcard base then .glob (String.ofList (base ++ templateMark))
    else .template (String.ofList base)
  else .plain s

namespace Name

/-- `splitSignature` behind `before`, which is given last character first, and inside `depth`
template brackets. -/
def splitSignatureAfter (before : List Char) (depth : Int) :
    List Char → List Char × Option (List Char)
  | [] => (before.reverse, none)
  | c :: cs =>
    if c == '<' && !inOperator before then splitSignatureAfter (c :: before) (depth + 1) cs
    else if c == '>' && !inOperator before then splitSignatureAfter (c :: before) (depth - 1) cs
    else if c == '(' && decide (depth ≤ 0) then
      if operatorWord.isSuffixOf (trimEnd before.reverse) && [')'].isPrefixOf cs then
        splitSignatureAfter (c :: before) depth cs
      else (trimEnd before.reverse, some (c :: cs))
    else splitSignatureAfter (c :: before) depth cs

/-- A text cut at its first parenthesis outside template brackets, unless that one belongs to the
call operator: the name, and the signature if there is one. -/
def splitSignature (s : List Char) : List Char × Option (List Char) :=
  splitSignatureAfter [] 0 s

/-- `splitScope` behind `before` and the piece `piece` begun, both given last character first, and
inside `depth` template brackets. -/
def splitScopeAfter (before piece : List Char) (depth : Nat) :
    List Char → Option (List (List Char))
  | [] => if depth = 0 then some [piece.reverse] else none
  | ':' :: ':' :: cs =>
    if depth = 0 then (splitScopeAfter (':' :: ':' :: before) [] 0 cs).map (piece.reverse :: ·)
    else splitScopeAfter (':' :: before) (':' :: piece) depth (':' :: cs)
  | c :: cs =>
    if c == '<' && !inOperator before then
      splitScopeAfter (c :: before) (c :: piece) (depth + 1) cs
    else if c == '>' && !inOperator before then
      match depth with
      | 0 => none
      | d + 1 => splitScopeAfter (c :: before) (c :: piece) d cs
    else splitScopeAfter (c :: before) (c :: piece) depth cs

/-- A text cut at the scope separators outside template brackets, or nothing if the brackets do
not match. -/
def splitScope (s : List Char) : Option (List (List Char)) := splitScopeAfter [] [] 0 s

/-- A text without the blanks around it and without one leading scope separator. -/
def strip (s : List Char) : List Char :=
  let s := trim s
  trim ((scopeMark.isPrefixOf? s).getD s)

/-- The name that a text without blanks around it stands for. -/
def ofStripped (s : List Char) : Except NameError Name :=
  if s.isEmpty then .error .empty
  else if ['_'].isSuffixOf s then .ok (.literal (String.ofList s))
  else
    let (front, signature) := splitSignature s
    match splitScope front with
    | none => .error (.unbalancedTemplate (String.ofList s))
    | some pieces =>
      if pieces.any (·.all isBlank) then .error (.emptySegment (String.ofList s))
      else .ok (.path
        { segments := pieces.map Segment.ofChars
          signature := signature.map fun t => String.ofList (t.filter fun c => !isBlank c) })

/-- The name that a text stands for. -/
def normalize (raw : String) : Except NameError Name := ofStripped (strip raw.toList)

/-- The module that owns a symbol or header with the given name: the outermost segment up to its
first underscore, or else up to its first dot. -/
def moduleOf (name : String) : String :=
  let s := dropAll scopeMark (trim name.toList)
  let head := ((splitOnce? scopeMark s).map (·.1)).getD s
  let head := trim (before '<' head)
  String.ofList (if head.contains '_' then before '_' head else before '.' head)

/-- The module that owns a name. -/
def moduleName (n : Name) : String := moduleOf n.key

/-- The identifier of the last segment, or of what stands behind the last scope separator. -/
def baseName : Name → String
  | path n => (n.segments.getLast?.map Segment.base).getD ""
  | literal text =>
    match splitOnceLast? scopeMark text.toList with
    | some (_, last) => String.ofList last
    | none => text

end Name

end BindingRules
