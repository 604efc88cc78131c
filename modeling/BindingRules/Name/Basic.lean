import BindingRules.Text.Quoted

set_option autoImplicit false

/-!
# Qualified names

A rule addresses symbols of a wrapped library by their scoped names, such as
`NCollection_Map<*>::Add` or `gp_Pnt::SetCoord(double)`. A name is a path of segments with an
optional signature; a name that ends in an underscore is taken literally, since rules use it for
entries that no symbol table spells out.

## Main definitions

* `Segment`, `ScopePath`, `Name` — names in normal form.
* `Name.key` — the text of a name, under which it is indexed.
* `Name.isPattern` — whether a name has a wildcard segment, which no index can look up.
* `Name.withoutSignature`, `Name.staticVariant` — the names under which a symbol is also known.
* `Name.lookupKeys` — the keys of the rules without wildcards that cover a name.
* `NameError` — why a text is no name.
-/

namespace BindingRules

/-- The scope separator `::`. -/
def scopeMark : List Char := [':', ':']

/-- What is shown in place of template arguments. -/
def templateMark : List Char := ['<', '*', '>']

/-- One component of a scoped name. -/
inductive Segment where
  /-- A plain identifier, or an operator. -/
  | exact (text : String)
  /-- A template of which only the base name counts, whatever its arguments are. -/
  | template (base : String)
  /-- A shell pattern. -/
  | glob (pattern : String)
  deriving DecidableEq, Repr

namespace Segment

/-- The characters of a segment as it is shown. -/
def chars : Segment → List Char
  | exact text => text.toList
  | template base => base.toList ++ templateMark
  | glob pattern => pattern.toList

/-- A segment as it is shown. -/
def text (s : Segment) : String := String.ofList s.chars

/-- The identifier of a segment, without the mark for template arguments. -/
def base : Segment → String
  | exact text => text
  | template base => base
  | glob pattern =>
    if templateMark.isSuffixOf pattern.toList then
      String.ofList (pattern.toList.dropLast.dropLast.dropLast)
    else pattern

/-- Whether the segment is a shell pattern. -/
def isGlob : Segment → Bool
  | glob _ => true
  | _ => false

end Segment

/-- A path of segments, outermost first, with an optional signature. -/
structure ScopePath where
  /-- The segments, outermost first. -/
  segments : List Segment
  /-- The parameter list with its parentheses and without blanks. -/
  signature : Option String := none
  deriving DecidableEq, Repr

/-- A qualified name in normal form. -/
inductive Name where
  /-- A scope path with an optional signature. -/
  | path (name : ScopePath)
  /-- A text that stands for itself alone: a name that ends in an underscore. -/
  | literal (text : String)
  deriving DecidableEq, Repr

/-- Texts joined by the scope separator. -/
def joinScope : List (List Char) → List Char
  | [] => []
  | [s] => s
  | s :: rest => s ++ scopeMark ++ joinScope rest

namespace Name

/-- The characters of a name's key. -/
def keyChars : Name → List Char
  | literal text => text.toList
  | path n => joinScope (n.segments.map Segment.chars) ++ (n.signature.elim [] String.toList)

/-- The text of a name, under which it is indexed. -/
def key (n : Name) : String := String.ofList n.keyChars

/-- Whether some segment of the name is a shell pattern. -/
def isPattern : Name → Bool
  | path n => n.segments.any Segment.isGlob
  | literal _ => false

/-- The name without its signature, if it has one. -/
def withoutSignature : Name → Option Name
  | path ⟨segments, some _⟩ => some (path ⟨segments, none⟩)
  | _ => none

/-- The keys under which rules without wildcards can cover the name: its own key, and the key
without the signature. -/
def lookupKeys (n : Name) : List String :=
  n.key :: (n.withoutSignature.map key).toList

/-- The literal name under which rules address a static method: the name without its signature,
followed by an underscore. -/
def staticVariant (n : Name) : Name :=
  literal (String.ofList ((n.withoutSignature.getD n).keyChars ++ ['_']))

end Name

/-- Why a text is no name. -/
inductive NameError where
  /-- There is nothing but blanks and a scope separator. -/
  | empty
  /-- Template brackets of the given text do not match. -/
  | unbalancedTemplate (text : String)
  /-- Two scope separators of the given text have nothing between them. -/
  | emptySegment (text : String)
  deriving DecidableEq, Repr

/-- The wording of a name error. -/
def NameError.message : NameError → String
  | empty => "empty qualified name"
  | unbalancedTemplate text => "unbalanced template brackets in " ++ Text.quoted text
  | emptySegment text => "empty scope segment in " ++ Text.quoted text

end BindingRules
