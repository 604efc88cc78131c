set_option autoImplicit false

/-!
# Places in a YAML text

Indentation carries meaning, so a reader knows at every moment in which line and column it stands,
and whether the construction of a block may begin there.

## Main definitions

* `Yaml.Place`, `Yaml.Place.after` — a place, and the place behind a character.
* `Yaml.Cursor` — a place with what stands behind it.
* `Yaml.Cursor.skipGap` — the next place where something but spaces, comments and line ends stands.
* `Yaml.Cursor.atMarker`, `Yaml.Cursor.startsItem`, `Yaml.Cursor.startsKey`,
  `Yaml.Cursor.startsValue` — the signs that structure a document.
-/

namespace BindingRules.Yaml

/-- Whether a line ends with `c`. -/
def isBreak (c : Char) : Bool := c == '\n' || c == '\u2028' || c == '\u2029'

/-- Whether `c` separates words within a line. -/
def isSpace (c : Char) : Bool := c == ' ' || c == '\t'

/-- Whether a word ends before the given text. -/
def endsWord : List Char → Bool
  | [] => true
  | c :: _ => isSpace c || isBreak c

/-- A text with one character at the end of each line, except for the separators of lines and
paragraphs. -/
def joinBreaks : List Char → List Char
  | '\r' :: '\n' :: rest => '\n' :: joinBreaks rest
  | '\r' :: rest => '\n' :: joinBreaks rest
  | '\x85' :: rest => '\n' :: joinBreaks rest
  | c :: rest => c :: joinBreaks rest
  | [] => []

/-- Whether `c` may occur in a document. -/
def isAllowed (c : Char) : Bool :=
  let n := c.toNat
  n == 0x09 || n == 0x0A || n == 0x0D || (0x20 ≤ n && n ≤ 0x7E) || n == 0x85 ||
    (0xA0 ≤ n && n ≤ 0xFFFD) || 0x10000 ≤ n

/-- A place in a text; everything counts from zero. -/
structure Place where
  /-- How many characters stand before the place. -/
  index : Nat := 0
  /-- How many of them stand in the same line. -/
  column : Nat := 0
  /-- How many lines stand before the line of the place. -/
  line : Nat := 0
  deriving DecidableEq, Repr

namespace Place

/-- The place behind the character `c`. -/
def after (p : Place) (c : Char) : Place :=
  if isBreak c then ⟨p.index + 1, 0, p.line + 1⟩ else ⟨p.index + 1, p.column + 1, p.line⟩

/-- The place behind several characters. -/
def afterAll (p : Place) (cs : List Char) : Place := cs.foldl after p

end Place

/-- A place in a text with what stands behind it. -/
structure Cursor extends Place where
  /-- What stands behind the place. -/
  rest : List Char
  /-- Whether the construction of a block may begin here. -/
  fresh : Bool := true
  deriving DecidableEq, Repr

/-- The next place where something but spaces, comments and line ends stands. Where the
construction of a block may begin, tabs do not count as spaces; inside brackets they always do.
The mark of the byte order may stand at the beginning of a line. -/
def skipGapFrom (flow : Bool) : (comment fresh : Bool) → Place → List Char → Cursor
  | _, fresh, p, [] => { p with rest := [], fresh }
  | comment, fresh, p, c :: rest =>
    if isBreak c then skipGapFrom flow false (fresh || !flow) (p.after c) rest
    else if comment then skipGapFrom flow true fresh (p.after c) rest
    else if c == '#' then skipGapFrom flow true fresh (p.after c) rest
    else if c == ' ' || (c == '\t' && (flow || !fresh)) || (c == '\uFEFF' && p.column == 0) then
      skipGapFrom flow false fresh (p.after c) rest
    else { p with rest := c :: rest, fresh }

namespace Cursor

/-- The next place where something stands, inside brackets or not. -/
def skipGap (flow : Bool) (c : Cursor) : Cursor :=
  skipGapFrom flow false c.fresh c.toPlace c.rest

/-- The place behind the next `n` characters. -/
def advance (n : Nat) (fresh : Bool) (c : Cursor) : Cursor :=
  { c.toPlace.afterAll (c.rest.take n) with rest := c.rest.drop n, fresh }

/-- Whether the text ends here. -/
def atEnd (c : Cursor) : Bool := c.rest.isEmpty

/-- The next character. -/
def head? (c : Cursor) : Option Char := c.rest.head?

/-- Whether the next character is one of the given ones. -/
def startsWithAny (c : Cursor) (signs : List Char) : Bool :=
  match c.rest with
  | [] => false
  | s :: _ => signs.contains s

/-- Whether the character `sign` stands here as a word. -/
def startsWord (c : Cursor) (sign : Char) : Bool :=
  match c.rest with
  | [] => false
  | s :: rest => s == sign && endsWord rest

/-- Whether an item of a sequence starts here. -/
def startsItem (c : Cursor) : Bool := c.startsWord '-'

/-- Whether a key that is marked as such starts here. -/
def startsKey (c : Cursor) : Bool := c.startsWord '?'

/-- Whether a value behind its key starts here. -/
def startsValue (c : Cursor) : Bool := c.startsWord ':'

end Cursor

/-- Whether a text starts with a marker, of three equal characters. -/
def startsMarker (sign : Char) : List Char → Bool
  | a :: b :: c :: rest => a == sign && b == sign && c == sign && endsWord rest
  | _ => false

/-- Whether a document starts or ends at a place with the given text behind it. -/
def isMarked (p : Place) (s : List Char) : Bool :=
  p.column == 0 && (startsMarker '-' s || startsMarker '.' s)

namespace Cursor

/-- Whether a document starts or ends here. -/
def atMarker (c : Cursor) : Bool := isMarked c.toPlace c.rest

/-- Whether the marker of a document's start stands here. -/
def atStartMarker (c : Cursor) : Bool := c.column == 0 && startsMarker '-' c.rest

/-- Whether the marker of a document's end stands here. -/
def atEndMarker (c : Cursor) : Bool := c.column == 0 && startsMarker '.' c.rest

end Cursor

end BindingRules.Yaml
