import BindingRules.Text.Hexadecimal
import BindingRules.Yaml.Cursor

set_option autoImplicit false

/-!
# Scalars of YAML

A scalar is written plain, in quotes, or as a block of lines. Plain and quoted scalars may go on
over several lines; a line end then reads as a space, and empty lines in between read as line ends.

## Main definitions

* `Yaml.Pause` — spaces and line ends inside a scalar, and `Yaml.Pause.folded`, how they read.
* `Yaml.plainScalar`, `Yaml.singleQuoted`, `Yaml.doubleQuoted` — scalars within lines.
* `Yaml.blockScalar` — scalars that are blocks of lines, literal or folded.
-/

namespace BindingRules.Yaml

/-! ### Spaces and line ends -/

/-- Spaces and line ends that were met since the last other character of a scalar. -/
inductive Pause where
  /-- Spaces in one line. -/
  | spaces (list : List Char)
  /-- Line ends: the first one, unless it was escaped, and those of the empty lines behind it. -/
  | breaks (first : Option Char) (more : List Char)
  deriving DecidableEq, Repr

namespace Pause

/-- Nothing. -/
def none : Pause := spaces []

/-- A further space or line end. Spaces around line ends are dropped. -/
def add (c : Char) : Pause → Pause
  | spaces list => if isBreak c then breaks (some c) [] else spaces (list ++ [c])
  | breaks first more => if isBreak c then breaks first (more ++ [c]) else breaks first more

/-- Whether there is a line end. -/
def isBroken : Pause → Bool
  | spaces _ => false
  | breaks _ _ => true

/-- How spaces and line ends read inside a scalar. -/
def folded : Pause → List Char
  | spaces list => list
  | breaks (some '\n') [] => [' ']
  | breaks (some '\n') more => more
  | breaks first more => first.toList ++ more

end Pause

/-- A text that is collected back to front, with a pause and a character put behind it. -/
def putBehind (text : List Char) (pause : Pause) (c : Char) : List Char :=
  c :: (pause.folded.reverse ++ text)

/-! ### Plain scalars -/

/-- The signs of collections in brackets. -/
def flowSigns : List Char := [',', '[', ']', '\x7b', '\x7d']

/-- Characters with which no plain scalar starts. -/
def indicators : List Char :=
  ['-', '?', ':', ',', '[', ']', '\x7b', '\x7d', '#', '&', '*', '!', '|', '>', '\'', '"', '%', '@',
    '\x60']

/-- Whether a plain scalar starts with the given text. -/
def startsPlain (flow : Bool) : List Char → Bool
  | [] => false
  | c :: rest =>
    (!isSpace c && !isBreak c && !indicators.contains c) || (c == '-' && !endsWord rest) ||
      (!flow && (c == '?' || c == ':') && !endsWord rest)

/-- Whether a plain scalar stops before the given text, whatever stands before it. -/
def stopsPlain (flow : Bool) : List Char → Bool
  | [] => true
  | c :: rest => (c == ':' && endsWord rest) || (flow && flowSigns.contains c)

/-- Whether a colon stands before a sign that must not follow it inside brackets. -/
def strayColon : List Char → Bool
  | ':' :: c :: _ => c == '?' || flowSigns.contains c
  | _ => false

/-- A plain scalar. Outside brackets its lines start at the column `least` or behind it. -/
def plainFrom (flow : Bool) (least : Nat) :
    (text : List Char) → Pause → Place → List Char → Option (List Char × Cursor)
  | text, pause, p, [] => some (text.reverse, { p with rest := [], fresh := pause.isBroken })
  | text, pause, p, c :: rest =>
    if isSpace c || isBreak c then
      if c == '\t' && pause.isBroken && p.column < least then none
      else plainFrom flow least text (pause.add c) (p.after c) rest
    else if pause != .none &&
        (c == '#' || isMarked p (c :: rest) || (!flow && p.column < least)) then
      some (text.reverse, { p with rest := c :: rest, fresh := pause.isBroken })
    else if flow && strayColon (c :: rest) then none
    else if stopsPlain flow (c :: rest) then
      some (text.reverse, { p with rest := c :: rest, fresh := pause.isBroken })
    else plainFrom flow least (putBehind text pause c) .none (p.after c) rest

/-- The plain scalar that starts at a cursor. -/
def plainScalar (flow : Bool) (least : Nat) (c : Cursor) : Option (String × Cursor) :=
  (plainFrom flow least [] .none c.toPlace c.rest).map fun (text, c) => (String.ofList text, c)

/-! ### Quoted scalars -/

/-- A scalar in single quotes, behind the first of them. A quote inside is written twice. -/
def singleQuotedFrom :
    (text : List Char) → Pause → Place → List Char → Option (List Char × Cursor)
  | _, _, _, [] => none
  | text, pause, p, '\'' :: '\'' :: rest =>
    singleQuotedFrom (putBehind text pause '\'') .none (p.afterAll ['\'', '\'']) rest
  | text, pause, p, '\'' :: rest =>
    some (text.reverse ++ pause.folded, { p.after '\'' with rest, fresh := false })
  | text, pause, p, c :: rest =>
    if isSpace c || isBreak c then singleQuotedFrom text (pause.add c) (p.after c) rest
    else if isMarked p (c :: rest) then none
    else singleQuotedFrom (putBehind text pause c) .none (p.after c) rest

/-- The scalar in single quotes that starts at a cursor. -/
def singleQuoted (c : Cursor) : Option (String × Cursor) :=
  (singleQuotedFrom [] .none (c.toPlace.after '\'') (c.rest.drop 1)).map fun (text, c) =>
    (String.ofList text, c)

/-- The character for which a letter behind a backslash stands. -/
def escaped? : Char → Option Char
  | '0' => some '\x00'
  | 'a' => some '\x07'
  | 'b' => some '\x08'
  | 't' | '\t' => some '\t'
  | 'n' => some '\n'
  | 'v' => some '\x0B'
  | 'f' => some '\x0C'
  | 'r' => some '\r'
  | 'e' => some '\x1B'
  | ' ' => some ' '
  | '"' => some '"'
  | '/' => some '/'
  | '\\' => some '\\'
  | 'N' => some '\x85'
  | '_' => some '\xA0'
  | 'L' => some '\u2028'
  | 'P' => some '\u2029'
  | _ => none

/-- How many hexadecimal digits follow a letter behind a backslash. -/
def escapeWidth? : Char → Option Nat
  | 'x' => some 2
  | 'u' => some 4
  | 'U' => some 8
  | _ => none

/-- The character with the number that the given hexadecimal digits denote. -/
def charOfHex? (digits : List Char) : Option Char := do
  let values ← digits.mapM Text.hexValue?
  let n := values.foldl (fun n d => 16 * n + d) 0
  if n.isValidChar then some (Char.ofNat n) else none

/-- What an escape behind its backslash stands for, and how many characters it has. -/
def escapeOf? : List Char → Option (Char × Nat)
  | [] => none
  | c :: rest =>
    match escapeWidth? c with
    | none => (escaped? c).map (·, 1)
    | some width =>
      let digits := rest.take width
      if digits.length = width then (charOfHex? digits).map (·, 1 + width) else none

/-- A scalar in double quotes, behind the first of them. The number says how many characters still
belong to an escape that has been read. -/
def doubleQuotedFrom :
    (text : List Char) → Pause → Place → (skip : Nat) → List Char → Option (List Char × Cursor)
  | _, _, _, _, [] => none
  | text, pause, p, skip + 1, c :: rest => doubleQuotedFrom text pause (p.after c) skip rest
  | text, pause, p, 0, '"' :: rest =>
    some (text.reverse ++ pause.folded, { p.after '"' with rest, fresh := false })
  | text, pause, p, 0, '\\' :: rest =>
    if (rest.head?.map isBreak).getD false then
      doubleQuotedFrom (pause.folded.reverse ++ text) (.breaks none []) (p.after '\\') 1 rest
    else
      match escapeOf? rest with
      | some (c, width) => doubleQuotedFrom (putBehind text pause c) .none (p.after '\\') width rest
      | none => none
  | text, pause, p, 0, c :: rest =>
    if isSpace c || isBreak c then doubleQuotedFrom text (pause.add c) (p.after c) 0 rest
    else if isMarked p (c :: rest) then none
    else doubleQuotedFrom (putBehind text pause c) .none (p.after c) 0 rest

/-- The scalar in double quotes that starts at a cursor. -/
def doubleQuoted (c : Cursor) : Option (String × Cursor) :=
  (doubleQuotedFrom [] .none (c.toPlace.after '"') 0 (c.rest.drop 1)).map fun (text, c) =>
    (String.ofList text, c)

/-! ### Blocks of lines -/

/-- What happens to the line ends at the end of a block. -/
inductive Chomping where
  /-- None stays. -/
  | strip
  /-- One stays. -/
  | clip
  /-- All stay. -/
  | keep
  deriving DecidableEq, Repr

/-- The heading of a block: how it ends, and how far it is indented if that is said. -/
structure BlockHeading where
  /-- What happens to the line ends at the end. -/
  chomping : Chomping := .clip
  /-- The indentation, counted from that of what surrounds the block. -/
  indent : Option Nat := none

/-- A sign of a heading. -/
def BlockHeading.sign? (h : BlockHeading) (c : Char) : Option BlockHeading :=
  if c == '+' then some { h with chomping := .keep }
  else if c == '-' then some { h with chomping := .strip }
  else if '1' ≤ c && c ≤ '9' then some { h with indent := some (c.toNat - '0'.toNat) }
  else none

/-- The heading of a block behind its first sign, and what follows the signs of the heading: at
most one sign says how the block ends, and at most one how far it is indented. -/
def blockHeading : List Char → BlockHeading × List Char
  | [] => ({}, [])
  | c :: rest =>
    match BlockHeading.sign? {} c with
    | none => ({}, c :: rest)
    | some h =>
      match rest with
      | [] => (h, [])
      | d :: more =>
        if h.indent.isSome == (d == '+' || d == '-') then
          match h.sign? d with
          | some h => (h, more)
          | none => (h, rest)
        else (h, rest)

/-- Skips the spaces before the lines of a block, up to the column `indent` if it is known, and
empty lines. The answer holds the line ends and the greatest column that was reached. -/
def blockGap (indent : Option Nat) :
    (widest : Nat) → (breaks : List Char) → Place → List Char →
      Option (Nat × List Char × Place × List Char)
  | widest, breaks, p, [] => some (max widest p.column, breaks, p, [])
  | widest, breaks, p, c :: rest =>
    let inside := indent.elim true (p.column < ·)
    if c == ' ' && inside then blockGap indent widest breaks (p.after c) rest
    else if c == '\t' && inside then none
    else if isBreak c then
      blockGap indent (max widest p.column) (breaks ++ [c]) (p.after c) rest
    else some (max widest p.column, breaks, p, c :: rest)

/-- What is known about a block while it is read. -/
structure BlockText where
  /-- The text so far. -/
  text : List Char := []
  /-- The end of the last line. -/
  lineEnd : List Char := []
  /-- The ends of the empty lines behind it. -/
  more : List Char := []
  /-- Whether the last line started with a space. -/
  spaced : Bool := false

/-- The text of a block with a further line. In a folded block a line end between two lines that
do not start with spaces reads as a space. -/
def BlockText.addLine (b : BlockText) (literal : Bool) (line : List Char) : BlockText :=
  let spaced := (line.head?.map isSpace).getD false
  let joint :=
    if !literal && b.lineEnd == ['\n'] && !b.spaced && !spaced then
      if b.more.isEmpty then [' '] else []
    else b.lineEnd
  { text := b.text ++ joint ++ b.more ++ line, spaced }

/-- The text of a block that is complete. -/
def BlockText.chomped (b : BlockText) : Chomping → List Char
  | .strip => b.text
  | .clip => b.text ++ b.lineEnd
  | .keep => b.text ++ b.lineEnd ++ b.more

/-- The lines of a block, at most as many as the given number. -/
def blockLines (literal : Bool) (indent : Nat) :
    (bound : Nat) → BlockText → Place → List Char → Option (BlockText × Place × List Char)
  | 0, b, p, s => some (b, p, s)
  | bound + 1, b, p, s =>
    if p.column == indent && !s.isEmpty then do
      let line := s.takeWhile (!isBreak ·)
      let lineEnd := (s.dropWhile (!isBreak ·)).take 1
      let (_, more, p, rest) ←
        blockGap (some indent) 0 [] (p.afterAll (line ++ lineEnd))
          ((s.dropWhile (!isBreak ·)).drop 1)
      blockLines literal indent bound { b.addLine literal line with lineEnd, more } p rest
    else some (b, p, s)

/-- The scalar that is a block of lines and starts at a cursor. What surrounds it leaves room from
the column `floor` on. -/
def blockScalar (floor : Nat) (c : Cursor) : Option (String × Cursor) := do
  let literal := c.head? == some '|'
  let (heading, afterHeading) := blockHeading (c.rest.drop 1)
  let spaceless := afterHeading.dropWhile isSpace
  let ending := if spaceless.head? == some '#' then spaceless.dropWhile (!isBreak ·) else spaceless
  if (ending.head?.map isBreak).getD true then
    let p := c.toPlace.afterAll (c.rest.take (c.rest.length - ending.length) ++ ending.take 1)
    let indent := heading.indent.map fun n => floor - 1 + n
    let (widest, more, p, rest) ← blockGap indent 0 [] p (ending.drop 1)
    let indent := indent.getD (max widest (max floor 1))
    let (b, p, rest) ← blockLines literal indent rest.length { more } p rest
    return (String.ofList (b.chomped heading.chomping), { p with rest, fresh := true })
  else none

end BindingRules.Yaml
