import BindingRules.Yaml.Basic
import BindingRules.Yaml.Scalar

set_option autoImplicit false

/-!
# Reading YAML

A text holds at most one document. Collections are written as blocks, where the indentation says
what belongs together, or in brackets. A node may be given a name by which it is repeated later,
and a tag.

A key without a mark of its own stands in one line and is not longer than 1024 characters. Blocks
begin at the start of a line, behind the sign of an item, or behind a marked key or its value.

## Main definitions

* `Yaml.Reading`, `Yaml.Reader` — the state of reading, and readers.
* `Yaml.block` — reads a node outside brackets; `Yaml.flowNode` — reads one inside.
* `Yaml.readDocument?` — the document of a text, if the text holds one.
-/

namespace BindingRules.Yaml

/-- The state of reading. -/
structure Reading where
  /-- What is left to read. -/
  cursor : Cursor
  /-- The nodes that have names, the last one first. -/
  anchors : List (String × Yaml) := []
  /-- What the handles of tags stand for. -/
  handles : List (String × String) := [("!", "!"), ("!!", "tag:yaml.org,2002:")]

/-- A reader of something. -/
abbrev Reader := StateT Reading Option

namespace Reader

/-- Where the reader stands. -/
def look : Reader Cursor := Reading.cursor <$> get

/-- Goes to another place. -/
def goTo (cursor : Cursor) : Reader Unit := modify fun r => { r with cursor }

/-- Reads from the cursor alone. -/
def scan {α : Type} (f : Cursor → Option (α × Cursor)) : Reader α := do
  match f (← look) with
  | some (a, c) =>
    goTo c
    return a
  | none => failure

/-- Goes on to the next place where something stands, and tells where that is. -/
def skipGap (flow : Bool) : Reader Cursor := do
  goTo ((← look).skipGap flow)
  look

/-- Passes one character. -/
def pass (fresh : Bool) : Reader Unit := do goTo ((← look).advance 1 fresh)

end Reader

open Reader

/-! ### Names and tags -/

/-- Whether `c` may occur in the name of a node or in a handle. -/
def isWordChar (c : Char) : Bool := c.isAlphanum || c == '_' || c == '-'

/-- Whether `c` may occur in a tag. -/
def isTagChar (c : Char) : Bool :=
  isWordChar c || [';', '/', '?', ':', '@', '&', '=', '+', '$', '.', '!', '~', '*', '\'', '(', ')',
    '%'].contains c

/-- A name behind its sign. -/
def anchorName (c : Cursor) : Option (String × Cursor) :=
  let word := (c.rest.drop 1).takeWhile isWordChar
  let next := c.advance (1 + word.length) false
  if !word.isEmpty && (endsWord next.rest ||
      next.startsWithAny ['?', ':', ',', ']', '\x7d', '%', '@', '\x60']) then
    some (String.ofList word, next)
  else none

/-- A tag as it is written: its handle, what follows the handle, and its length. A tag in angle
brackets has no handle. -/
def splitTag? (s : List Char) : Option (Option String × List Char × Nat) :=
  match s.drop 1 with
  | '<' :: rest =>
    let uri := rest.takeWhile fun c => isTagChar c || c == ',' || c == '[' || c == ']'
    if !uri.isEmpty && (rest.drop uri.length).head? == some '>' then
      some (none, uri, uri.length + 3)
    else none
  | rest =>
    let word := rest.takeWhile isWordChar
    if (rest.drop word.length).head? == some '!' then
      let suffix := (rest.drop (word.length + 1)).takeWhile isTagChar
      if suffix.isEmpty then none
      else some (some (String.ofList ('!' :: word ++ ['!'])), suffix,
        word.length + 2 + suffix.length)
    else
      let suffix := rest.takeWhile isTagChar
      some (some "!", suffix, 1 + suffix.length)

/-- A tag. -/
def tagAt (flow : Bool) (handles : List (String × String)) (c : Cursor) :
    Option (String × Cursor) := do
  let (handle, suffix, length) ← splitTag? c.rest
  let next := c.advance length false
  if endsWord next.rest || (flow && next.head? == some ',') then
    match handle with
    | none => return (String.ofList suffix, next)
    | some handle =>
      if suffix.isEmpty then return (handle, next)
      else return ((← handles.lookup handle) ++ String.ofList suffix, next)
  else none

/-- The name and the tag that a node is given. -/
structure Properties where
  /-- The name by which it is repeated. -/
  anchor : Option String := none
  /-- The tag. -/
  tag : Option String := none

namespace Properties

/-- Whether neither is given. -/
def isEmpty (p : Properties) : Bool := p.anchor.isNone && p.tag.isNone

/-- What is given by either of two; neither part may be given twice. -/
def join (p q : Properties) : Reader Properties :=
  if (p.anchor.isSome && q.anchor.isSome) || (p.tag.isSome && q.tag.isSome) then failure
  else return { anchor := p.anchor <|> q.anchor, tag := p.tag <|> q.tag }

end Properties

/-- What a node is given in front of it, outside brackets in the given line alone. -/
def properties (flow : Bool) (line : Nat) : (bound : Nat) → Reader Properties
  | 0 => return {}
  | bound + 1 => do
    let c ← look
    if c.line == line || flow then
      match c.head? with
      | some '&' =>
        let name ← scan anchorName
        let _ ← skipGap flow
        Properties.join { anchor := some name } (← properties flow line bound)
      | some '!' =>
        let tag ← scan (tagAt flow (← get).handles)
        let _ ← skipGap flow
        Properties.join { tag := some tag } (← properties flow line bound)
      | _ => return {}
    else return {}

/-- How many properties are looked for in front of a node; more than two are refused. -/
def propertyBound : Nat := 3

/-- A node with what it is given. -/
def finish (p : Properties) (y : Yaml) : Reader Yaml := do
  let y := if p.tag.isSome then y.setTag p.tag else y
  match p.anchor with
  | some name => modify fun r => { r with anchors := (name, y) :: r.anchors }
  | none => pure ()
  return y

/-- The node that a name repeats. -/
def repetition : Reader Yaml := do
  let name ← scan anchorName
  match (← get).anchors.lookup name with
  | some y => return y
  | none => failure

/-- A scalar within lines. Plain scalars outside brackets leave the columns before `floor` free. -/
def scalarWithin (flow : Bool) (floor : Nat) : Reader Yaml := do
  let c ← look
  match c.head? with
  | some '"' => return scalar none (← scan doubleQuoted) false
  | some '\'' => return scalar none (← scan singleQuoted) false
  | _ =>
    if startsPlain flow c.rest then
      return scalar none (← scan (plainScalar flow floor)) true
    else failure

/-! ### Nodes -/

/-- The greatest length of a key without a mark. -/
def keyLength : Nat := 1024

/-- Whether what started at `start` is a key without a mark, of which the value starts at `c`. -/
def isKey (start c : Cursor) : Bool := c.line == start.line && c.index ≤ start.index + keyLength

/-- Whether nothing is written for a node inside brackets that would start here. -/
def Cursor.closesNode (c : Cursor) : Bool := c.startsWithAny [',', ']', '\x7d', ':']

/-- Goes on inside brackets, where no document may start or end. -/
def flowGap : Reader Cursor := do
  let c ← skipGap true
  if c.atMarker then failure else return c

mutual

/-- What a node is apart from its properties: a repetition, a collection in brackets, or a scalar
within lines. -/
def content : (bound : Nat) → (flow : Bool) → (floor : Nat) → Reader Yaml
  | 0, _, _ => failure
  | bound + 1, flow, floor => do
    match (← look).head? with
    | some '*' => repetition
    | some '[' =>
      pass true
      return sequence none (← flowItems bound floor)
    | some '\x7b' =>
      pass true
      return mapping none (← flowEntries bound floor)
    | _ => scalarWithin flow floor

/-- A node inside brackets. -/
def flowNode : (bound : Nat) → (floor : Nat) → Reader Yaml
  | 0, _ => failure
  | bound + 1, floor => do
    let p ← properties true 0 propertyBound
    let c ← flowGap
    if p.isEmpty then content bound true floor
    else if c.head? == some '*' then failure
    else if c.closesNode then finish p empty
    else finish p (← content bound true floor)

/-- What stands behind the sign of a value inside brackets, or nothing. -/
def flowValue : (bound : Nat) → (floor : Nat) → Reader Yaml
  | 0, _ => failure
  | bound + 1, floor => do
    if (← flowGap).startsWithAny [',', ']', '\x7d'] then return empty
    else flowNode bound floor

/-- A marked key inside brackets, behind its mark, with its value. -/
def flowMarked : (bound : Nat) → (floor : Nat) → Reader (Yaml × Yaml)
  | 0, _ => failure
  | bound + 1, floor => do
    let key ← if (← flowGap).closesNode then pure empty else flowNode bound floor
    if (← flowGap).head? == some ':' then
      pass false
      return (key, ← flowValue bound floor)
    else return (key, empty)

/-- The items of a sequence in brackets, up to its end. A pair stands for a mapping of its own. -/
def flowItems : (bound : Nat) → (floor : Nat) → Reader (List Yaml)
  | 0, _ => failure
  | bound + 1, floor => do
    let start ← flowGap
    match start.head? with
    | some ']' =>
      pass false
      return []
    | first =>
      let item ←
        if first == some '?' then do
          pass false
          let pair ← flowMarked bound floor
          pure (mapping none [pair])
        else do
          let node ← flowNode bound floor
          let c ← flowGap
          if c.head? == some ':' && isKey start c then
            pass false
            let value ← flowValue bound floor
            pure (mapping none [(node, value)])
          else pure node
      match (← flowGap).head? with
      | some ',' =>
        pass true
        return item :: (← flowItems bound floor)
      | some ']' =>
        pass false
        return [item]
      | _ => failure

/-- The pairs of a mapping in brackets, up to its end. -/
def flowEntries : (bound : Nat) → (floor : Nat) → Reader (List (Yaml × Yaml))
  | 0, _ => failure
  | bound + 1, floor => do
    let start ← flowGap
    match start.head? with
    | some '\x7d' =>
      pass false
      return []
    | first =>
      let pair ←
        if first == some '?' then do
          pass false
          flowMarked bound floor
        else do
          let key ← flowNode bound floor
          let c ← flowGap
          if c.head? == some ':' && isKey start c then
            pass false
            let value ← flowValue bound floor
            pure (key, value)
          else pure (key, empty)
      match (← flowGap).head? with
      | some ',' =>
        pass true
        return pair :: (← flowEntries bound floor)
      | some '\x7d' =>
        pass false
        return [pair]
      | _ => failure

end

mutual

/-- A node outside brackets. It stands at the column `floor` or behind it; the items of a sequence
may start one column before, if `outdented` says so. -/
def block : (bound : Nat) → (floor : Nat) → (outdented : Bool) → Reader Yaml
  | 0, _, _ => failure
  | bound + 1, floor, outdented => do
    let _ ← skipGap false
    blockNode bound floor outdented {}

/-- A node outside brackets that starts here, with properties from earlier lines. -/
def blockNode :
    (bound : Nat) → (floor : Nat) → (outdented : Bool) → Properties → Reader Yaml
  | 0, _, _, _ => failure
  | bound + 1, floor, outdented, outer => do
    let start ← look
    if start.atEnd || start.atMarker || start.column < floor then
      if outdented && start.column + 1 == floor && start.startsItem then
        finish outer (sequence none (← items bound start.column))
      else finish outer empty
    else if start.fresh && start.startsItem then
      finish outer (sequence none (← items bound start.column))
    else if start.fresh && start.startsKey then
      finish outer (mapping none (← entries bound start.column))
    else
      let inner ← properties false start.line propertyBound
      let c ← look
      if !inner.isEmpty && c.line != start.line then
        blockNode bound floor outdented (← outer.join inner)
      else if c.head? == some '|' || c.head? == some '>' then
        finish (← outer.join inner) (scalar none (← scan (blockScalar floor)) false)
      else
        let isAlias := c.head? == some '*'
        let node ←
          if !inner.isEmpty && c.startsValue then pure empty
          else if !inner.isEmpty && isAlias then failure
          else content bound false floor
        let c ← skipGap false
        if start.fresh && isKey start c && c.startsValue then
          let key ← finish inner node
          finish outer (mapping none (← entriesFrom bound start.column key))
        else if isAlias && !outer.isEmpty then failure
        else finish (← outer.join inner) node

/-- The items of a sequence outside brackets, of which one starts here. -/
def items : (bound : Nat) → (column : Nat) → Reader (List Yaml)
  | 0, _ => failure
  | bound + 1, column => do
    pass true
    let item ← block bound (column + 1) false
    let c ← skipGap false
    if c.column == column && c.startsItem then return item :: (← items bound column)
    else return [item]

/-- The pairs of a mapping outside brackets that are left, if any. -/
def entries : (bound : Nat) → (column : Nat) → Reader (List (Yaml × Yaml))
  | 0, _ => failure
  | bound + 1, column => do
    let start ← look
    if start.atEnd || start.atMarker || start.column < column then return []
    else if start.column != column then failure
    else if start.startsKey then
      pass true
      let key ← block bound (column + 1) true
      let c ← skipGap false
      if c.column == column && c.startsValue then
        pass true
        let value ← block bound (column + 1) true
        let _ ← skipGap false
        return (key, value) :: (← entries bound column)
      else return (key, empty) :: (← entries bound column)
    else
      let p ← properties false start.line propertyBound
      let c ← look
      let node ←
        if !p.isEmpty && c.startsValue then pure empty
        else if !p.isEmpty && c.head? == some '*' then failure
        else content bound false (column + 1)
      let c ← skipGap false
      if isKey start c && c.startsValue then entriesFrom bound column (← finish p node)
      else failure

/-- The pairs of a mapping outside brackets from the value of the first one on. -/
def entriesFrom : (bound : Nat) → (column : Nat) → (key : Yaml) → Reader (List (Yaml × Yaml))
  | 0, _, _ => failure
  | bound + 1, column, key => do
    pass false
    let value ← block bound (column + 1) true
    let _ ← skipGap false
    return (key, value) :: (← entries bound column)

end

/-! ### Documents -/

/-- The words of a line, without a comment. -/
def lineWords (line : List Char) : List String :=
  let words := (line.splitBy fun a b => isSpace a == isSpace b).filter fun w =>
    !(w.head?.map isSpace).getD true
  (words.takeWhile fun w => w.head? != some '#').map String.ofList

/-- Takes note of an instruction before a document, given by its words: the version of the format,
or a handle for tags. -/
def instruction (words : List String) : Reader Unit :=
  match words with
  | ["%YAML", version] => if version == "1.1" || version == "1.2" then pure () else failure
  | ["%TAG", handle, stem] => modify fun r => { r with handles := (handle, stem) :: r.handles }
  | _ => failure

/-- The instructions before a document, and whether there are any. -/
def instructions : (bound : Nat) → Reader Bool
  | 0 => return false
  | bound + 1 => do
    let c ← skipGap false
    if c.column == 0 && c.head? == some '%' then
      let line := c.rest.takeWhile (!isBreak ·)
      instruction (lineWords line)
      goTo (c.advance line.length true)
      let _ ← instructions bound
      return true
    else return false

/-- What follows the last document: markers of its end. -/
def ending : (bound : Nat) → Reader Unit
  | 0 => failure
  | bound + 1 => do
    let c ← skipGap false
    if c.atEnd then return ()
    else if c.atEndMarker then
      goTo (c.advance 3 false)
      ending bound
    else failure

/-- The document of a text, if there is one. -/
def document (bound : Nat) : Reader (Option Yaml) := do
  let instructed ← instructions bound
  let c ← look
  if c.atStartMarker then
    goTo (c.advance 3 false)
    let root ← block bound 0 false
    ending bound
    return some root
  else if instructed || c.atEndMarker then failure
  else if c.atEnd then return none
  else
    let root ← block bound 0 false
    ending bound
    return some root

/-- The document of a text. The inner answer is missing if the text holds no document but only
spaces and comments, the outer one if the text is not well formed. -/
def readDocument? (text : String) : Option (Option Yaml) :=
  let s := joinBreaks text.toList
  if s.all isAllowed then
    (document (4 * s.length + 16)).run' { cursor := { rest := s } }
  else none

end BindingRules.Yaml
