import BindingRules.Proofs.NameKeys

set_option relaxedAutoImplicit false
set_option autoImplicit false

/-!
# Names as they are spelled

A declaration spells a symbol as a path of identifiers, each with template arguments or without,
which ends in another one or in an operator, with a parameter list behind it. Template arguments are
any text in which the angle brackets match: it may hold scope separators, parentheses and commas.
Operators are spelled with brackets and parentheses themselves.

Whatever the arguments are, both cuts of a name go over them from the opening bracket to the closing
one, since nothing between these belongs to an operator. So a name is read from its spelling with
one segment for each element of the path.

## Main definitions

* `Identifier`, `TemplateArguments`, `OperatorSymbol`, `ParameterText` — what names are spelled
  with.
* `IsWord` — the texts of identifiers, also with the word for operators in them.
* `ScopeElement`, `LastElement`, `Spelling` — the elements of a path, and the whole spelling.
* `Spelling.name` — the name that a spelling stands for.
* `Crosses` — texts over which both cuts go from one bracket depth to another.

## Main results

* `crosses_of_nests` — both cuts go over template arguments.
* `Name.splitSignature_joinScope`, `Name.splitScope_joinScope` — how joined texts are cut.
* `Name.normalize_spelling` — a name is read from its spelling.
-/

namespace BindingRules

open Text

variable {first : Bool} {before u v t x lead trail : List Char} {c : Char} {d d' d'' : Nat}

/-! ## What names are spelled with -/

/-- The characters of identifiers: letters and digits, also those beyond ASCII, and the
underscore. -/
def isIdentifierChar (c : Char) : Bool :=
  let n := c.toNat
  ('0'.toNat ≤ n && n ≤ '9'.toNat) || ('A'.toNat ≤ n && n ≤ 'Z'.toNat) || n == '_'.toNat ||
    ('a'.toNat ≤ n && n ≤ 'z'.toNat) || (0x80 ≤ n && !isBlank c)

/-- An identifier. The word for operators does not occur in it. -/
structure Identifier where
  /-- The text of the identifier. -/
  text : String
  /-- It is not empty. -/
  ne_nil : text.toList ≠ []
  /-- It consists of letters, digits and underscores. -/
  chars : text.toList.all isIdentifierChar = true
  /-- The word for operators does not occur in it. -/
  not_operator : ¬ operatorWord <:+: text.toList

/-- Whether the angle brackets of a text match each other, and close `depth` brackets more than they
open. -/
def nests : Nat → List Char → Bool
  | depth, [] => depth == 0
  | depth, '<' :: cs => nests (depth + 1) cs
  | 0, '>' :: _ => false
  | depth + 1, '>' :: cs => nests depth cs
  | depth, _ :: cs => nests depth cs

/-- Template arguments: any text in which the angle brackets match and the word for operators does
not occur. -/
structure TemplateArguments where
  /-- The text between the brackets of the template. -/
  text : String
  /-- The brackets in it match. -/
  nests : nests 0 text.toList = true
  /-- The word for operators does not occur in it. -/
  not_operator : ¬ operatorWord <:+: text.toList

/-- The symbols of the operators that can be overloaded. Those that are words are told apart from
the word for operators by a blank. -/
def operatorSymbols : List String :=
  ["+", "-", "*", "/", "%", "^", "&", "|", "~", "!", "=", "<", ">", "+=", "-=", "*=", "/=", "%=",
    "^=", "&=", "|=", "<<", ">>", "<<=", ">>=", "==", "!=", "<=", ">=", "<=>", "&&", "||", "++",
    "--", ",", "->*", "->", "()", "[]", " new", " delete", " new[]", " delete[]", " co_await"]

/-- The symbol of an operator. -/
structure OperatorSymbol where
  /-- The text of the symbol. -/
  text : String
  /-- It is one of those that can be overloaded. -/
  mem : text ∈ operatorSymbols

/-- A parameter list with what stands behind it: any text that begins with a parenthesis. -/
structure ParameterText where
  /-- The text, with its parentheses. -/
  text : String
  /-- It begins with a parenthesis. -/
  parenthesis : text.toList.head? = some '('

/-- An element of a path: an identifier, with template arguments or without. -/
inductive ScopeElement where
  /-- An identifier alone. -/
  | plain (identifier : Identifier)
  /-- A template with its arguments. -/
  | template (identifier : Identifier) (arguments : TemplateArguments)

/-- The last element of a path, which can also be an operator. -/
inductive LastElement where
  /-- An element as it stands elsewhere in a path. -/
  | element (e : ScopeElement)
  /-- The word for operators with the symbol of one. -/
  | operator (symbol : OperatorSymbol)

/-- A name as it is spelled. -/
structure Spelling where
  /-- Whether a scope separator stands in front. -/
  rooted : Bool
  /-- The elements of the path but the last, outermost first. -/
  scopes : List ScopeElement
  /-- The last element of the path. -/
  last : LastElement
  /-- The parameter list behind the path. -/
  parameters : Option ParameterText

namespace ScopeElement

/-- The text of an element. -/
def chars : ScopeElement → List Char
  | plain identifier => identifier.text.toList
  | template identifier arguments =>
    identifier.text.toList ++ '<' :: arguments.text.toList ++ ['>']

/-- The segment of an element: the arguments of a template do not count. -/
def segment : ScopeElement → Segment
  | plain identifier => .exact identifier.text
  | template identifier _ => .template identifier.text

end ScopeElement

namespace LastElement

/-- The text of the last element. -/
def chars : LastElement → List Char
  | element e => e.chars
  | operator symbol => operatorWord ++ symbol.text.toList

/-- The segment of the last element. -/
def segment : LastElement → Segment
  | element e => e.segment
  | operator symbol => .exact ("operator" ++ symbol.text)

end LastElement

namespace Spelling

/-- The texts of the elements of the path. -/
def texts (s : Spelling) : List (List Char) := s.scopes.map ScopeElement.chars ++ [s.last.chars]

/-- The spelling as a text. -/
def chars (s : Spelling) : List Char :=
  (if s.rooted then scopeMark else []) ++ joinScope s.texts ++
    s.parameters.elim [] fun p => p.text.toList

/-- The name that a spelling stands for: one segment for each element, and the parameter list
without blanks. -/
def name (s : Spelling) : ScopePath where
  segments := s.scopes.map ScopeElement.segment ++ [s.last.segment]
  signature := s.parameters.map fun p => String.ofList (p.text.toList.filter fun c => !isBlank c)

end Spelling

/-! ## Identifiers -/

/-- A character of identifiers is no blank, no bracket or parenthesis, no colon and no wildcard. -/
lemma isIdentifierChar_spec (h : isIdentifierChar c = true) :
    isBlank c = false ∧ c ∉ ['<', '>', '(', ':', '*', '?'] := by
  have hmarks : (['<', '>', '(', ':', '*', '?'].all fun d => !isIdentifierChar d) = true := by
    decide
  refine ⟨?_, fun hc => by simpa [h] using List.all_eq_true.1 hmarks c hc⟩
  simp only [isIdentifierChar, Bool.or_eq_true, Bool.and_eq_true, Bool.not_eq_true',
    decide_eq_true_eq, beq_iff_eq, Char.reduceToNat] at h
  rcases h with hascii | ⟨-, hblank⟩
  · -- all blanks stand in front of the digits or behind the small letters
    have hrange : 0x30 ≤ c.toNat ∧ c.toNat ≤ 0x7A := by omega
    simp only [isBlank, Bool.or_eq_false_iff, Bool.and_eq_false_iff, decide_eq_false_iff_not,
      beq_eq_false_iff_ne]
    omega
  · exact hblank

/-- A text without brackets, parentheses and colons is passed over. -/
lemma passes_of_notMem (hopen : '<' ∉ t) (hclose : '>' ∉ t) (hparen : '(' ∉ t) (hcolon : ':' ∉ t)
    (before : List Char) : Passes before t := by
  induction t generalizing before with
  | nil => trivial
  | cons c t ih =>
    simp only [List.mem_cons, not_or] at hopen hclose hparen hcolon
    refine ⟨fun hc => ?_, fun hc => absurd hc.symm hparen.1, fun hc => absurd hc.symm hcolon.1,
      ih hopen.2 hclose.2 hparen.2 hcolon.2 _⟩
    exact absurd hc (not_or.2 ⟨Ne.symm hopen.1, Ne.symm hclose.1⟩)

/-- A word: letters, digits and underscores. The word for operators may occur in it. -/
structure IsWord (t : List Char) : Prop where
  /-- It is not empty. -/
  ne_nil : t ≠ []
  /-- It has no other characters. -/
  chars : t.all isIdentifierChar = true

namespace IsWord

/-- No character of a word is a blank, a bracket or parenthesis, a colon or a wildcard. -/
lemma spec (h : IsWord t) (hc : c ∈ t) : isBlank c = false ∧ c ∉ ['<', '>', '(', ':', '*', '?'] :=
  isIdentifierChar_spec (List.all_eq_true.1 h.chars c hc)

/-- Brackets, parentheses, colons and wildcards do not occur in a word. -/
lemma notMem (h : IsWord t) (hc : c ∈ ['<', '>', '(', ':', '*', '?']) : c ∉ t := fun hmem =>
  (h.spec hmem).2 hc

/-- A word has no blanks around it. -/
lemma tight (h : IsWord t) : Tight t := tight_of_not_isBlank h.ne_nil fun _ hc => (h.spec hc).1

/-- A word is passed over, whatever stands in front of it. -/
lemma passes (h : IsWord t) (before : List Char) : Passes before t :=
  passes_of_notMem (h.notMem (by decide)) (h.notMem (by decide)) (h.notMem (by decide))
    (h.notMem (by decide)) before

/-- A word is cut nowhere. -/
lemma uncut (h : IsWord t) : Uncut first t := uncut_of_passes fun before _ => h.passes before

/-- A word does not begin with a colon. -/
lemma head?_ne_colon (h : IsWord t) : t.head? ≠ some ':' := fun hhead =>
  h.notMem (by decide) (List.mem_of_mem_head? hhead)

/-- A word does not end in a colon. -/
lemma getLast?_ne_colon (h : IsWord t) : t.getLast? ≠ some ':' := fun hlast =>
  h.notMem (by decide) (List.mem_of_getLast? hlast)

/-- A word is no pattern. -/
lemma hasWildcard_eq_false (h : IsWord t) : hasWildcard t = false := by
  have hstar : '*' ∉ t := h.notMem (by decide)
  have hmark : '?' ∉ t := h.notMem (by decide)
  simp [hasWildcard, hstar, hmark]

/-- A word is read as it stands, also if it begins with the word for operators. -/
lemma ofChars_eq (h : IsWord t) : Segment.ofChars t = .exact (String.ofList t) := by
  have hbracket : '<' ∉ t := h.notMem (by decide)
  simp [Segment.ofChars, Segment.plain, h.tight.trim_eq, hbracket, h.hasWildcard_eq_false]

end IsWord

/-- An identifier is a word. -/
lemma Identifier.isWord (i : Identifier) : IsWord i.text.toList := ⟨i.ne_nil, i.chars⟩

/-! ## Template arguments -/

/-- What stands behind the last scope separator of a text begins the text, which is given last
character first. -/
lemma sinceScopeMark_isPrefix (x : List Char) : sinceScopeMark x <+: x := by
  fun_induction sinceScopeMark x with
  | case1 => exact List.nil_prefix
  | case2 c x _ ih => exact List.cons_prefix_cons.2 ⟨rfl, ih⟩
  | case3 => exact List.nil_prefix

/-- What stands behind the last scope separator stands behind any of them. -/
lemma sinceScopeMark_append_isPrefix (x rest : List Char) :
    sinceScopeMark (x ++ ':' :: ':' :: rest) <+: x := by
  induction x with
  | nil => exact List.nil_prefix
  | cons c x ih =>
    rw [List.cons_append, sinceScopeMark.eq_def]
    split
    · exact List.nil_prefix
    · next heq =>
      obtain ⟨rfl, rfl⟩ := List.cons.inj heq
      exact List.cons_prefix_cons.2 ⟨rfl, ih⟩
    · exact List.nil_prefix

/-- Where the word for operators does not occur, nothing belongs to an operator. -/
lemma inOperator_eq_false (hbegins : Begins first before) (h : ¬ operatorWord <:+: u) :
    inOperator (u.reverse ++ before) = false := by
  have hsince : sinceScopeMark (u.reverse ++ before) <+: u.reverse := by
    cases hbegins with
    | first => simpa using sinceScopeMark_isPrefix u.reverse
    | later rest => exact sinceScopeMark_append_isPrefix u.reverse rest
  rw [inOperator, Bool.eq_false_iff, Ne, List.isPrefixOf_iff_prefix]
  intro hword
  have hpart : operatorWord <:+: (sinceScopeMark (u.reverse ++ before)).reverse :=
    hword.isInfix.trans (List.dropWhile_suffix _).isInfix
  refine h (hpart.trans ?_)
  rw [← List.reverse_infix, List.reverse_reverse]
  exact hsince.isInfix

/-- A text over which both cuts go, behind `before`, from the bracket depth `d` to the bracket depth
`d'`. -/
structure Crosses (before : List Char) (d : Nat) (t : List Char) (d' : Nat) : Prop where
  /-- No signature is cut off. -/
  signature : ∀ rest, Name.splitSignatureAfter before d (t ++ rest) =
    Name.splitSignatureAfter (t.reverse ++ before) d' rest
  /-- It is not cut at scope separators. -/
  scope : ∀ piece rest, Name.splitScopeAfter before piece d (t ++ rest) =
    Name.splitScopeAfter (t.reverse ++ before) (t.reverse ++ piece) d' rest

namespace Crosses

/-- Both cuts go over the empty text, which leaves the depth as it is. -/
lemma nil (before : List Char) (d : Nat) : Crosses before d [] d := ⟨fun _ => rfl, fun _ _ => rfl⟩

/-- Both cuts go over one text after the other. -/
lemma append (hu : Crosses before d u d') (hv : Crosses (u.reverse ++ before) d' v d'') :
    Crosses before d (u ++ v) d'' where
  signature rest := by rw [List.append_assoc, hu.signature, hv.signature]; simp
  scope piece rest := by rw [List.append_assoc, hu.scope, hv.scope]; simp

/-- A text over which both cuts go outside of brackets is cut nowhere. -/
lemma uncut (h : ∀ before, Begins first before → Crosses before 0 t 0) : Uncut first t where
  signature hbegins rest := (h _ hbegins).signature rest
  scope hbegins _ := by rw [(h _ hbegins).scope, List.append_nil]

end Crosses

/-- Both cuts go over a text that is passed over, unless a colon ends it that could make a
separator. -/
lemma Passes.crosses (h : Passes before t) (hcolon : t.getLast? ≠ some ':') (d : Nat) :
    Crosses before d t d where
  signature := h.splitSignatureAfter_append d
  scope piece _ := h.splitScopeAfter_append (fun hlast => absurd hlast hcolon) piece d

/-- Both cuts count an opening bracket that does not belong to an operator. -/
lemma crosses_open (h : inOperator before = false) (d : Nat) : Crosses before d ['<'] (d + 1) where
  signature rest := by simp [Name.splitSignatureAfter, h]
  scope piece rest := by
    rw [List.singleton_append, Name.splitScopeAfter.eq_def]
    simp [h]

/-- Both cuts count a closing bracket that does not belong to an operator. -/
lemma crosses_close (h : inOperator before = false) (d : Nat) : Crosses before (d + 1) ['>'] d where
  signature rest := by simp [Name.splitSignatureAfter, h]
  scope piece rest := by simp [Name.splitScopeAfter, h]

/-- Inside brackets both cuts go over anything but a bracket. -/
lemma crosses_inside (hopen : c ≠ '<') (hclose : c ≠ '>') (before : List Char) (d : Nat) :
    Crosses before (d + 1) [c] (d + 1) where
  signature rest := by
    have hdepth : ¬ ((d + 1 : Nat) : Int) ≤ 0 := by omega
    simp only [List.singleton_append, Name.splitSignatureAfter, hdepth]
    simp [hopen, hclose]
  scope piece rest := by
    rw [List.singleton_append, Name.splitScopeAfter.eq_def]
    split
    · next heq => cases heq
    · next heq =>
      obtain ⟨rfl, rfl⟩ := List.cons.inj heq
      simp
    · next heq =>
      obtain ⟨rfl, rfl⟩ := List.cons.inj heq
      simp [hopen, hclose]

/-- **Both cuts go over template arguments** and are inside one bracket in the end.

**Proof sketch.** Induction along the arguments, with `u` the part of the segment in front of what
is left of them. Since the word for operators does not occur in either, both cuts count each bracket
of the arguments, and inside brackets neither of them stops at anything else. -/
lemma crosses_of_nests (hbegins : Begins first before) (h : nests d t = true)
    (hword : ¬ operatorWord <:+: u ++ t) : Crosses (u.reverse ++ before) (d + 1) t 1 := by
  have hout : ∀ {u v : List Char}, ¬ operatorWord <:+: u ++ v →
      inOperator (u.reverse ++ before) = false := fun h =>
    inOperator_eq_false hbegins fun hpart => h (hpart.trans (List.prefix_append _ _).isInfix)
  fun_induction nests d t generalizing u with
  | case1 d =>
    obtain rfl : d = 0 := by simpa using h
    exact .nil _ _
  | case2 d cs ih =>
    have hnext := ih h (u := u ++ ['<']) (by simpa using hword)
    rw [List.reverse_append] at hnext
    exact (crosses_open (hout hword) _).append hnext
  | case3 cs => cases h
  | case4 d cs ih =>
    have hnext := ih h (u := u ++ ['>']) (by simpa using hword)
    rw [List.reverse_append] at hnext
    exact (crosses_close (hout hword) _).append hnext
  | case5 d c cs hopen hzero hclose ih =>
    have hnext := ih h (u := u ++ [c]) (by simpa using hword)
    rw [List.reverse_append] at hnext
    have hnot : c ≠ '>' := by
      rintro rfl
      cases d with
      | zero => exact hzero rfl rfl
      | succ d => exact hclose d rfl rfl
    exact (crosses_inside hopen hnot _ _).append hnext

namespace ScopeElement

/-- An element of a path is cut nowhere, whatever its arguments are. -/
lemma uncut (e : ScopeElement) : Uncut first e.chars := by
  cases e with
  | plain i => exact i.isWord.uncut
  | template i a =>
    refine Crosses.uncut fun before hbegins => ?_
    have hword : ¬ operatorWord <:+: i.text.toList ++ ['<'] ++ a.text.toList := by
      rw [← List.append_cons]
      exact not_infix_append_cons i.not_operator a.not_operator (by decide)
    have hidentifier : Crosses before 0 i.text.toList 0 :=
      (i.isWord.passes before).crosses i.isWord.getLast?_ne_colon 0
    have hopen := crosses_open (inOperator_eq_false hbegins i.not_operator) 0
    have harguments := crosses_of_nests hbegins a.nests hword
    have hclose := crosses_close (inOperator_eq_false hbegins hword) 0
    rw [chars, List.append_cons i.text.toList]
    exact ((hidentifier.append hopen).append harguments).append hclose

/-- An element of a path has no blanks around it. -/
lemma tight (e : ScopeElement) : Tight e.chars := by
  cases e with
  | plain i => exact i.isWord.tight
  | template i a => exact i.isWord.tight.append ⟨by decide, by decide⟩ ('<' :: a.text.toList)

/-- An element of a path does not end in a colon. -/
lemma getLast?_ne_colon (e : ScopeElement) : e.chars.getLast? ≠ some ':' := by
  cases e with
  | plain i => exact i.isWord.getLast?_ne_colon
  | template i a =>
    rw [chars, List.getLast?_append_of_ne_nil _ (List.cons_ne_nil _ _)]
    decide

/-- An element of a path does not begin with a colon. -/
lemma head?_ne_colon (e : ScopeElement) : e.chars.head? ≠ some ':' := by
  cases e with
  | plain i => exact i.isWord.head?_ne_colon
  | template i a =>
    rw [chars, List.append_assoc, List.head?_append_of_ne_nil _ i.ne_nil]
    exact i.isWord.head?_ne_colon

/-- An element of a path is read as its segment, whatever its arguments are. -/
lemma ofChars_chars (e : ScopeElement) : Segment.ofChars e.chars = e.segment := by
  cases e with
  | plain i => rw [chars, i.isWord.ofChars_eq, segment, String.ofList_toList]
  | template i a =>
    have htrim := (template i a).tight.trim_eq
    have hword : ¬ operatorWord <+: (template i a).chars := by
      rw [chars, List.append_assoc, List.cons_append, operatorWord_isPrefix_append_cons (by decide)]
      exact fun h => i.not_operator h.isInfix
    have hbefore : Text.before '<' (template i a).chars = i.text.toList := by
      rw [chars, List.append_assoc, before_append_of_notMem (i.isWord.notMem (by decide))]
      simp [Text.before]
    rw [Segment.ofChars_eq_marked (by rwa [htrim]) (by rw [htrim]; simp [chars]), htrim, hbefore,
      i.isWord.tight.trim_eq, Segment.marked, i.isWord.hasWildcard_eq_false]
    simp [segment]

/-- An element of a path does not end in the word for operators. -/
lemma not_operatorWord_isSuffix (e : ScopeElement) : ¬ operatorWord <:+ e.chars := by
  cases e with
  | plain i => exact fun h => i.not_operator h.isInfix
  | template i a =>
    intro h
    have hlast := getLast?_of_isSuffix h (by decide)
    rw [chars, List.getLast?_append_of_ne_nil _ (List.cons_ne_nil _ _)] at hlast
    exact absurd hlast (by decide)

end ScopeElement

/-! ## Operators -/

/-- The word for operators has no blanks around it. -/
lemma tight_operatorWord : Tight operatorWord := ⟨by decide, by decide⟩

/-- What stands behind the word for operators belongs to an operator. -/
lemma inOperator_operatorWord_append (hbegins : Begins first before) (hcolon : ':' ∉ u) :
    inOperator ((operatorWord ++ u).reverse ++ before) = true := by
  have hmark : ¬ scopeMark <:+: operatorWord ++ u := fun h => by
    have hmem : ':' ∈ operatorWord ++ u := h.subset List.mem_cons_self
    exact (List.mem_append.1 hmem).elim (by decide) hcolon
  rw [inOperator_reverse_append hbegins hmark, List.isPrefixOf_iff_prefix]
  refine operatorWord_isPrefix_sinceStart ?_
  rw [tight_operatorWord.trimStart_append]
  exact List.prefix_append _ _

/-- A symbol without parentheses and colons is passed over behind the word for operators. -/
lemma passes_symbol (hbegins : Begins first before) (hcolon : ':' ∉ u ++ v) (hparen : '(' ∉ v) :
    Passes ((operatorWord ++ u).reverse ++ before) v := by
  induction v generalizing u with
  | nil => trivial
  | cons c v ih =>
    have hu : ':' ∉ u := fun h => hcolon (List.mem_append_left _ h)
    have hc : c ≠ ':' := fun h => hcolon (by simp [h])
    have hv : '(' ∉ v := fun h => hparen (List.mem_cons_of_mem _ h)
    have hnext := ih (u := u ++ [c]) (by simpa using hcolon) hv
    refine ⟨fun _ => inOperator_operatorWord_append hbegins hu, fun h => ?_,
      fun h => absurd h hc, by simpa using hnext⟩
    exact absurd (h ▸ List.mem_cons_self) hparen

/-- The parentheses of the call operator are passed over. -/
lemma passes_call (before : List Char) : Passes (operatorWord.reverse ++ before) ['(', ')'] := by
  refine ⟨by simp, fun _ => isCall_iff.2 ⟨?_, rfl⟩, by simp, by simp, by simp, by simp, trivial⟩
  rw [List.reverse_append, List.reverse_reverse, tight_operatorWord.trimEnd_append]
  exact List.suffix_append _ _

/-- What the symbols of operators have in common: no colons, no parentheses but those of the call
operator, and a last character that neither is a blank nor ends the word for operators again. -/
lemma operatorSymbols_spec : ∀ symbol ∈ operatorSymbols,
    ':' ∉ symbol.toList ∧ (symbol = "()" ∨ '(' ∉ symbol.toList) ∧
      trim (operatorWord ++ symbol.toList) = operatorWord ++ symbol.toList ∧
      ¬ operatorWord <:+ operatorWord ++ symbol.toList := by
  decide +kernel

namespace LastElement

/-- An operator is passed over as a segment: what stands behind the word belongs to the operator. -/
lemma passes_operator (hbegins : Begins first before) (symbol : OperatorSymbol) :
    Passes before (operator symbol).chars := by
  obtain ⟨hcolon, hparen, -⟩ := operatorSymbols_spec symbol.text symbol.mem
  have hword : Passes before operatorWord :=
    passes_of_notMem (by decide) (by decide) (by decide) (by decide) before
  refine hword.append ?_ fun h => absurd h (by decide)
  rcases hparen with hcall | hparen
  · rw [hcall]
    exact passes_call before
  · exact passes_symbol (u := []) hbegins hcolon hparen

/-- The last element of a path is cut nowhere. -/
lemma uncut (e : LastElement) : Uncut first e.chars := by
  cases e with
  | element e => exact e.uncut
  | operator symbol => exact uncut_of_passes fun _ hbegins => passes_operator hbegins symbol

/-- The last element of a path has no blanks around it. -/
lemma tight (e : LastElement) : Tight e.chars := by
  cases e with
  | element e => exact e.tight
  | operator symbol =>
    obtain ⟨-, -, htrim, -⟩ := operatorSymbols_spec symbol.text symbol.mem
    rw [chars]
    exact ⟨List.append_ne_nil_of_left_ne_nil (by decide) _, htrim⟩

/-- The last element of a path does not begin with a colon. -/
lemma head?_ne_colon (e : LastElement) : e.chars.head? ≠ some ':' := by
  cases e with
  | element e => exact e.head?_ne_colon
  | operator symbol =>
    rw [chars, List.head?_append_of_ne_nil _ (by decide)]
    decide

/-- The last element of a path is read as its segment. -/
lemma ofChars_chars (e : LastElement) : Segment.ofChars e.chars = e.segment := by
  have htrim := e.tight.trim_eq
  cases e with
  | element e => exact e.ofChars_chars
  | operator symbol =>
    have hword : operatorWord <+: operatorWord ++ symbol.text.toList := List.prefix_append _ _
    rw [chars] at htrim ⊢
    have hoperator : String.ofList operatorWord = "operator" := String.ofList_toList
    rw [Segment.ofChars, htrim, if_pos (List.isPrefixOf_iff_prefix.2 hword), String.ofList_append,
      hoperator, String.ofList_toList, segment]

/-- The last element of a path does not end in the word for operators. -/
lemma not_operatorWord_isSuffix (e : LastElement) : ¬ operatorWord <:+ e.chars := by
  cases e with
  | element e => exact e.not_operatorWord_isSuffix
  | operator symbol => exact (operatorSymbols_spec symbol.text symbol.mem).2.2.2

end LastElement

/-! ## Spellings -/

/-- Joined texts end in the last of them, with nothing or a separator in front. -/
lemma exists_joinScope_concat (texts : List (List Char)) (q : List Char) :
    ∃ front, joinScope (texts ++ [q]) = front ++ q ∧ ∀ c, front.getLast? = some c → c = ':' := by
  induction texts with
  | nil => exact ⟨[], rfl, by simp⟩
  | cons t texts ih =>
    obtain ⟨front, hjoin, hfront⟩ := ih
    have hstep : joinScope (t :: texts ++ [q]) = t ++ scopeMark ++ joinScope (texts ++ [q]) := by
      cases texts <;> rfl
    refine ⟨t ++ scopeMark ++ front, ?_, fun c hc => ?_⟩
    · rw [List.cons_append] at hstep
      simp [hstep, hjoin]
    · rw [List.getLast?_append, Option.or_eq_some_iff] at hc
      rcases hc with hc | ⟨-, hc⟩
      · exact hfront c hc
      · rw [List.getLast?_append_of_ne_nil _ (by decide)] at hc
        exact (Option.some.inj hc).symm

/-- Joined texts have no other characters than the separator and they themselves. -/
lemma of_mem_joinScope {texts : List (List Char)} (h : c ∈ joinScope texts) :
    c = ':' ∨ ∃ t ∈ texts, c ∈ t := by
  fun_induction joinScope texts with
  | case1 => cases h
  | case2 t => exact .inr ⟨t, List.mem_cons_self, h⟩
  | case3 t rest _ ih =>
    rw [List.append_assoc, List.mem_append, List.mem_append] at h
    rcases h with h | h | h
    · exact .inr ⟨t, List.mem_cons_self, h⟩
    · exact .inl (by simpa [scopeMark] using h)
    · refine (ih h).imp_right ?_
      rintro ⟨t', ht', hc⟩
      exact ⟨t', List.mem_cons_of_mem t ht', hc⟩

namespace Name

variable {texts : List (List Char)}

/-- Texts that are cut nowhere are found again where they are joined. -/
lemma splitScope_joinScope (hne : texts ≠ [])
    (huncut : ∀ first, ∀ t ∈ texts, Uncut first t)
    (hcolon : ∀ t ∈ texts.dropLast, t.getLast? ≠ some ':') :
    splitScope (joinScope texts) = some texts := by
  obtain ⟨q, qs, rfl⟩ := List.exists_cons_of_ne_nil hne
  exact (huncut true q List.mem_cons_self).splitScopeAfter_joinScope
    (fun t ht => huncut false t (List.mem_cons_of_mem q ht)) .first hcolon

/-- What stands behind joined texts is cut off at its parenthesis, which does not belong to a call
operator if they do not end in the word for operators. -/
lemma splitSignature_joinScope (hne : texts ≠ [])
    (huncut : ∀ first, ∀ t ∈ texts, Uncut first t) (htight : Tight (joinScope texts))
    (hword : ¬ operatorWord <:+ joinScope texts) (hx : x = [] ∨ x.head? = some '(') :
    splitSignature (joinScope texts ++ x) =
      (joinScope texts, if x = [] then none else some x) := by
  obtain ⟨q, qs, rfl⟩ := List.exists_cons_of_ne_nil hne
  have hcut := (huncut true q List.mem_cons_self).splitSignatureAfter_joinScope
    (fun t ht => huncut false t (List.mem_cons_of_mem q ht)) .first x
  rw [List.append_nil] at hcut
  rw [splitSignature, hcut]
  rcases hx with rfl | hx
  · simp [splitSignatureAfter]
  · obtain ⟨cs, rfl⟩ := List.head?_eq_some_iff.1 hx
    have hcall : isCall (joinScope (q :: qs)).reverse cs = false := by
      rw [Bool.eq_false_iff, Ne, isCall_iff, List.reverse_reverse, htight.trimEnd_eq]
      exact fun hcall => hword hcall.1
    rw [splitSignatureAfter_parenthesis, hcall, List.reverse_reverse, htight.trimEnd_eq]
    simp

end Name

/-- A scope separator in front of a tight text leaves it tight. -/
lemma Text.Tight.rooted (hx : Tight x) (rooted : Bool) :
    Tight ((if rooted then scopeMark else []) ++ x) := by
  cases rooted with
  | true => simpa using tight_scopeMark.append hx []
  | false => exact hx

/-- Which text is read as a name, with blanks around it and a scope separator in front. -/
lemma Name.strip_blank_append (hx : Tight x) (hcolon : x.head? ≠ some ':') (rooted : Bool)
    (hlead : ∀ c ∈ lead, isBlank c = true) (htrail : ∀ c ∈ trail, isBlank c = true) :
    Name.strip (lead ++ ((if rooted then scopeMark else []) ++ x) ++ trail) = x := by
  rw [strip, trim_append_blank htrail, trim_blank_append hlead, (hx.rooted rooted).trim_eq]
  cases rooted with
  | true =>
    have hcut : scopeMark.isPrefixOf? (scopeMark ++ x) = some x :=
      List.isPrefixOf?_eq_some_iff_append_eq.2 rfl
    simp [hcut, hx.trim_eq]
  | false =>
    have hcut : scopeMark.isPrefixOf? x = none := by
      refine isPrefixOf?_eq_none_iff.2 fun hbegins => ?_
      obtain ⟨rest, rfl⟩ := hbegins
      exact hcolon rfl
    simp [hcut, hx.trim_eq]

namespace Spelling

variable (s : Spelling)

/-- The path of a spelling, without its parameter list. -/
def pathChars : List Char := joinScope s.texts

/-- The parameter list without the blanks behind it. -/
def signatureChars : Option (List Char) := s.parameters.map fun p => trimEnd p.text.toList

/-- The spelling without a scope separator in front and without the blanks behind it. -/
def coreChars : List Char := s.pathChars ++ s.signatureChars.getD []

variable {s}

/-- A spelling has a first element. -/
lemma exists_texts (s : Spelling) : ∃ q qs, s.texts = q :: qs :=
  List.exists_cons_of_ne_nil (by simp [texts])

/-- What holds of all elements holds of their texts. -/
lemma forall_mem_texts {P : List Char → Prop} (hscopes : ∀ e : ScopeElement, P e.chars)
    (hlast : ∀ e : LastElement, P e.chars) : ∀ t ∈ s.texts, P t := by
  intro t ht
  rcases List.mem_append.1 ht with ht | ht
  · obtain ⟨e, -, rfl⟩ := List.mem_map.1 ht
    exact hscopes e
  · obtain rfl := List.mem_singleton.1 ht
    exact hlast s.last

/-- The path of a spelling has no blanks around it. -/
lemma tight_pathChars (s : Spelling) : Tight s.pathChars := by
  obtain ⟨q, qs, htexts⟩ := s.exists_texts
  rw [pathChars, htexts]
  exact tight_joinScope (htexts ▸ forall_mem_texts ScopeElement.tight LastElement.tight)

/-- A parameter list begins with a parenthesis, also without the blanks behind it. -/
lemma of_signatureChars {b : List Char} (h : s.signatureChars = some b) :
    ∃ cs, b = '(' :: cs ∧ Tight b := by
  obtain ⟨p, -, rfl⟩ := Option.map_eq_some_iff.1 h
  obtain ⟨cs, hcs⟩ := List.head?_eq_some_iff.1 p.parenthesis
  have htrim : trimEnd p.text.toList = '(' :: trimEnd cs := hcs ▸ trimEnd_cons (by decide) cs
  have hstart : trimStart (trimEnd p.text.toList) = trimEnd p.text.toList := by
    rw [htrim]
    exact trimStart_cons_eq_self.2 (by decide)
  exact ⟨trimEnd cs, htrim, by simp [htrim], by rw [trim, hstart, trimEnd_trimEnd]⟩

/-- A spelling has no blanks around it once those behind its parameter list are gone. -/
lemma tight_coreChars (s : Spelling) : Tight s.coreChars := by
  rw [coreChars]
  cases h : s.signatureChars with
  | none => simpa using s.tight_pathChars
  | some b =>
    obtain ⟨-, -, hb⟩ := of_signatureChars h
    simpa using s.tight_pathChars.append hb []

/-- A spelling begins with an element, behind the scope separator in front of it. -/
lemma head?_coreChars (s : Spelling) : s.coreChars.head? ≠ some ':' := by
  obtain ⟨q, qs, htexts⟩ := s.exists_texts
  have hq : q ∈ s.texts := htexts ▸ List.mem_cons_self
  have hcolon : q.head? ≠ some ':' :=
    forall_mem_texts (P := fun t => t.head? ≠ some ':') ScopeElement.head?_ne_colon
      LastElement.head?_ne_colon q hq
  have htight : Tight q := forall_mem_texts ScopeElement.tight LastElement.tight q hq
  obtain ⟨c, hc⟩ := Option.ne_none_iff_exists'.1 (mt List.head?_eq_none_iff.1 htight.ne_nil)
  rw [coreChars, pathChars, htexts, List.head?_append, head?_joinScope hc]
  rwa [hc] at hcolon

/-- What stands around a spelling when it is written. -/
lemma chars_eq (s : Spelling) : ∃ blank, (∀ c ∈ blank, isBlank c = true) ∧
    s.chars = (if s.rooted then scopeMark else []) ++ s.coreChars ++ blank := by
  cases h : s.parameters with
  | none => exact ⟨[], by simp, by simp [chars, coreChars, pathChars, signatureChars, h]⟩
  | some p =>
    obtain ⟨blank, hjoin, hblank⟩ := exists_blank_trimEnd_append p.text.toList
    refine ⟨blank, hblank, ?_⟩
    simp only [chars, coreChars, pathChars, signatureChars, h, Option.map_some, Option.getD_some,
      Option.elim_some, List.append_assoc, ← hjoin]

/-- The elements of the path are cut nowhere. -/
lemma uncut_texts (s : Spelling) (first : Bool) : ∀ t ∈ s.texts, Uncut first t :=
  forall_mem_texts ScopeElement.uncut LastElement.uncut

/-- The path is cut into its elements. -/
lemma splitScope_pathChars (s : Spelling) : Name.splitScope s.pathChars = some s.texts := by
  refine Name.splitScope_joinScope (by simp [texts]) s.uncut_texts ?_
  rw [texts, List.dropLast_concat]
  exact List.forall_mem_map.2 fun e _ => e.getLast?_ne_colon

/-- The parentheses behind a path do not belong to the call operator. -/
lemma not_operatorWord_isSuffix (s : Spelling) : ¬ operatorWord <:+ s.pathChars := by
  obtain ⟨front, hjoin, hfront⟩ :=
    exists_joinScope_concat (s.scopes.map ScopeElement.chars) s.last.chars
  rw [pathChars, texts, hjoin]
  refine fun h => s.last.not_operatorWord_isSuffix (operatorWord_isSuffix_of_append ?_ h)
  rintro c hc
  rw [hfront c hc]
  decide

/-- The parameter list is cut off the path. -/
lemma splitSignature_coreChars (s : Spelling) :
    Name.splitSignature s.coreChars = (s.pathChars, s.signatureChars) := by
  have hcut : ∀ x : List Char, x = [] ∨ x.head? = some '(' →
      Name.splitSignature (s.pathChars ++ x) = (s.pathChars, if x = [] then none else some x) :=
    fun x => Name.splitSignature_joinScope (by simp [texts]) s.uncut_texts s.tight_pathChars
      s.not_operatorWord_isSuffix
  rw [coreChars]
  cases h : s.signatureChars with
  | none => exact hcut [] (.inl rfl)
  | some b =>
    obtain ⟨cs, rfl, -⟩ := of_signatureChars h
    exact hcut ('(' :: cs) (.inr rfl)

/-- The name of a spelling is the one that is read from what the spelling is cut into. -/
lemma name_eq (s : Spelling) : s.name = ⟨s.texts.map Segment.ofChars,
    s.signatureChars.map fun t => String.ofList (t.filter fun c => !isBlank c)⟩ := by
  have hscopes : (s.scopes.map ScopeElement.chars).map Segment.ofChars =
      s.scopes.map ScopeElement.segment := by
    rw [List.map_map]
    exact List.map_congr_left fun e _ => e.ofChars_chars
  have hfilter : ∀ t : List Char,
      (trimEnd t).filter (fun c => !isBlank c) = t.filter fun c => !isBlank c := by
    intro t
    obtain ⟨blank, hjoin, hblank⟩ := exists_blank_trimEnd_append t
    have hnone : blank.filter (fun c => !isBlank c) = [] :=
      List.filter_eq_nil_iff.2 fun c hc => by simp [hblank c hc]
    conv_rhs => rw [hjoin, List.filter_append, hnone, List.append_nil]
  rw [name, texts, List.map_append, hscopes, List.map_singleton, LastElement.ofChars_chars,
    signatureChars, Option.map_map]
  simp [Function.comp_def, hfilter]

end Spelling

namespace Name

/-- **A name is read from its spelling**, with one segment for each element of the path, whatever
the template arguments are, and with the parameter list without its blanks. A scope separator can
stand in front of the spelling, and blanks around it; only a text that ends in an underscore would
be taken literally.

**Proof sketch.** Neither cut stops inside an element: identifiers and operator symbols are passed
over, and template arguments are crossed from the opening bracket to the closing one. So the
parameter list is cut off at its parenthesis, which does not belong to a call operator, and the path
is cut into its elements, each of which is read as its segment. -/
theorem normalize_spelling (s : Spelling) (hlead : ∀ c ∈ lead, isBlank c = true)
    (htrail : ∀ c ∈ trail, isBlank c = true) (hlast : (trim s.chars).getLast? ≠ some '_') :
    normalize (String.ofList (lead ++ s.chars ++ trail)) = .ok (.path s.name) := by
  obtain ⟨blank, hblank, hchars⟩ := s.chars_eq
  have hstrip : strip (lead ++ s.chars ++ trail) = s.coreChars := by
    have htrail' : ∀ c ∈ blank ++ trail, isBlank c = true :=
      List.forall_mem_append.2 ⟨hblank, htrail⟩
    rw [hchars, ← List.append_assoc, List.append_assoc _ blank]
    exact strip_blank_append s.tight_coreChars s.head?_coreChars s.rooted hlead htrail'
  rw [normalize, String.toList_ofList, hstrip, ofStripped_eq_path_iff]
  refine ⟨s.tight_coreChars.ne_nil, ?_, s.pathChars, s.signatureChars, s.texts,
    s.splitSignature_coreChars, s.splitScope_pathChars, ?_, s.name_eq⟩
  · rwa [hchars, trim_append_blank hblank, (s.tight_coreChars.rooted s.rooted).trim_eq,
      List.getLast?_append_of_ne_nil _ s.tight_coreChars.ne_nil] at hlast
  · refine Spelling.forall_mem_texts (fun e => ?_) fun e => ?_
    · rw [e.tight.trim_eq]
      exact e.tight.ne_nil
    · rw [e.tight.trim_eq]
      exact e.tight.ne_nil

/-- The call operator of a template is read, with scope separators, parentheses and brackets in the
template arguments. -/
theorem normalize_spelling_callOperator :
    let s : Spelling :=
      { rooted := true
        scopes := [.plain ⟨"std_", by decide, by decide, by decide +kernel⟩,
          .template ⟨"Map", by decide, by decide, by decide +kernel⟩
            ⟨"a::B (c), V<d<::e>>", by decide, by decide +kernel⟩]
        last := .operator ⟨"()", by decide⟩
        parameters := some ⟨"( const K & k )", by decide⟩ }
    (∀ c ∈ ['\t', ' '], isBlank c = true) ∧ (trim s.chars).getLast? ≠ some '_' ∧
      normalize "\t ::std_::Map<a::B (c), V<d<::e>>>::operator()( const K & k )\t " =
        .ok (.path ⟨[.exact "std_", .template "Map", .exact "operator()"], some "(constK&k)"⟩) := by
  intro s
  have hblank : ∀ c ∈ ['\t', ' '], isBlank c = true := List.all_eq_true.1 (by decide)
  have hlast : (trim s.chars).getLast? ≠ some '_' := by decide +kernel
  refine ⟨hblank, hlast, ?_⟩
  have hread := normalize_spelling s hblank hblank hlast
  have htext : String.ofList (['\t', ' '] ++ s.chars ++ ['\t', ' ']) =
      "\t ::std_::Map<a::B (c), V<d<::e>>>::operator()( const K & k )\t " := by
    decide +kernel
  have hname : s.name = ⟨[.exact "std_", .template "Map", .exact "operator()"],
      some "(constK&k)"⟩ := by
    decide +kernel
  rwa [htext, hname] at hread

end Name

end BindingRules
