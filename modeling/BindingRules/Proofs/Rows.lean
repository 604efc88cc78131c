import BindingRules.Ruleset.Reader
import Mathlib.Data.List.Basic

set_option relaxedAutoImplicit false
set_option autoImplicit false

/-!
# The rows of a text

A text is cut into rows behind each line feed. Nothing is lost by that: the rows with their endings,
one behind the other, are the text. Conversely rows are found again in the text that they make, if
each of them could be a row of some text. So a text can be changed row by row.

## Main definitions

* `joinRows` — the text that some rows make.
* `AreRows` — whether rows could be those of a text.

## Main results

* `joinRows_splitLines` — the rows of a text make the text.
* `splitLines_joinRows` — rows are those of the text that they make.
-/

namespace BindingRules

variable {line s : List Char} {rows : List (List Char × LineEnding)}

/-- The text that rows make with their endings. -/
def joinRows (rows : List (List Char × LineEnding)) : List Char :=
  rows.flatMap fun row => row.1 ++ row.2.chars

/-- Whether rows could be those of a text: none has a line feed, none that ends with a line feed
alone has a carriage return in front of it, and only the last one may end with the text. -/
def AreRows : List (List Char × LineEnding) → Prop
  | [] => True
  | (raw, .lineFeed) :: rows => '\n' ∉ raw ∧ raw.getLast? ≠ some '\r' ∧ AreRows rows
  | (raw, .carriageReturn) :: rows => '\n' ∉ raw ∧ AreRows rows
  | (raw, .endOfSource) :: rows => '\n' ∉ raw ∧ raw ≠ [] ∧ rows = []

/-! ## Cutting a text -/

/-- The rows of a text with the start of its first row are such as a text can have. -/
lemma areRows_splitLinesAfter (h : '\n' ∉ line) : AreRows (splitLinesAfter line s) := by
  fun_induction splitLinesAfter line s with
  | case1 line hempty => trivial
  | case2 line hempty => exact ⟨by simpa using h, by simpa using hempty, rfl⟩
  | case3 rest line ih =>
    exact ⟨by simpa using h, ih List.not_mem_nil⟩
  | case4 rest line hreturn ih =>
    refine ⟨by simpa using h, ?_, ih List.not_mem_nil⟩
    rw [List.getLast?_reverse]
    cases line with
    | nil => simp
    | cons c line =>
      intro hc
      obtain rfl : c = '\r' := by simpa using hc
      exact hreturn line rfl
  | case5 line c rest hc ih =>
    refine ih ?_
    rw [List.mem_cons, not_or]
    exact ⟨fun heq => hc heq.symm, h⟩

/-- The rows of a text are such as a text can have. -/
lemma areRows_splitLines (s : List Char) : AreRows (splitLines s) :=
  areRows_splitLinesAfter List.not_mem_nil

/-- The rows of a text with the start of its first row make both. -/
lemma joinRows_splitLinesAfter (line s : List Char) :
    joinRows (splitLinesAfter line s) = line.reverse ++ s := by
  fun_induction splitLinesAfter line s with
  | case1 line hempty => simp [joinRows, List.isEmpty_iff.1 hempty]
  | case2 line hempty => simp [joinRows, LineEnding.chars]
  | case3 rest line ih => simpa [joinRows, LineEnding.chars] using ih
  | case4 rest line hreturn ih => simpa [joinRows, LineEnding.chars] using ih
  | case5 line c rest hc ih => simpa using ih

/-- **The rows of a text make the text.** -/
lemma joinRows_splitLines (s : List Char) : joinRows (splitLines s) = s :=
  joinRows_splitLinesAfter [] s

/-- A text has at most as many rows as characters. -/
lemma length_splitLinesAfter_le (line s : List Char) :
    (splitLinesAfter line s).length ≤ s.length + if line.isEmpty then 0 else 1 := by
  fun_induction splitLinesAfter line s with
  | case1 line hline => simp
  | case2 line hline => simp [hline]
  | case3 rest line ih =>
    simp only [List.isEmpty_nil, if_true, List.length_cons] at ih ⊢
    omega
  | case4 line rest hline ih =>
    simp only [List.isEmpty_nil, if_true, List.length_cons] at ih ⊢
    omega
  | case5 line c rest hc ih =>
    simp only [List.isEmpty_cons, Bool.false_eq_true, if_false, List.length_cons] at ih ⊢
    omega

/-- A text has at most as many rows as characters. -/
lemma length_splitLines_le (text : String) : (splitLines text.toList).length ≤ text.length := by
  simpa [splitLines, ← String.length_toList] using length_splitLinesAfter_le [] text.toList

/-! ## Cutting what rows make -/

/-- What has no line feed belongs to the row in front of it. -/
lemma splitLinesAfter_append_of_notMem (h : '\n' ∉ s) (line rest : List Char) :
    splitLinesAfter line (s ++ rest) = splitLinesAfter (s.reverse ++ line) rest := by
  induction s generalizing line with
  | nil => rfl
  | cons c s ih =>
    obtain ⟨hc, hs⟩ := not_or.1 (mt List.mem_cons.2 h)
    rw [List.cons_append, splitLinesAfter, ih hs, List.reverse_cons, List.append_assoc]
    · rfl
    · exact fun heq => hc heq.symm

/-- A line feed ends a row that does not end in a carriage return. -/
lemma splitLinesAfter_lineFeed (h : line.head? ≠ some '\r') (rest : List Char) :
    splitLinesAfter line ('\n' :: rest) = (line.reverse, .lineFeed) :: splitLinesAfter [] rest := by
  rw [splitLinesAfter]
  rintro line rfl
  exact h rfl

/-- **Rows are those of the text that they make.** -/
lemma splitLines_joinRows (h : AreRows rows) : splitLines (joinRows rows) = rows := by
  rw [splitLines]
  induction rows with
  | nil => rfl
  | cons row rows ih =>
    obtain ⟨raw, ending⟩ := row
    rw [joinRows, List.flatMap_cons, List.append_assoc, ← joinRows]
    cases ending with
    | lineFeed =>
      obtain ⟨hraw, hreturn, hrows⟩ := h
      rw [splitLinesAfter_append_of_notMem hraw, List.append_nil, LineEnding.chars,
        List.singleton_append, splitLinesAfter_lineFeed (by simpa using hreturn), ih hrows,
        List.reverse_reverse]
    | carriageReturn =>
      obtain ⟨hraw, hrows⟩ := h
      rw [splitLinesAfter_append_of_notMem hraw, List.append_nil]
      change splitLinesAfter ('\r' :: raw.reverse) ('\n' :: joinRows rows) = _
      rw [splitLinesAfter, ih hrows, List.reverse_reverse]
    | endOfSource =>
      obtain ⟨hraw, hne, rfl⟩ := h
      rw [splitLinesAfter_append_of_notMem hraw, List.append_nil]
      change splitLinesAfter raw.reverse [] = _
      rw [splitLinesAfter, if_neg (by simpa using hne), List.reverse_reverse]

end BindingRules
