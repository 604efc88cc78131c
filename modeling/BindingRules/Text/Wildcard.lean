set_option autoImplicit false

/-!
# Shell patterns

In a shell pattern an asterisk stands for any row of characters and a question mark for any single
character; every other character stands for itself.

The matcher walks along pattern and text together until an asterisk of the pattern is reached.
From there on the rest of the pattern is tried behind one character of the text after the other,
and it never returns to an earlier asterisk. A character of the text is compared with the pattern
before an asterisk is recognised, so an asterisk in the text is taken by an asterisk in the
pattern as if it were an ordinary character.

## Main definitions

* `Text.wildcardMatch` — whether a text matches a shell pattern.
* `Text.hasWildcard` — whether a text holds an asterisk or a question mark.
-/

namespace BindingRules.Text

/-- Whether `s` holds one of the two characters with a meaning in shell patterns. -/
def hasWildcard (s : List Char) : Bool := s.contains '*' || s.contains '?'

/-- How walking along a pattern and a text comes to an end. -/
inductive Walk where
  /-- The text is used up; the flag says whether the rest of the pattern may stand for nothing. -/
  | finished (matched : Bool)
  /-- The next characters do not fit, or the pattern is used up. -/
  | mismatch
  /-- An asterisk: the pattern behind it, and the text from there on. -/
  | asterisk (pattern text : List Char)

/-- Walks along pattern and text while their characters fit. -/
def walk : (pattern text : List Char) → Walk
  | p, [] => .finished (p.all (· == '*'))
  | [], _ :: _ => .mismatch
  | d :: ds, c :: cs =>
    if d == '?' || d == c then walk ds cs
    else if d == '*' then .asterisk ds (c :: cs)
    else .mismatch

/-- What is left at an asterisk is shorter. -/
theorem length_of_walk_eq_asterisk {p t ds rest : List Char} (h : walk p t = .asterisk ds rest) :
    ds.length < p.length ∧ rest.length ≤ t.length := by
  fun_induction walk p t with
  | case1 => simp at h
  | case2 => simp at h
  | case3 d ds' c cs _ ih => exact ⟨Nat.lt_succ_of_lt (ih h).1, Nat.le_succ_of_le (ih h).2⟩
  | case4 => simp at h; obtain ⟨rfl, rfl⟩ := h; simp
  | case5 => simp at h

/-- Whether some end of `text` matches `pattern`, the pattern behind an asterisk. -/
def matchAfterAsterisk (pattern text : List Char) : Bool :=
  match _h : walk pattern text with
  | .finished matched => matched
  | .asterisk ds rest => matchAfterAsterisk ds rest
  | .mismatch =>
    match text with
    | [] => false
    | _ :: cs => matchAfterAsterisk pattern cs
termination_by (text.length, pattern.length)
decreasing_by
  · have := length_of_walk_eq_asterisk _h
    rcases Nat.lt_or_eq_of_le this.2 with hlt | heq
    · exact Prod.Lex.left _ _ hlt
    · rw [heq]; exact Prod.Lex.right _ this.1
  · exact Prod.Lex.left _ _ (by simp)

/-- Whether `text` matches the shell pattern `pattern`. -/
def wildcardMatch (pattern text : List Char) : Bool :=
  match walk pattern text with
  | .finished matched => matched
  | .asterisk ds rest => matchAfterAsterisk ds rest
  | .mismatch => false

end BindingRules.Text
