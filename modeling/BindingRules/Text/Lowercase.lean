import BindingRules.Text.CaseTable

set_option autoImplicit false

/-!
# Lowercasing

Module names are ordered by their small letters first. A capital letter has one small letter, with
two exceptions: the capital I with a dot becomes an i followed by a combining dot, and the capital
sigma at the end of a word becomes a final sigma.

## Main definitions

* `Text.lowercase` — a string in small letters.
-/

namespace BindingRules.Text

/-- Whether the number `n` lies in one of the ranges. -/
def inRanges (ranges : Array (Nat × Nat)) (n : Nat) : Bool :=
  ranges.any fun r => r.1 ≤ n && n ≤ r.2

/-- Whether the run of capitals holds the letter with number `n`. -/
def Capitals.holds (r : Capitals) (n : Nat) : Bool :=
  r.first ≤ n && n ≤ r.last && (n - r.first) % r.step == 0

/-- The small form of a letter, wherever it stands; every other character is its own. -/
def smallLetter (c : Char) : List Char :=
  if c = '\u0130' then ['i', '\u0307']
  else
    match capitals.find? (·.holds c.toNat) with
    | some r => [Char.ofNat (c.toNat + r.shift).toNat]
    | none => [c]

/-- Whether the nearest character that counts has a case. -/
def caseFollows (s : List Char) : Bool :=
  match s.dropWhile fun c => inRanges caseIgnorableRanges c.toNat with
  | c :: _ => inRanges casedRanges c.toNat
  | [] => false

/-- The small letters of a text that stands behind `before`, given last character first. -/
def lowercaseAfter (before : List Char) : List Char → List Char
  | [] => []
  | c :: after =>
    let small :=
      if c = '\u03A3' then
        if caseFollows before && !caseFollows after then ['\u03C2'] else ['\u03C3']
      else smallLetter c
    small ++ lowercaseAfter (c :: before) after

/-- A string in small letters. -/
def lowercase (s : String) : String := String.ofList (lowercaseAfter [] s.toList)

end BindingRules.Text
