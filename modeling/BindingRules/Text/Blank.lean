set_option autoImplicit false

/-!
# Blanks and trimming

Names, rule lines and documents are read with the blanks around them removed. A blank is a
character with the white space property: it includes the line separators and the wide spaces, but
neither the zero width space nor the byte order mark.

## Main definitions

* `Text.isBlank` — the class of blanks.
* `Text.trimStart`, `Text.trimEnd`, `Text.trim` — a text without the blanks at its ends.

## Main results

* `Text.trim_append_blank`, `Text.trim_blank_append` — blanks around a text do not change its
  trimmed form.
* `Text.trim_trim` — trimming twice is trimming once.
-/

namespace BindingRules.Text

/-- Whether `c` has the white space property. -/
def isBlank (c : Char) : Bool :=
  let n := c.toNat
  (0x09 ≤ n && n ≤ 0x0D) || n == 0x20 || n == 0x85 || n == 0xA0 || n == 0x1680 ||
    (0x2000 ≤ n && n ≤ 0x200A) || n == 0x2028 || n == 0x2029 || n == 0x202F || n == 0x205F ||
    n == 0x3000

/-- The text without its leading blanks. -/
def trimStart (s : List Char) : List Char := s.dropWhile isBlank

/-- The text without its trailing blanks. -/
def trimEnd (s : List Char) : List Char := (s.reverse.dropWhile isBlank).reverse

/-- The text without the blanks at either end. -/
def trim (s : List Char) : List Char := trimEnd (trimStart s)

/-- A string without the blanks at either end. -/
def trimmed (s : String) : String := String.ofList (trim s.toList)

/-- Whether a string holds nothing but blanks. -/
def isBlankText (s : String) : Bool := s.toList.all isBlank

/-! ### Trimming -/

/-- Leading blanks do not change what is left without them. -/
theorem trimStart_blank_append {b : List Char} (h : ∀ c ∈ b, isBlank c) (s : List Char) :
    trimStart (b ++ s) = trimStart s :=
  List.dropWhile_append_of_pos h

/-- Leading blanks are removed through a text that has nothing else. -/
theorem trimStart_append_of_nil {s : List Char} (h : trimStart s = []) (t : List Char) :
    trimStart (s ++ t) = trimStart t := by
  simp only [trimStart] at h
  simp [trimStart, List.dropWhile_append, h]

/-- Leading blanks are removed from the first of two texts if it has anything else. -/
theorem trimStart_append_of_ne_nil {s : List Char} (h : trimStart s ≠ []) (t : List Char) :
    trimStart (s ++ t) = trimStart s ++ t := by
  simp only [trimStart] at h
  simp [trimStart, List.dropWhile_append, h]

/-- Trailing blanks do not change what is left without them. -/
theorem trimEnd_append_blank {b : List Char} (h : ∀ c ∈ b, isBlank c) (s : List Char) :
    trimEnd (s ++ b) = trimEnd s := by
  simp only [trimEnd, List.reverse_append]
  rw [List.dropWhile_append_of_pos (by simpa using h)]

/-- Blanks in front of a text do not change its trimmed form. -/
theorem trim_blank_append {b : List Char} (h : ∀ c ∈ b, isBlank c) (s : List Char) :
    trim (b ++ s) = trim s := by
  simp only [trim, trimStart_blank_append h]

/-- Blanks behind a text do not change its trimmed form. -/
theorem trim_append_blank {b : List Char} (h : ∀ c ∈ b, isBlank c) (s : List Char) :
    trim (s ++ b) = trim s := by
  have hb : trimStart b = [] := by
    have := trimStart_blank_append h []
    rwa [List.append_nil] at this
  cases hs : trimStart s with
  | nil => simp [trim, trimStart_append_of_nil hs, hb, hs]
  | cons c r =>
    rw [trim, trimStart_append_of_ne_nil (by simp [hs])]
    exact trimEnd_append_blank h _

/-- What is left without leading blanks does not start with one. -/
theorem trimStart_eq_nil_or_cons (s : List Char) :
    trimStart s = [] ∨ ∃ c r, trimStart s = c :: r ∧ isBlank c = false := by
  induction s with
  | nil => exact .inl rfl
  | cons c r ih =>
    cases hc : isBlank c with
    | true => simpa [trimStart, hc] using ih
    | false => exact .inr ⟨c, r, by simp [trimStart, hc], hc⟩

/-- A text that does not start with a blank keeps its first character without trailing blanks. -/
theorem trimEnd_cons {c : Char} (hc : isBlank c = false) (r : List Char) :
    trimEnd (c :: r) = c :: trimEnd r := by
  simp only [trimEnd, List.reverse_cons, List.dropWhile_append]
  split
  · next h => simp_all
  · simp

/-- Removing trailing blanks twice is removing them once. -/
theorem trimEnd_trimEnd (s : List Char) : trimEnd (trimEnd s) = trimEnd s := by
  have h : ∀ t : List Char, (t.dropWhile isBlank).dropWhile isBlank = t.dropWhile isBlank := by
    intro t
    rcases trimStart_eq_nil_or_cons t with h | ⟨c, r, h, hc⟩
    · simp only [trimStart] at h; simp [h]
    · simp only [trimStart] at h; simp [h, hc]
  simp [trimEnd, h]

/-- Trimming twice is trimming once. -/
theorem trim_trim (s : List Char) : trim (trim s) = trim s := by
  rcases trimStart_eq_nil_or_cons s with h | ⟨c, r, h, hc⟩
  · simp only [trim, h]; rfl
  · have hs : trimStart (c :: trimEnd r) = c :: trimEnd r := by simp [trimStart, hc]
    simp only [trim, h, trimEnd_cons hc, hs, trimEnd_trimEnd]

end BindingRules.Text
