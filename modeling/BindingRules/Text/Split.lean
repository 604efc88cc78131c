set_option autoImplicit false

/-!
# Finding, splitting and replacing

Searches for a fixed text inside a longer one. Every function takes the text that is looked for
first; it is never empty where the library calls them.

## Main definitions

* `Text.splitOnce?`, `Text.splitOnceLast?` — what stands before and after the first, and before
  and after the last occurrence.
* `Text.occursIn` — whether there is an occurrence at all.
* `Text.replaceAll` — every occurrence, from the left and without overlaps, replaced.

## Main results

* `Text.append_of_splitOnce?`, `Text.append_of_splitOnceLast?` — the parts of a split, joined by
  the separator, are the text that was split.
-/

namespace BindingRules.Text

/-- The parts of a text before and after the first occurrence of `sep`. -/
def splitOnce? (sep : List Char) : List Char → Option (List Char × List Char)
  | [] => none
  | c :: cs =>
    match sep.isPrefixOf? (c :: cs) with
    | some rest => some ([], rest)
    | none => (splitOnce? sep cs).map fun (a, b) => (c :: a, b)

/-- The parts of a text before and after the last occurrence of `sep`. -/
def splitOnceLast? (sep : List Char) : List Char → Option (List Char × List Char)
  | [] => none
  | c :: cs =>
    match splitOnceLast? sep cs with
    | some (a, b) => some (c :: a, b)
    | none => (sep.isPrefixOf? (c :: cs)).map fun rest => ([], rest)

/-- Whether `part` occurs in a text; the empty text occurs everywhere. -/
def occursIn (part : List Char) : List Char → Bool
  | [] => part.isEmpty
  | c :: cs => part.isPrefixOf (c :: cs) || occursIn part cs

/-- Every occurrence of `find` replaced by `put`, from the left. The search goes on behind what
was replaced, and an empty `find` replaces nothing. -/
def replaceAll (find put : List Char) (s : List Char) : List Char :=
  match s with
  | [] => []
  | c :: cs =>
    match find.isPrefixOf? (c :: cs) with
    | some rest =>
      if rest.length ≤ cs.length then put ++ replaceAll find put rest
      else c :: replaceAll find put cs
    | none => c :: replaceAll find put cs
termination_by s.length

/-- The text without the leading occurrences of `part`. -/
def dropAll (part : List Char) (s : List Char) : List Char :=
  match part.isPrefixOf? s with
  | some rest => if rest.length < s.length then dropAll part rest else s
  | none => s
termination_by s.length

/-- What stands before the first occurrence of `c`, or the whole text. -/
def before (c : Char) (s : List Char) : List Char := s.takeWhile (· != c)

/-! ### What stands before a character -/

/-- A text without the character is passed over. -/
theorem before_append_of_notMem {c : Char} {x : List Char} (h : c ∉ x) (y : List Char) :
    before c (x ++ y) = x ++ before c y :=
  List.takeWhile_append_of_pos fun _ hd => bne_iff_ne.2 (ne_of_mem_of_not_mem hd h)

/-- In a text without the character, everything stands before it. -/
theorem before_eq_self {c : Char} {x : List Char} (h : c ∉ x) : before c x = x := by
  simpa [before] using before_append_of_notMem h []

/-- What follows a text with the character does not stand before it. -/
theorem before_append_of_mem {c : Char} {x : List Char} (h : c ∈ x) (y : List Char) :
    before c (x ++ y) = before c x := by
  obtain ⟨a, b, rfl, ha⟩ := List.eq_append_cons_of_mem h
  rw [List.append_assoc, before_append_of_notMem ha, before_append_of_notMem ha]
  simp [before]

/-! ### Joining what was split -/

/-- A text is its prefix followed by what is left behind the prefix. -/
theorem append_of_isPrefixOf? {p s r : List Char} (h : p.isPrefixOf? s = some r) : p ++ r = s := by
  induction p generalizing s with
  | nil => exact (Option.some.inj h).symm
  | cons a p ih =>
    cases s with
    | nil =>
      change none = some r at h
      simp at h
    | cons b s =>
      change (if a == b then p.isPrefixOf? s else none) = some r at h
      split at h
      · next hab => rw [List.cons_append, ih h, eq_of_beq hab]
      · simp at h

/-- The parts before and after the first separator, joined by it, are the text. -/
theorem append_of_splitOnce? {sep s a b : List Char} (h : splitOnce? sep s = some (a, b)) :
    a ++ sep ++ b = s := by
  induction s generalizing a b with
  | nil => simp [splitOnce?] at h
  | cons c cs ih =>
    simp only [splitOnce?] at h
    split at h
    · next rest hp =>
      obtain ⟨rfl, rfl⟩ : [] = a ∧ rest = b := by simpa using h
      simpa using append_of_isPrefixOf? hp
    · obtain ⟨⟨a', b'⟩, hs, he⟩ := Option.map_eq_some_iff.1 h
      obtain ⟨rfl, rfl⟩ : c :: a' = a ∧ b' = b := by simpa using he
      simpa using ih hs

/-- The parts before and after the last separator, joined by it, are the text. -/
theorem append_of_splitOnceLast? {sep s a b : List Char}
    (h : splitOnceLast? sep s = some (a, b)) : a ++ sep ++ b = s := by
  induction s generalizing a b with
  | nil => simp [splitOnceLast?] at h
  | cons c cs ih =>
    simp only [splitOnceLast?] at h
    split at h
    · next a' b' hs =>
      obtain ⟨rfl, rfl⟩ : c :: a' = a ∧ b' = b := by simpa using h
      simpa using ih hs
    · obtain ⟨rest, hp, he⟩ := Option.map_eq_some_iff.1 h
      obtain ⟨rfl, rfl⟩ : [] = a ∧ rest = b := by simpa using he
      simpa using append_of_isPrefixOf? hp

end BindingRules.Text
