import BindingRules.Text.Wildcard
import Mathlib.Data.List.Infix

set_option relaxedAutoImplicit false
set_option autoImplicit false

/-!
# What shell patterns match

The matcher tries the pattern behind an asterisk at one place of the text after the other, and once
it has come to the next asterisk it never goes back to an earlier place. Nothing is lost by that:
where the next asterisk is reached first, most of the text is left for it. But a character of the
text is compared with the pattern before an asterisk is recognised, and an asterisk of the text that
stands against one of the pattern is taken by it as if both were ordinary characters. So the matcher
finds nothing but texts that the pattern describes, and it finds all of them in which that cannot
happen.

The walks of the matcher are those of a single loop with two cursors and a place to go back to. Each
round of the loop takes a character off the pattern, or moves the place to go back to.

## Main definitions

* `Text.Fits` — the texts that a shell pattern describes.
* `Text.Meets` — whether an asterisk of a pattern can come to stand against one of a text.
* `Text.Cursors`, `Text.Cursors.step`, `Text.Cursors.run` — the loop of the matcher.

## Main results

* `Text.fits_of_wildcardMatch` — what is matched is described by the pattern.
* `Text.wildcardMatch_of_fits` — what is described by the pattern is matched, unless asterisks meet.
* `Text.Cursors.run_eq_answer` — the loop ends, and answers what the matcher does.
* `Text.wildcardMatch_sound_complete` — all three.
-/

namespace BindingRules.Text

variable {p q s t u ds cs rest : List Char} {c d : Char}

/-! ## What a pattern describes -/

/-- The texts that a shell pattern describes: an asterisk stands for any row of characters, a
question mark for any single character, and any other character for itself. -/
inductive Fits : List Char → List Char → Prop where
  /-- The empty pattern describes the empty text. -/
  | nil : Fits [] []
  /-- An asterisk stands for any row of characters. -/
  | asterisk {p t : List Char} (row : List Char) (h : Fits p t) : Fits ('*' :: p) (row ++ t)
  /-- A question mark stands for any character. -/
  | mark {p t : List Char} (c : Char) (h : Fits p t) : Fits ('?' :: p) (c :: t)
  /-- Any other character stands for itself. -/
  | char {p t : List Char} {c : Char} (hasterisk : c ≠ '*') (hmark : c ≠ '?') (h : Fits p t) :
      Fits (c :: p) (c :: t)

/-- What the matcher takes for one character is one that the pattern describes, an asterisk
included. -/
lemma Fits.cons (hd : d = '?' ∨ d = c) (h : Fits ds cs) : Fits (d :: ds) (c :: cs) := by
  rcases hd with rfl | rfl
  · exact .mark c h
  · by_cases hasterisk : d = '*'
    · subst hasterisk
      exact .asterisk ['*'] h
    by_cases hmark : d = '?'
    · subst hmark
      exact .mark '?' h
    · exact .char hasterisk hmark h

/-- The same characters in front of pattern and text are taken as they are. -/
lemma Fits.append_left (s : List Char) (h : Fits p t) : Fits (s ++ p) (s ++ t) := by
  induction s with
  | nil => exact h
  | cons c s ih => exact ih.cons (.inr rfl)

/-- A text with an asterisk behind it describes all that begins with the text. -/
lemma fits_append_asterisk (s row : List Char) : Fits (s ++ ['*']) (s ++ row) := by
  have hrow : Fits ['*'] row := by simpa using Fits.asterisk row .nil
  exact hrow.append_left s

/-- A pattern that does not begin with an asterisk describes texts with a first character. -/
lemma Fits.exists_of_cons (h : Fits (d :: ds) s) (hd : d ≠ '*') :
    ∃ c cs, s = c :: cs ∧ (d = '?' ∨ d = c) ∧ Fits ds cs := by
  cases h with
  | asterisk row h => exact absurd rfl hd
  | mark c h => exact ⟨c, _, rfl, .inl rfl, h⟩
  | char hasterisk hmark h => exact ⟨d, _, rfl, .inr rfl, h⟩

/-- An asterisk in front of a pattern describes what ends in a text of the pattern. -/
lemma fits_asterisk_iff : Fits ('*' :: ds) t ↔ ∃ s, s <:+ t ∧ Fits ds s := by
  constructor
  · intro h
    cases h with
    | asterisk row h => exact ⟨_, List.suffix_append row _, h⟩
    | char hasterisk hmark h => exact absurd rfl hasterisk
  · rintro ⟨s, ⟨row, rfl⟩, h⟩
    exact .asterisk row h

/-- Nothing but asterisks describes the empty text. -/
lemma fits_nil_iff : Fits p [] ↔ p.all (· == '*') = true := by
  induction p with
  | nil => exact ⟨fun _ => rfl, fun _ => .nil⟩
  | cons d ds ih =>
    rw [List.all_cons, Bool.and_eq_true, beq_iff_eq, ← ih]
    constructor
    · intro h
      by_cases hd : d = '*'
      · subst hd
        obtain ⟨s, hs, h⟩ := fits_asterisk_iff.1 h
        rw [List.suffix_nil.1 hs] at h
        exact ⟨rfl, h⟩
      · obtain ⟨c, cs, hnil, -, -⟩ := h.exists_of_cons hd
        cases hnil
    · rintro ⟨rfl, h⟩
      exact .asterisk [] h

/-! ## What is matched is described -/

/-- Where a walk uses up the text, the rest of the pattern can stand for nothing. -/
lemma fits_of_walk_finished (h : walk p t = .finished true) : Fits p t := by
  fun_induction walk p t with
  | case1 p => exact fits_nil_iff.2 (Walk.finished.inj h)
  | case2 => cases h
  | case3 d ds c cs hd ih => exact (ih h).cons (by simpa using hd)
  | case4 => cases h
  | case5 => cases h

/-- Where a walk comes to an asterisk, this stands for what is in front of any end of the rest. -/
lemma fits_of_walk_asterisk (h : walk p t = .asterisk ds rest) (hs : s <:+ rest)
    (hfits : Fits ds s) : Fits p t := by
  fun_induction walk p t with
  | case1 => cases h
  | case2 => cases h
  | case3 d ds' c cs hd ih => exact (ih h).cons (by simpa using hd)
  | case4 d ds' c cs hd hasterisk =>
    obtain ⟨rfl, rfl⟩ := Walk.asterisk.inj h
    obtain rfl : d = '*' := by simpa using hasterisk
    exact fits_asterisk_iff.2 ⟨s, hs, hfits⟩
  | case5 => cases h

/-- Behind an asterisk, some end of the text is described by the rest of the pattern. -/
lemma exists_fits_of_matchAfterAsterisk (h : matchAfterAsterisk q t = true) :
    ∃ s, s <:+ t ∧ Fits q s := by
  fun_induction matchAfterAsterisk q t with
  | case1 q t matched hwalk =>
    subst h
    exact ⟨t, List.suffix_refl t, fits_of_walk_finished hwalk⟩
  | case2 q t ds rest hwalk ih =>
    obtain ⟨s, hs, hfits⟩ := ih h
    exact ⟨t, List.suffix_refl t, fits_of_walk_asterisk hwalk hs hfits⟩
  | case3 => cases h
  | case4 q c cs hwalk ih =>
    obtain ⟨s, hs, hfits⟩ := ih h
    exact ⟨s, hs.trans (List.suffix_cons c cs), hfits⟩

/-- **What is matched is described by the pattern**, whatever characters it has. -/
lemma fits_of_wildcardMatch (h : wildcardMatch p t = true) : Fits p t := by
  unfold wildcardMatch at h
  split at h
  · next matched hwalk =>
    subst h
    exact fits_of_walk_finished hwalk
  · next ds rest hwalk =>
    obtain ⟨s, hs, hfits⟩ := exists_fits_of_matchAfterAsterisk h
    exact fits_of_walk_asterisk hwalk hs hfits
  · cases h

/-! ## Asterisks that meet -/

/-- Whether an asterisk of a pattern can come to stand against one of a text: what stands in front
of the one describes what stands in front of the other. -/
def Meets (p t : List Char) : Prop :=
  ∃ a ds b rest, p = a ++ '*' :: ds ∧ t = b ++ '*' :: rest ∧ Fits a b

/-- A text without asterisks meets none. -/
lemma not_meets_of_notMem (h : '*' ∉ t) : ¬ Meets p t := by
  rintro ⟨a, ds, b, rest, -, rfl, -⟩
  simp at h

/-- Asterisks that meet do so behind a character that is taken. -/
lemma Meets.cons (hd : d = '?' ∨ d = c) (h : Meets ds cs) : Meets (d :: ds) (c :: cs) := by
  obtain ⟨a, ds', b, rest, rfl, rfl, h⟩ := h
  exact ⟨d :: a, ds', c :: b, rest, rfl, rfl, h.cons hd⟩

/-- Asterisks that meet do so behind an asterisk that stands for a row of characters. -/
lemma Meets.asterisk (hs : s <:+ t) (h : Meets ds s) : Meets ('*' :: ds) t := by
  obtain ⟨row, rfl⟩ := hs
  obtain ⟨a, ds', b, rest, rfl, rfl, h⟩ := h
  exact ⟨'*' :: a, ds', row ++ b, rest, rfl, by simp, .asterisk row h⟩

/-- Asterisks meet where an asterisk would be taken as an ordinary character. -/
lemma ne_asterisk_of_not_meets (h : ¬ Meets (d :: ds) (c :: cs)) (hd : d = '?' ∨ d = c) :
    d ≠ '*' := by
  rintro rfl
  obtain hd | rfl := hd
  · cases hd
  · exact h ⟨[], ds, [], cs, rfl, rfl, .nil⟩

/-- Behind the asterisk to which a walk comes, asterisks meet nowhere if they do not in the whole
text. -/
lemma not_meets_of_walk_asterisk (hwalk : walk p t = .asterisk ds rest) (h : ¬ Meets p t)
    (hs : s <:+ rest) : ¬ Meets ds s := by
  fun_induction walk p t with
  | case1 => cases hwalk
  | case2 => cases hwalk
  | case3 d ds' c cs hd ih => exact ih hwalk fun hmeets => h (hmeets.cons (by simpa using hd))
  | case4 d ds' c cs hd hasterisk =>
    obtain ⟨rfl, rfl⟩ := Walk.asterisk.inj hwalk
    obtain rfl : d = '*' := by simpa using hasterisk
    exact fun hmeets => h (hmeets.asterisk hs)
  | case5 => cases hwalk

/-! ## What is described is matched -/

/-- **A walk along a text of which some end is described by the pattern**, where asterisks do not
meet. If it uses up the text, the rest of the pattern can stand for nothing. If it comes to an
asterisk, the pattern behind that describes some end of what is left. It comes to a mismatch only if
the end that is described is not the whole text.

**Proof sketch.** As long as the walk takes single characters, so does the end that is described,
and it stays an end of what is left since it has no more characters than that. -/
lemma walk_of_fits (hclear : ¬ Meets p t) (hs : s <:+ t) (h : Fits p s) :
    match walk p t with
    | .finished matched => matched = true
    | .asterisk ds rest => ∃ r, r <:+ rest ∧ Fits ds r
    | .mismatch => s ≠ t := by
  fun_induction walk p t generalizing s with
  | case1 p =>
    rw [List.suffix_nil.1 hs] at h
    exact fits_nil_iff.1 h
  | case2 c cs =>
    cases h
    exact fun hnil => List.cons_ne_nil c cs hnil.symm
  | case3 d ds c cs hd ih =>
    have hd : d = '?' ∨ d = c := by simpa using hd
    obtain ⟨c', cs', rfl, -, h⟩ := h.exists_of_cons (ne_asterisk_of_not_meets hclear hd)
    have hs' : cs' <:+ cs := by
      rcases List.suffix_cons_iff.1 hs with heq | hs
      · rw [(List.cons.inj heq).2]
      · exact (List.suffix_cons c' cs').trans hs
    have hnext := ih (fun hmeets => hclear (hmeets.cons hd)) hs' h
    split at hnext
    · exact hnext
    · exact hnext
    · exact fun heq => hnext (List.cons.inj heq).2
  | case4 d ds c cs hd hasterisk =>
    obtain rfl : d = '*' := by simpa using hasterisk
    obtain ⟨r, hr, h⟩ := fits_asterisk_iff.1 h
    exact ⟨r, hr.trans hs, h⟩
  | case5 d ds c cs hd hasterisk =>
    rintro rfl
    obtain ⟨c', cs', heq, hd', -⟩ := h.exists_of_cons (by simpa using hasterisk)
    obtain ⟨rfl, -⟩ := List.cons.inj heq
    exact hd (by simpa using hd')

/-- Behind an asterisk, a text is matched if some end of it is described by the rest of the pattern
and asterisks do not meet. -/
lemma matchAfterAsterisk_of_fits (hclear : ∀ u, u <:+ t → ¬ Meets q u) (hs : s <:+ t)
    (h : Fits q s) : matchAfterAsterisk q t = true := by
  fun_induction matchAfterAsterisk q t generalizing s with
  | case1 q t matched hwalk =>
    have hfound := walk_of_fits (hclear t (List.suffix_refl t)) hs h
    rwa [hwalk] at hfound
  | case2 q t ds rest hwalk ih =>
    have hclear' := hclear t (List.suffix_refl t)
    have hfound := walk_of_fits hclear' hs h
    rw [hwalk] at hfound
    obtain ⟨r, hr, hfits⟩ := hfound
    exact ih (fun u hu => not_meets_of_walk_asterisk hwalk hclear' hu) hr hfits
  | case3 q hwalk =>
    have hfound := walk_of_fits (hclear [] (List.suffix_refl [])) hs h
    rw [hwalk] at hfound
    exact absurd (List.suffix_nil.1 hs) hfound
  | case4 q c cs hwalk ih =>
    have hfound := walk_of_fits (hclear (c :: cs) (List.suffix_refl _)) hs h
    rw [hwalk] at hfound
    have hs' : s <:+ cs := (List.suffix_cons_iff.1 hs).resolve_left hfound
    exact ih (fun u hu => hclear u (hu.trans (List.suffix_cons c cs))) hs' h

/-- **What is described by the pattern is matched**, unless an asterisk of the pattern can come to
stand against one of the text. -/
lemma wildcardMatch_of_fits (h : Fits p t) (hclear : ¬ Meets p t) : wildcardMatch p t = true := by
  have hfound := walk_of_fits hclear (List.suffix_refl t) h
  unfold wildcardMatch
  cases hwalk : walk p t with
  | finished matched =>
    rw [hwalk] at hfound
    exact hfound
  | asterisk ds rest =>
    rw [hwalk] at hfound
    obtain ⟨r, hr, hfits⟩ := hfound
    exact matchAfterAsterisk_of_fits (fun u hu => not_meets_of_walk_asterisk hwalk hclear hu) hr
      hfits
  | mismatch =>
    rw [hwalk] at hfound
    exact absurd rfl hfound

/-- A walk along a text as its own pattern uses up both. -/
lemma walk_self (t : List Char) : walk t t = .finished true := by
  induction t with
  | nil => rfl
  | cons c t ih => simp [walk, ih]

/-- Every text is matched by itself as a pattern, asterisks included. -/
lemma wildcardMatch_self (t : List Char) : wildcardMatch t t = true := by
  simp [wildcardMatch, walk_self]

/-! ## The loop of the matcher -/

/-- Where the loop of the matcher stands: at a place of the pattern and a place of the text, and,
behind an asterisk, with a place to go back to. -/
structure Cursors where
  /-- What is left of the pattern. -/
  pattern : List Char
  /-- What is left of the text. -/
  text : List Char
  /-- The pattern behind the last asterisk, and the text from the place where it was tried last. -/
  retry : Option (List Char × List Char) := none

namespace Cursors

variable {a b : Cursors} {width n : Nat}

/-- What happens at a mismatch: the pattern behind the last asterisk is tried at the next place of
the text, or there is no match. -/
def back : Option (List Char × List Char) → Cursors ⊕ Bool
  | some (ds, _ :: rest) => .inl ⟨ds, rest, some (ds, rest)⟩
  | _ => .inr false

/-- One round of the loop: the cursors behind it, or the answer. -/
def step (a : Cursors) : Cursors ⊕ Bool :=
  match a.pattern, a.text with
  | p, [] => .inr (p.all (· == '*'))
  | [], _ :: _ => back a.retry
  | d :: ds, c :: cs =>
    if d == '?' || d == c then .inl ⟨ds, cs, a.retry⟩
    else if d == '*' then .inl ⟨ds, c :: cs, some (ds, c :: cs)⟩
    else back a.retry

/-- The answer of at most `n` rounds of the loop. -/
def run : Nat → Cursors → Option Bool
  | 0, _ => none
  | n + 1, a => Sum.elim (run n) some a.step

/-! ### The answer of the loop -/

/-- What the matcher answers when it goes back. -/
def backAnswer : Option (List Char × List Char) → Bool
  | some (ds, _ :: rest) => matchAfterAsterisk ds rest
  | _ => false

/-- What the matcher answers from where the loop stands. -/
def answer (a : Cursors) : Bool :=
  match walk a.pattern a.text with
  | .finished matched => matched
  | .asterisk ds rest => matchAfterAsterisk ds rest
  | .mismatch => backAnswer a.retry

/-- Behind an asterisk the matcher walks on, or goes back to the place that it keeps. -/
lemma answer_retry (q t : List Char) : answer ⟨q, t, some (q, t)⟩ = matchAfterAsterisk q t := by
  fun_cases matchAfterAsterisk q t with
  | case1 _ matched hwalk => simp only [answer, hwalk]
  | case2 _ ds rest hwalk => simp only [answer, hwalk]
  | case3 hwalk => simp only [answer, hwalk, backAnswer]
  | case4 c cs hwalk => simp only [answer, hwalk, backAnswer]

/-- Going back keeps the answer. -/
lemma elim_back (retry : Option (List Char × List Char)) :
    Sum.elim answer id (back retry) = backAnswer retry := by
  rcases retry with _ | ⟨ds, _ | ⟨c, rest⟩⟩
  · rfl
  · rfl
  · exact answer_retry ds rest

/-- **A round of the loop keeps the answer.** -/
lemma elim_step (a : Cursors) : Sum.elim answer id a.step = a.answer := by
  obtain ⟨p, t, retry⟩ := a
  rcases t with _ | ⟨c, cs⟩
  · simp [step, answer, walk]
  rcases p with _ | ⟨d, ds⟩
  · simpa [step, answer, walk] using elim_back retry
  by_cases hd : (d == '?' || d == c) = true
  · simp [step, answer, walk, hd]
  by_cases hasterisk : (d == '*') = true
  · simpa [step, answer, walk, hd, hasterisk] using answer_retry ds (c :: cs)
  · simpa [step, answer, walk, hd, hasterisk] using elim_back retry

/-! ### The end of the loop -/

/-- No pattern of the cursors is longer than `width`, and the text at the place to go back to is no
shorter than what is left of the text. -/
structure Within (width : Nat) (a : Cursors) : Prop where
  /-- What is left of the pattern is not longer. -/
  pattern : a.pattern.length ≤ width
  /-- Nor is the pattern behind the last asterisk, where no text is passed over. -/
  retry : ∀ ds rest, a.retry = some (ds, rest) → ds.length ≤ width ∧ a.text.length ≤ rest.length

/-- The text from the place to go back to, or what is left of the text if there is none. -/
def base (a : Cursors) : List Char := (a.retry.map (·.2)).getD a.text

/-- How many rounds there can be: one for each character that is left of the pattern, and
`width + 1` for each place of the text that can be gone back to. -/
def rank (width : Nat) (a : Cursors) : Nat := a.base.length * (width + 1) + a.pattern.length

/-- What is left of the text is no longer than the text from the place to go back to. -/
lemma Within.length_text_le (h : a.Within width) : a.text.length ≤ a.base.length := by
  unfold base
  cases hretry : a.retry with
  | none => exact Nat.le_refl _
  | some place => exact (h.retry place.1 place.2 hretry).2

/-- Going back leaves a place of the text behind. -/
lemma Within.back (h : a.Within width) (hback : Cursors.back a.retry = .inl b) :
    b.Within width ∧ b.rank width < a.rank width := by
  obtain ⟨p, t, retry⟩ := a
  rcases retry with _ | ⟨ds, _ | ⟨c, rest⟩⟩
  · cases hback
  · cases hback
  · obtain rfl := Sum.inl.inj hback
    have hds : ds.length ≤ width := (h.retry ds (c :: rest) rfl).1
    refine ⟨⟨hds, fun ds' rest' heq => ?_⟩, ?_⟩
    · obtain ⟨rfl, rfl⟩ := Prod.mk.inj (Option.some.inj heq)
      exact ⟨hds, Nat.le_refl _⟩
    · show rest.length * (width + 1) + ds.length < (c :: rest).length * (width + 1) + p.length
      rw [List.length_cons, Nat.succ_mul]
      omega

/-- **A round of the loop comes nearer to the end.** -/
lemma Within.step (h : a.Within width) (hstep : a.step = .inl b) :
    b.Within width ∧ b.rank width < a.rank width := by
  have htext := h.length_text_le
  obtain ⟨p, t, retry⟩ := a
  rcases t with _ | ⟨c, cs⟩
  · simp [Cursors.step] at hstep
  rcases p with _ | ⟨d, ds⟩
  · exact h.back hstep
  have hds : ds.length < width := h.pattern
  simp only [Cursors.step] at hstep
  split at hstep
  · -- a character is taken off pattern and text
    obtain rfl := Sum.inl.inj hstep
    refine ⟨⟨Nat.le_of_lt hds, fun ds' rest hretry => ?_⟩, ?_⟩
    · obtain ⟨hds', hrest⟩ := h.retry ds' rest hretry
      exact ⟨hds', Nat.le_of_succ_le hrest⟩
    · have hbase : (base ⟨ds, cs, retry⟩).length ≤ (base ⟨d :: ds, c :: cs, retry⟩).length := by
        cases retry with
        | none => exact Nat.le_succ _
        | some place => exact Nat.le_refl _
      exact Nat.add_lt_add_of_le_of_lt (Nat.mul_le_mul_right _ hbase) (Nat.lt_succ_self _)
  · split at hstep
    · -- the place to go back to moves up to an asterisk
      obtain rfl := Sum.inl.inj hstep
      refine ⟨⟨Nat.le_of_lt hds, fun ds' rest heq => ?_⟩, ?_⟩
      · obtain ⟨rfl, rfl⟩ := Prod.mk.inj (Option.some.inj heq)
        exact ⟨Nat.le_of_lt hds, Nat.le_refl _⟩
      · exact Nat.add_lt_add_of_le_of_lt (Nat.mul_le_mul_right _ htext) (Nat.lt_succ_self _)
    · exact h.back hstep

/-- **The loop ends**, and answers what the matcher does. -/
lemma run_eq_answer (h : a.Within width) (hn : a.rank width < n) : run n a = some a.answer := by
  induction n generalizing a with
  | zero => exact absurd hn (Nat.not_lt_zero _)
  | succ n ih =>
    have hanswer := elim_step a
    rw [run]
    cases hstep : a.step with
    | inl b =>
      obtain ⟨hb, hlt⟩ := h.step hstep
      rw [hstep] at hanswer
      rw [← hanswer]
      exact ih hb (by omega)
    | inr matched =>
      rw [hstep] at hanswer
      rw [← hanswer]
      rfl

end Cursors

/-- **The matcher ends, finds what the pattern describes, and finds all of it in texts without
asterisks.** Its loop has at most as many rounds as the product of the lengths of pattern and text,
each with one more.

**Proof sketch.** Each walk takes characters off pattern and text that fit each other, so what is
matched is described. Conversely let the pattern describe some end of the text behind an asterisk.
The walk from an earlier place either fails, or it comes to the next asterisk with at least as much
of the text left, so that what the rest of the pattern describes is still an end of it. The loop
goes back to no place of the text twice, and takes a character off the pattern in every other
round. -/
theorem wildcardMatch_sound_complete (p t : List Char) :
    Cursors.run ((p.length + 1) * (t.length + 1)) ⟨p, t, none⟩ = some (wildcardMatch p t) ∧
      (wildcardMatch p t = true → Fits p t) ∧
      ('*' ∉ t → Fits p t → wildcardMatch p t = true) := by
  refine ⟨?_, fits_of_wildcardMatch, fun hasterisk h =>
    wildcardMatch_of_fits h (not_meets_of_notMem hasterisk)⟩
  have hwithin : Cursors.Within p.length ⟨p, t, none⟩ := ⟨Nat.le_refl _, fun _ _ h => by cases h⟩
  refine Cursors.run_eq_answer hwithin ?_
  show t.length * (p.length + 1) + p.length < (p.length + 1) * (t.length + 1)
  rw [Nat.mul_comm, Nat.mul_succ]
  omega

/-- A text that is described is found by the loop within the rounds that it has. -/
theorem wildcardMatch_sound_complete_dump :
    '*' ∉ "DumpJson".toList ∧ Fits "?ump*".toList "DumpJson".toList ∧
      Cursors.run 54 ⟨"?ump*".toList, "DumpJson".toList, none⟩ = some true := by
  have hasterisk : '*' ∉ "DumpJson".toList := by decide +kernel
  have hfits : Fits "?ump*".toList "DumpJson".toList := by
    simpa using (fits_append_asterisk "ump".toList "Json".toList).mark 'D'
  obtain ⟨hrun, -, hcomplete⟩ :=
    wildcardMatch_sound_complete "?ump*".toList "DumpJson".toList
  rw [hcomplete hasterisk hfits] at hrun
  exact ⟨hasterisk, hfits, hrun⟩

end BindingRules.Text
