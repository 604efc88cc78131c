import BindingRules.Directive.Reader
import Mathlib.Data.List.Infix
import Mathlib.Data.List.TakeWhile

set_option relaxedAutoImplicit false
set_option autoImplicit false

/-!
# Separators

Texts that are joined by a separator are found again when the joined text is split, if the separator
cannot be mistaken for a part of them. For a split at the first separator, the first part must not
hold it, and no beginning of the separator may be an end of it; for a split at the last one, the
second part must not hold it. A single colon is found behind a text in which all colons stand in
pairs.

## Main definitions

* `Text.Tight` — texts that are not empty and have no blanks around them.
* `Text.Borderless` — separators of which no part at the beginning is also one at the end.

## Main results

* `Text.notMem_of_splitOnce?`, `Text.splitOnce?_append` — splitting at the first separator.
* `Text.splitOnceLast?_append` — splitting at the last separator.
* `Statement.splitColon?_fst_eq_none`, `Statement.splitColon?_append_colon` — splitting at a single
  colon.
-/

namespace BindingRules.Text

variable {sep s a b x y : List Char} {c d : Char}

/-! ## Tight texts -/

/-- A text that is not empty and has no blanks around it. -/
structure Tight (s : List Char) : Prop where
  /-- It is not empty. -/
  ne_nil : s ≠ []
  /-- There are no blanks around it. -/
  trim_eq : trim s = s

/-- A tight text has no blanks in front. -/
lemma Tight.trimStart_eq (h : Tight s) : trimStart s = s := by
  rcases trimStart_eq_nil_or_cons s with hs | ⟨c, r, hs, hc⟩
  · refine absurd ?_ h.ne_nil
    rw [← h.trim_eq, trim, hs]
    rfl
  · -- a text that lost a blank in front would be shorter
    have hsuffix : trimStart s <:+ s := List.dropWhile_suffix _
    refine hsuffix.eq_of_length (Nat.le_antisymm hsuffix.length_le ?_)
    have hend : (trim s).length ≤ (trimStart s).length := by
      simp only [trim, trimEnd, List.length_reverse]
      exact (List.dropWhile_suffix _).length_le.trans (Nat.le_of_eq List.length_reverse)
    rwa [h.trim_eq] at hend

/-- A tight text has no blanks behind it. -/
lemma Tight.trimEnd_eq (h : Tight s) : trimEnd s = s := by
  have := h.trim_eq
  rwa [trim, h.trimStart_eq] at this

/-- A text that begins with a tight text has no blanks in front. -/
lemma Tight.trimStart_append (h : Tight s) (t : List Char) : trimStart (s ++ t) = s ++ t := by
  rw [trimStart_append_of_ne_nil (by rw [h.trimStart_eq]; exact h.ne_nil), h.trimStart_eq]

/-- A text that ends with a tight text has no blanks behind it. -/
lemma Tight.trimEnd_append (h : Tight s) (t : List Char) : trimEnd (t ++ s) = t ++ s := by
  have hend : s.reverse.dropWhile isBlank = s.reverse := by
    rw [← List.reverse_inj, List.reverse_reverse]
    exact h.trimEnd_eq
  have hne : s.reverse ≠ [] := by simpa using h.ne_nil
  rw [trimEnd, List.reverse_append, List.dropWhile_append, hend]
  simp [h.ne_nil]

/-- Two tight texts with anything between them make a tight text. -/
lemma Tight.append (hx : Tight x) (hy : Tight y) (s : List Char) : Tight (x ++ s ++ y) := by
  refine ⟨by simp [hx.ne_nil], ?_⟩
  rw [trim, List.append_assoc, hx.trimStart_append, ← List.append_assoc, hy.trimEnd_append]

/-- What is left of a text without the blanks around it is tight, if anything is. -/
lemma tight_trim (h : trim s ≠ []) : Tight (trim s) := ⟨h, trim_trim s⟩

/-- A text without any blanks is tight, if it is not empty. -/
lemma tight_of_not_isBlank (hne : s ≠ []) (h : ∀ c ∈ s, isBlank c = false) : Tight s := by
  have hkeep : ∀ t : List Char, (∀ c ∈ t, isBlank c = false) → t.dropWhile isBlank = t := by
    intro t ht
    cases t with
    | nil => rfl
    | cons c t => rw [List.dropWhile_cons_of_neg (by simp [ht c List.mem_cons_self])]
  refine ⟨hne, ?_⟩
  rw [trim, trimStart, hkeep s h, trimEnd, hkeep s.reverse fun c hc => h c (List.mem_reverse.1 hc),
    List.reverse_reverse]

/-- What is left of a text without the blanks behind it begins it. -/
lemma trimEnd_isPrefix (s : List Char) : trimEnd s <+: s := by
  rw [← List.reverse_suffix, trimEnd, List.reverse_reverse]
  exact List.dropWhile_suffix _

/-- What is left of a text without the blanks around it is a part of it. -/
lemma trim_isInfix (s : List Char) : trim s <:+: s :=
  (trimEnd_isPrefix (trimStart s)).isInfix.trans (List.dropWhile_suffix _).isInfix

/-- A text has no blanks in front if it does not begin with one. -/
lemma trimStart_cons_eq_self : trimStart (c :: s) = c :: s ↔ isBlank c = false := by
  cases hc : isBlank c with
  | false => simp [trimStart, hc]
  | true =>
    have hlength : (trimStart s).length ≤ s.length := (List.dropWhile_suffix _).length_le
    simp only [trimStart, List.dropWhile_cons_of_pos hc, reduceCtorEq, iff_false] at hlength ⊢
    intro h
    simp only [h, List.length_cons] at hlength
    omega

/-- The first part of a text without blanks in front has none either. -/
lemma trimStart_of_append (h : trimStart (x ++ y) = x ++ y) : trimStart x = x := by
  cases x with
  | nil => rfl
  | cons c x => exact trimStart_cons_eq_self.2 (trimStart_cons_eq_self.1 h)

/-- A text is what is left of it without the blanks behind it, with these blanks behind it. -/
lemma exists_blank_trimEnd_append (s : List Char) :
    ∃ t, s = trimEnd s ++ t ∧ ∀ c ∈ t, isBlank c = true := by
  refine ⟨(s.reverse.takeWhile isBlank).reverse, ?_, fun c hc => ?_⟩
  · rw [trimEnd, ← List.reverse_append, List.takeWhile_append_dropWhile, List.reverse_reverse]
  · exact List.mem_takeWhile_imp (List.mem_reverse.1 hc)

/-- What is left of a text without the blanks around it is the same if those behind it go first. -/
lemma trim_trimEnd (s : List Char) : trim (trimEnd s) = trim s := by
  obtain ⟨t, hs, hblank⟩ := exists_blank_trimEnd_append s
  conv_rhs => rw [hs, trim_append_blank hblank]

/-- A text without blanks in front has at most blanks behind what is left without them. -/
lemma exists_blank_of_trimStart (h : trimStart s = s) :
    ∃ t, s = trim s ++ t ∧ ∀ c ∈ t, isBlank c = true := by
  rw [trim, h]
  exact exists_blank_trimEnd_append s

/-- A text is what is left of it without the blanks around it, with these blanks around it. -/
lemma exists_blank_append_trim (s : List Char) : ∃ lead trail, s = lead ++ trim s ++ trail ∧
    (∀ c ∈ lead, isBlank c = true) ∧ ∀ c ∈ trail, isBlank c = true := by
  have hstart : trimStart (trimStart s) = trimStart s := by
    rcases trimStart_eq_nil_or_cons s with h | ⟨c, r, h, hc⟩
    · rw [h]; rfl
    · rw [h, trimStart_cons_eq_self.2 hc]
  obtain ⟨trail, hjoin, htrail⟩ := exists_blank_of_trimStart hstart
  rw [trim, hstart, ← trim] at hjoin
  refine ⟨s.takeWhile isBlank, trail, ?_, fun c hc => List.mem_takeWhile_imp hc, htrail⟩
  rw [List.append_assoc, ← hjoin, trimStart, List.takeWhile_append_dropWhile]

/-- No blanks stand in front of a text when those around it are gone. -/
lemma trimStart_trim (s : List Char) : trimStart (trim s) = trim s := by
  by_cases h : trim s = []
  · rw [h]; rfl
  · exact (tight_trim h).trimStart_eq

/-- Text is trimmed at its end behind any other text, if there is anything to trim it to. -/
lemma trimEnd_append_of_ne_nil (h : trimEnd s ≠ []) (x : List Char) :
    trimEnd (x ++ s) = x ++ trimEnd s := by
  have hreverse : trimStart s.reverse ≠ [] := by simpa [trimEnd, trimStart] using h
  simp only [trimEnd, List.reverse_append]
  rw [← trimStart, trimStart_append_of_ne_nil hreverse]
  simp [trimStart]

/-- A character that is no blank stays when the blanks around a text go. -/
lemma mem_trim (hc : isBlank c = false) (h : c ∈ s) : c ∈ trim s := by
  obtain ⟨lead, trail, hs, hlead, htrail⟩ := exists_blank_append_trim s
  rw [hs, List.mem_append, List.mem_append] at h
  rcases h with (h | h) | h
  · rw [hlead c h] at hc
    cases hc
  · exact h
  · rw [htrail c h] at hc
    cases hc

/-- Nothing is left of a text exactly if all of it is blank. -/
lemma trim_eq_nil_iff : trim s = [] ↔ ∀ c ∈ s, isBlank c = true := by
  refine ⟨fun h => ?_, fun h => ?_⟩
  · obtain ⟨lead, trail, hs, hlead, htrail⟩ := exists_blank_append_trim s
    rw [h, List.append_nil] at hs
    rw [hs]
    exact fun c hc => (List.mem_append.1 hc).elim (hlead c) (htrail c)
  · simpa [trim, trimStart, trimEnd] using trim_append_blank h []

/-! ## Last characters -/

/-- What ends a text ends as the text does. -/
lemma getLast?_of_isSuffix (h : x <:+ y) (hx : x ≠ []) : y.getLast? = x.getLast? := by
  obtain ⟨z, rfl⟩ := h
  exact List.getLast?_append_of_ne_nil z hx

/-- The last character of a tight text is no blank. -/
lemma Tight.isBlank_of_getLast? (h : Tight s) (hc : s.getLast? = some c) : isBlank c = false := by
  obtain ⟨front, rfl⟩ := List.getLast?_eq_some_iff.1 hc
  have hreverse := h.trimEnd_eq
  rw [trimEnd, List.reverse_eq_iff, List.reverse_append] at hreverse
  exact (trimStart_cons_eq_self (s := front.reverse)).1 hreverse

/-- The end of a tight text is one of its last part, without the blanks around that part. -/
lemma Tight.getLast?_trim (h : Tight s) (hx : x <:+ s) (hne : trim x ≠ []) :
    (trim x).getLast? = s.getLast? := by
  obtain ⟨lead, trail, hjoin, -, htrail⟩ := exists_blank_append_trim x
  rcases List.eq_nil_or_concat trail with rfl | ⟨trail, c, rfl⟩
  · refine (getLast?_of_isSuffix (List.IsSuffix.trans ⟨lead, ?_⟩ hx) hne).symm
    rw [← List.append_nil (lead ++ trim x), ← hjoin]
  · have hlast : s.getLast? = some c := by
      rw [getLast?_of_isSuffix hx (by rw [hjoin]; simp), hjoin]
      simp
    have hblank := htrail c (by simp)
    rw [h.isBlank_of_getLast? hlast] at hblank
    cases hblank

/-! ## Occurrences of a separator -/

/-- A part at the end of the separator is no part at its beginning, unless it is all of it. -/
def Borderless (sep : List Char) : Prop :=
  ∀ p q, p ≠ [] → q ≠ [] → sep = p ++ q → ¬ q <+: sep

/-- Nothing is left behind a separator with which a text does not begin. -/
lemma isPrefixOf?_eq_none_iff : sep.isPrefixOf? s = none ↔ ¬ sep <+: s := by
  rw [← List.isPrefixOf_iff_prefix, ← List.isSome_isPrefixOf?_eq_isPrefixOf]
  cases sep.isPrefixOf? s <;> simp

/-- Whether a text holds a part. -/
lemma occursIn_iff : occursIn sep s = true ↔ sep <:+: s := by
  induction s with
  | nil => simp [occursIn]
  | cons c s ih =>
    rw [occursIn, Bool.or_eq_true, ih, List.infix_cons_iff, List.isPrefixOf_iff_prefix]

/-- A pair of which the first part was changed comes from a pair with the same second part. -/
lemma exists_of_map_fst {x : Option (List Char × List Char)} {f : List Char → List Char}
    (h : x.map (fun p => (f p.1, p.2)) = some (a, b)) : ∃ a', x = some (a', b) ∧ f a' = a := by
  obtain ⟨⟨a', b'⟩, hx, hp⟩ := Option.map_eq_some_iff.1 h
  obtain ⟨rfl, rfl⟩ := Prod.mk.inj hp
  exact ⟨a', hx, rfl⟩

/-- In front of the first separator there is none. -/
lemma notMem_of_splitOnce? (hsep : sep ≠ []) (h : splitOnce? sep s = some (a, b)) :
    ¬ sep <:+: a := by
  induction s generalizing a with
  | nil => simp [splitOnce?] at h
  | cons c s ih =>
    simp only [splitOnce?] at h
    split at h
    · obtain ⟨rfl, rfl⟩ := Prod.mk.inj (Option.some.inj h)
      simpa using hsep
    · rename_i hnone
      obtain ⟨a', hs, rfl⟩ := exists_of_map_fst (f := List.cons c) h
      rw [List.infix_cons_iff]
      rintro (⟨rest, hrest⟩ | hpart)
      · have hjoin := append_of_splitOnce? hs
        have hbegins : sep ++ (rest ++ sep ++ b) = c :: s := by
          rw [← hjoin, ← List.append_assoc, ← List.append_assoc, hrest]
          rfl
        exact isPrefixOf?_eq_none_iff.1 hnone ⟨_, hbegins⟩
      · exact ih hs hpart

/-- **A text is split at the separator** behind its first part, if that part does not hold it.

**Proof sketch.** Induction on the first part. The separator does not stand at its beginning: it
would either be inside the first part, or end inside the separator that follows, and then one of its
ends would be one of its beginnings. -/
lemma splitOnce?_append (hsep : sep ≠ []) (hborder : Borderless sep) (h : ¬ sep <:+: a)
    (b : List Char) : splitOnce? sep (a ++ sep ++ b) = some (a, b) := by
  induction a with
  | nil =>
    cases hs : sep with
    | nil => exact absurd hs hsep
    | cons d rest =>
      have hbegins : (d :: rest).isPrefixOf? (d :: rest ++ b) = some b :=
        List.isPrefixOf?_eq_some_iff_append_eq.2 rfl
      simp only [List.nil_append, List.cons_append] at hbegins ⊢
      rw [splitOnce?, hbegins]
  | cons c a ih =>
    have hnot : ∀ rest, sep ++ rest ≠ c :: (a ++ sep ++ b) := by
      intro rest hrest
      have hjoin : sep ++ rest = (c :: a) ++ (sep ++ b) := by rw [hrest]; simp
      rcases List.append_eq_append_iff.1 hjoin with ⟨t, ht, -⟩ | ⟨t, ht, hb⟩
      · exact h ⟨[], t, by simp [← ht]⟩
      · -- the separator would begin inside the first part and end behind it
        rcases t with _ | ⟨d, t⟩
        · exact h ⟨[], [], by simpa using ht⟩
        · refine hborder (c :: a) (d :: t) (List.cons_ne_nil _ _) (List.cons_ne_nil _ _) ht ?_
          refine List.prefix_of_prefix_length_le ⟨rest, hb.symm⟩ (List.prefix_append sep b) ?_
          have := congrArg List.length ht
          simp only [List.length_append, List.length_cons] at this ⊢
          omega
    have hnone : sep.isPrefixOf? (c :: (a ++ sep ++ b)) = none :=
      isPrefixOf?_eq_none_iff.2 fun hbegins => hbegins.elim hnot
    have htail : ¬ sep <:+: a := fun hpart => h (List.infix_cons_iff.2 (.inr hpart))
    simp only [List.cons_append] at hnone ⊢
    rw [splitOnce?, hnone, ih htail]
    rfl

/-- A separator does not occur across a character that it does not hold. -/
lemma not_infix_append_cons (hx : ¬ sep <:+: x) (hy : ¬ sep <:+: y) (hd : d ∉ sep) :
    ¬ sep <:+: x ++ d :: y := by
  intro h
  have hbegin : ∀ {t}, t <+: d :: y → d ∉ t → t = [] := by
    intro t ht hdt
    cases t with
    | nil => rfl
    | cons e t =>
      obtain rfl : e = d := (List.cons_prefix_cons.1 ht).1
      exact absurd List.mem_cons_self hdt
  rcases List.infix_append_iff.1 h with h | h | ⟨t, u, rfl, ht, hu⟩
  · exact hx h
  · rcases List.infix_cons_iff.1 h with h | h
    · exact hy (hbegin h hd ▸ List.nil_infix)
    · exact hy h
  · obtain rfl := hbegin hu fun hmem => hd (List.mem_append_right _ hmem)
    exact hx (by simpa using ht.isInfix)

/-! ## The last separator -/

/-- A text without a character cannot be split at it. -/
lemma splitOnceLast?_eq_none (h : c ∉ s) : splitOnceLast? [c] s = none := by
  induction s with
  | nil => rfl
  | cons d s ih =>
    obtain ⟨hd, hs⟩ := not_or.1 (mt List.mem_cons.2 h)
    rw [splitOnceLast?, ih hs]
    simp [List.isPrefixOf?, hd]

/-- **A text is split at a character** in front of its last part, if that part does not hold it. -/
lemma splitOnceLast?_append (h : c ∉ b) (a : List Char) :
    splitOnceLast? [c] (a ++ c :: b) = some (a, b) := by
  induction a with
  | nil =>
    rw [List.nil_append, splitOnceLast?, splitOnceLast?_eq_none h]
    simp [List.isPrefixOf?]
  | cons d a ih => rw [List.cons_append, splitOnceLast?, ih]

end BindingRules.Text

namespace BindingRules.Statement

open Text

variable {s a b x y : List Char} {c : Char}

/-! ## Single colons -/

/-- The parts in front of a single colon and behind it, joined by it, are the text. -/
lemma append_of_splitColon? (h : splitColon? s = some (a, b)) : a ++ ':' :: b = s := by
  fun_induction splitColon? s generalizing a b with
  | case1 => simp at h
  | case2 cs ih =>
    obtain ⟨a', hs, rfl⟩ := exists_of_map_fst (f := fun a => ':' :: ':' :: a) h
    simp [ih hs]
  | case3 cs hcs =>
    obtain ⟨rfl, rfl⟩ := Prod.mk.inj (Option.some.inj h)
    rfl
  | case4 c cs h₁ h₂ ih =>
    obtain ⟨a', hs, rfl⟩ := exists_of_map_fst (f := List.cons c) h
    simp [ih hs]

/-- A character that is no colon is passed over. -/
lemma splitColon?_cons (hc : c ≠ ':') (s : List Char) :
    splitColon? (c :: s) = (splitColon? s).map fun (a, b) => (c :: a, b) := by
  rw [splitColon?.eq_def]
  split <;> simp_all

/-- In front of the first single colon there is none. -/
lemma splitColon?_fst_eq_none (h : splitColon? s = some (a, b)) : splitColon? a = none := by
  fun_induction splitColon? s generalizing a b with
  | case1 => simp at h
  | case2 cs ih =>
    obtain ⟨a', hs, rfl⟩ := exists_of_map_fst (f := fun a => ':' :: ':' :: a) h
    simp [splitColon?, ih hs]
  | case3 cs hcs =>
    obtain ⟨rfl, rfl⟩ := Prod.mk.inj (Option.some.inj h)
    rfl
  | case4 c cs h₁ h₂ ih =>
    obtain ⟨a', hs, rfl⟩ := exists_of_map_fst (f := List.cons c) h
    rw [splitColon?_cons h₂, ih hs]
    rfl

/-- Behind the first single colon there is no colon. -/
lemma head?_of_splitColon? (h : splitColon? s = some (a, b)) : b.head? ≠ some ':' := by
  fun_induction splitColon? s generalizing a b with
  | case1 => simp at h
  | case2 cs ih =>
    obtain ⟨a', hs, rfl⟩ := exists_of_map_fst (f := fun a => ':' :: ':' :: a) h
    exact ih hs
  | case3 cs hcs =>
    obtain ⟨rfl, rfl⟩ := Prod.mk.inj (Option.some.inj h)
    cases cs with
    | nil => simp
    | cons d cs => simpa using fun hd : d = ':' => hcs cs (by rw [hd])
  | case4 c cs h₁ h₂ ih =>
    obtain ⟨a', hs, rfl⟩ := exists_of_map_fst (f := List.cons c) h
    exact ih hs

/-- Behind a text without single colons, they are looked for as if it were not there. -/
lemma splitColon?_append (h : splitColon? x = none) (y : List Char) :
    splitColon? (x ++ y) = (splitColon? y).map fun (a, b) => (x ++ a, b) := by
  fun_induction splitColon? x with
  | case1 => simp
  | case2 cs ih =>
    rw [List.cons_append, List.cons_append, splitColon?, ih (by simpa using h)]
    simp [Function.comp_def]
  | case3 cs hcs => simp at h
  | case4 c cs h₁ h₂ ih =>
    rw [List.cons_append, splitColon?_cons h₂, ih (by simpa using h)]
    simp [Function.comp_def]

/-- **A text is split at the first single colon** behind its first part, if that part has no single
colon. -/
lemma splitColon?_append_colon (h : splitColon? a = none) (hb : b.head? ≠ some ':') :
    splitColon? (a ++ ':' :: b) = some (a, b) := by
  have hcolon : splitColon? (':' :: b) = some ([], b) := by
    rw [splitColon?.eq_def]
    split
    · next heq => cases heq
    · next heq => simp [(List.cons.inj heq).2] at hb
    · next heq => rw [(List.cons.inj heq).2]
    · next hne heq => exact absurd (List.cons.inj heq).1.symm hne
  simp [splitColon?_append h, hcolon]

/-- A beginning of a text without single colons has none, unless it ends at a half of a scope
separator. -/
lemma splitColon?_of_append (h : splitColon? (x ++ y) = none) (hy : y.head? ≠ some ':') :
    splitColon? x = none := by
  by_contra hne
  obtain ⟨⟨a, b⟩, hx⟩ := Option.ne_none_iff_exists'.1 hne
  have hjoin := append_of_splitColon? hx
  have hnone := splitColon?_fst_eq_none hx
  have hb : (b ++ y).head? ≠ some ':' := by
    cases b with
    | nil => exact hy
    | cons d b => simpa using head?_of_splitColon? hx
  have := splitColon?_append_colon hnone hb
  rw [← List.cons_append, ← List.append_assoc, hjoin, h] at this
  cases this

/-- A text has no single colon without the blanks behind it if it has none with them. -/
lemma splitColon?_trim (h : splitColon? a = none) (hstart : trimStart a = a) :
    splitColon? (trim a) = none := by
  obtain ⟨t, hjoin, hblank⟩ := exists_blank_of_trimStart hstart
  refine splitColon?_of_append (hjoin ▸ h) fun hhead => ?_
  exact absurd (hblank ':' (List.mem_of_mem_head? hhead)) (by decide)

end BindingRules.Statement
