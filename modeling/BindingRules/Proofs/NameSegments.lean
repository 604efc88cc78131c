import BindingRules.Proofs.NameCuts

set_option relaxedAutoImplicit false
set_option autoImplicit false

/-!
# Segments and their pieces

A piece of a name stands for a segment: an operator and a piece without template arguments for its
own text, and a template for its identifier. The segment is read back from its text, and its
identifier is passed over behind any other segment, since neither the blanks around a piece nor the
pieces in front of it change which of its brackets and parentheses belong to an operator.

## Main definitions

* `Segment.Sound` — segments as they stand in a name.

## Main results

* `Passes.of_blank_append`, `Passes.trim` — a text that is passed over behind one segment is passed
  over behind any other.
* `Segment.ofChars_chars` — a segment is read back from its text.
* `IsPiece.sound` — the segment of a piece is as it stands in a name.
-/

namespace BindingRules

open Text

variable {first : Bool} {before before' lead u v x y p : List Char} {c : Char} {s : Segment}

/-! ## The word for operators -/

/-- A text that goes on with another character than those of the word for operators begins with the
word only if it does so before that character. -/
lemma operatorWord_isPrefix_append_cons (hc : c ∉ operatorWord) :
    operatorWord <+: u ++ c :: v ↔ operatorWord <+: u := by
  refine ⟨fun h => ?_, fun h => h.trans (List.prefix_append u _)⟩
  rcases List.prefix_or_prefix_of_prefix h (List.prefix_append u (c :: v)) with hword | ⟨w, hw⟩
  · exact hword
  · cases w with
    | nil => rw [← hw, List.append_nil]
    | cons d w =>
      -- the word would go on with the character behind the first text
      rw [← hw, List.prefix_append_right_inj, List.cons_prefix_cons] at h
      exact absurd (hw ▸ List.mem_append_right u (h.1 ▸ List.mem_cons_self)) hc

/-- A text that is joined to one with another last character than those of the word for operators
ends in the word for itself if the joined text does. -/
lemma operatorWord_isSuffix_of_append (hx : ∀ c, x.getLast? = some c → c ∉ operatorWord)
    (h : operatorWord <:+ x ++ y) : operatorWord <:+ y := by
  rcases List.suffix_or_suffix_of_suffix h (List.suffix_append x y) with hword | ⟨w, hw⟩
  · exact hword
  · rw [← hw, List.suffix_append_self_iff] at h
    rcases List.eq_nil_or_concat w with rfl | ⟨w, c, rfl⟩
    · rw [← hw, List.nil_append]
    · obtain ⟨x', rfl⟩ := h
      exact absurd (hw ▸ by simp) (hx c (by simp))

/-- A piece that begins with the word does not begin with a colon. -/
lemma operatorWord_isPrefix_sinceStart (h : operatorWord <+: trimStart u) :
    operatorWord <+: trimStart (sinceStart first u) := by
  rw [sinceStart]
  split
  · next hcolon =>
    obtain ⟨tail, rfl⟩ := List.head?_eq_some_iff.1 hcolon.2
    rw [trimStart_cons_eq_self.2 (by decide)] at h
    exact absurd (List.cons_prefix_cons.1 h).1 (by decide)
  · exact h

/-! ## Pieces behind other pieces -/

/-- In front of a segment, with blanks between, nothing belongs to the word for operators. -/
lemma Begins.notMem_operatorWord (hbegins : Begins first before)
    (hlead : ∀ c ∈ lead, isBlank c = true) (c : Char)
    (h : (before.reverse ++ lead).getLast? = some c) : c ∉ operatorWord := by
  intro hc
  rw [List.getLast?_append, Option.or_eq_some_iff] at h
  rcases h with h | ⟨-, h⟩
  · have hword : operatorWord.any isBlank = false := rfl
    rw [List.any_eq_true.2 ⟨c, hc, hlead c (List.mem_of_getLast? h)⟩] at hword
    cases hword
  · cases hbegins with
    | first => cases h
    | later rest =>
      rw [List.getLast?_reverse, List.head?_cons] at h
      obtain rfl := Option.some.inj h
      exact absurd hc (by decide)

/-- What stands in front of a segment does not end in a blank. -/
lemma Begins.trimEnd_reverse (hbegins : Begins first before) :
    trimEnd before.reverse = before.reverse := by
  cases hbegins with
  | first => rfl
  | later rest =>
    simpa [scopeMark] using tight_scopeMark.trimEnd_append rest.reverse

/-- A character of a piece that belongs to an operator belongs to one without the blanks in front of
the piece as well, also behind other pieces. -/
lemma inOperator_of_blank_append (hbegins : Begins first before) (hbegins' : Begins first before')
    (hlead : ∀ c ∈ lead, isBlank c = true) (hmark : ¬ scopeMark <:+: lead ++ u)
    (h : inOperator ((lead ++ u).reverse ++ before) = true) :
    inOperator (u.reverse ++ before') = true := by
  have hu : ¬ scopeMark <:+: u := fun hpart =>
    hmark (hpart.trans (List.suffix_append lead u).isInfix)
  rw [inOperator_reverse_append hbegins hmark, List.isPrefixOf_iff_prefix] at h
  rw [inOperator_reverse_append hbegins' hu, List.isPrefixOf_iff_prefix]
  cases lead with
  | nil => exact h
  | cons d lead =>
    have hd : d ≠ ':' := by
      rintro rfl
      exact absurd (hlead ':' List.mem_cons_self) (by decide)
    refine operatorWord_isPrefix_sinceStart ?_
    rw [← trimStart_blank_append hlead u]
    simpa [sinceStart, hd] using h

/-- A parenthesis of a piece that belongs to the call operator belongs to it without the blanks in
front of the piece as well, also behind other pieces. -/
lemma isCall_of_blank_append {rest : List Char} (hbegins : Begins first before)
    (hlead : ∀ c ∈ lead, isBlank c = true)
    (h : isCall ((lead ++ u).reverse ++ before) rest = true) :
    isCall (u.reverse ++ before') rest = true := by
  obtain ⟨hword, hclose⟩ := isCall_iff.1 h
  refine isCall_iff.2 ⟨?_, hclose⟩
  rw [List.reverse_append, List.reverse_reverse] at hword ⊢
  rw [← List.append_assoc] at hword
  by_cases hu : trimEnd u = []
  · -- only blanks are between the front of the piece and the parenthesis
    have hblank : ∀ c ∈ u, isBlank c = true := by
      simpa [trimEnd, List.dropWhile_eq_nil_iff] using hu
    rw [trimEnd_append_blank hblank, trimEnd_append_blank hlead, hbegins.trimEnd_reverse] at hword
    have hend : ∀ c, (before.reverse ++ []).getLast? = some c → c ∉ operatorWord :=
      hbegins.notMem_operatorWord (by simp)
    rw [← List.append_nil before.reverse, ← List.append_nil (_ ++ _)] at hword
    exact absurd (List.suffix_nil.1 (operatorWord_isSuffix_of_append hend hword)) (by decide)
  · rw [trimEnd_append_of_ne_nil hu] at hword ⊢
    exact (operatorWord_isSuffix_of_append (hbegins.notMem_operatorWord hlead) hword).trans
      (List.suffix_append _ _)

/-- **What is passed over behind one segment is passed over behind any other**, and without the
blanks around it.

**Proof sketch.** Induction on what is left of the text, with `u` the part passed over so far.
Blanks in front of a segment change neither which brackets nor which parentheses belong to its
operator. -/
lemma Passes.of_blank_append (hbegins : Begins first before) (hbegins' : Begins first before')
    (hlead : ∀ c ∈ lead, isBlank c = true) (hmark : ¬ scopeMark <:+: lead ++ (u ++ v))
    (h : Passes ((lead ++ u).reverse ++ before) v) : Passes (u.reverse ++ before') v := by
  induction v generalizing u with
  | nil => trivial
  | cons c v ih =>
    obtain ⟨hbracket, hcall, hcolon, hrest⟩ := h
    have hu : ¬ scopeMark <:+: lead ++ u := fun hpart =>
      hmark (hpart.trans (by rw [← List.append_assoc]; exact (List.prefix_append _ _).isInfix))
    refine ⟨fun hc => inOperator_of_blank_append hbegins hbegins' hlead hu (hbracket hc),
      fun hc => isCall_of_blank_append hbegins hlead (hcall hc), hcolon, ?_⟩
    have := ih (u := u ++ [c]) (by simpa using hmark) (by simpa using hrest)
    simpa using this

/-- The rest of a text that is passed over is passed over behind the first part. -/
lemma Passes.append_right (h : Passes before (u ++ v)) : Passes (u.reverse ++ before) v := by
  induction u generalizing before with
  | nil => exact h
  | cons c u ih => simpa using ih h.2.2.2

/-- What is left of a text that is passed over, without the blanks around it, is passed over behind
any segment. -/
lemma Passes.trim (hbegins : Begins first before) (hbegins' : Begins first before')
    (h : Passes before u) : Passes before' (trim u) := by
  obtain ⟨lead, trail, hu, hlead, htrail⟩ := exists_blank_append_trim u
  have hfront : Passes before (lead ++ Text.trim u) := by
    refine Passes.of_append (v := trail) (hu ▸ h) fun hhead => ?_
    exact absurd (htrail ')' (List.mem_of_mem_head? hhead)) (by decide)
  have hmark := hfront.not_scopeMark
  exact Passes.of_blank_append (u := []) hbegins hbegins' hlead hmark
    (by simpa using hfront.append_right)

/-! ## Segments -/

namespace Segment

/-- The text of a segment: its identifier, with the mark for template arguments if it has one. -/
lemma chars_eq_base (s : Segment) :
    s.chars = s.base.toList ∨ s.chars = s.base.toList ++ templateMark := by
  cases s with
  | exact text => exact .inl rfl
  | template base => exact .inr rfl
  | glob pattern =>
    rw [base]
    split
    · next hmark =>
      obtain ⟨front, hfront⟩ := List.isSuffixOf_iff_suffix.1 hmark
      right
      rw [chars, ← hfront]
      simp [templateMark]
    · exact .inl rfl

/-- The segment for a template with the identifier `b`. -/
def marked (b : List Char) : Segment :=
  if hasWildcard b then .glob (String.ofList (b ++ templateMark)) else .template (String.ofList b)

/-- The text of a template is its identifier with the mark for template arguments. -/
lemma chars_marked (b : List Char) : (marked b).chars = b ++ templateMark := by
  rw [marked]
  split <;> simp [chars]

/-- The identifier of a template is the one that it is made for. -/
lemma base_marked (b : List Char) : (marked b).base.toList = b := by
  rw [marked]
  split
  · have hmark : templateMark.isSuffixOf (b ++ templateMark) = true :=
      List.isSuffixOf_iff_suffix.2 (List.suffix_append _ _)
    rw [base, String.toList_ofList, if_pos hmark, String.toList_ofList, templateMark]
    simp
  · simp [base]

/-- A piece with template arguments, unless it is an operator, stands for a template. -/
lemma ofChars_eq_marked (hoperator : ¬ operatorWord <+: trim p) (hbracket : '<' ∈ trim p) :
    ofChars p = marked (trim (Text.before '<' (trim p))) := by
  simp [ofChars, marked, List.isPrefixOf_iff_prefix, hoperator, hbracket]

/-- An operator, and a piece without template arguments, stands for its own text. -/
lemma ofChars_own_text (h : operatorWord <+: trim p ∨ '<' ∉ trim p) :
    (ofChars p).base.toList = trim p ∧ (ofChars p).chars = trim p := by
  rw [ofChars]
  by_cases hoperator : operatorWord <+: trim p
  · simp [List.isPrefixOf_iff_prefix, hoperator, base, chars]
  · have hbracket : '<' ∉ trim p := h.resolve_left hoperator
    simp only [List.isPrefixOf_iff_prefix, hoperator, if_false, List.contains_iff_mem, hbracket,
      plain]
    split
    · have hmark : ¬ templateMark <:+ trim p := fun hsuffix =>
        hbracket (hsuffix.subset List.mem_cons_self)
      simp [base, chars, List.isSuffixOf_iff_suffix, hmark]
    · simp [base, chars]

/-- The mark for template arguments ends in a bracket. -/
lemma getLast?_append_templateMark (b : List Char) : (b ++ templateMark).getLast? = some '>' :=
  List.getLast?_append_of_ne_nil b (List.cons_ne_nil _ _)

/-- A segment whose text does not end in a bracket stands for the text of its piece. -/
lemma chars_ofChars_eq_trim (h : (ofChars p).chars.getLast? ≠ some '>') :
    (ofChars p).chars = trim p := by
  by_cases hown : operatorWord <+: trim p ∨ '<' ∉ trim p
  · exact (ofChars_own_text hown).2
  · obtain ⟨hoperator, hbracket⟩ := not_or.1 hown
    rw [ofChars_eq_marked hoperator (not_not.1 hbracket), chars_marked] at h
    exact absurd (getLast?_append_templateMark _) h

/-- The identifier in front of template arguments has no bracket. -/
lemma bracket_notMem_identifier (p : List Char) : '<' ∉ trim (Text.before '<' p) := by
  intro h
  simpa using List.mem_takeWhile_imp ((trim_isInfix _).subset h)

/-- The identifier in front of template arguments begins the piece. -/
lemma identifier_isPrefix (p : List Char) : trim (Text.before '<' (trim p)) <+: trim p := by
  have hbegin : Text.before '<' (trim p) <+: trim p := List.takeWhile_prefix _
  obtain ⟨rest, hrest⟩ := hbegin
  have hstart : trimStart (Text.before '<' (trim p)) = Text.before '<' (trim p) :=
    trimStart_of_append (hrest ▸ trimStart_trim p)
  obtain ⟨blank, hblank, -⟩ := exists_blank_of_trimStart hstart
  have hidentifier : trim (Text.before '<' (trim p)) <+: Text.before '<' (trim p) :=
    ⟨blank, hblank.symm⟩
  exact hidentifier.trans ⟨rest, hrest⟩

/-- **A segment is read back from its text**, which has no blanks around it. -/
lemma ofChars_chars (h : trim p ≠ []) :
    ofChars (ofChars p).chars = ofChars p ∧ Tight (ofChars p).chars := by
  by_cases hown : operatorWord <+: trim p ∨ '<' ∉ trim p
  · rw [(ofChars_own_text hown).2]
    exact ⟨by simp only [ofChars, trim_trim], tight_trim h⟩
  · obtain ⟨hoperator, hbracket⟩ := not_or.1 hown
    rw [not_not] at hbracket
    have hmem := bracket_notMem_identifier (trim p)
    have hword : ¬ operatorWord <+: trim (Text.before '<' (trim p)) := fun hword =>
      hoperator (hword.trans (identifier_isPrefix p))
    rw [ofChars_eq_marked hoperator hbracket, chars_marked]
    generalize hb : trim (Text.before '<' (trim p)) = b at hmem hword ⊢
    have hmark : Tight templateMark := ⟨by decide, by decide⟩
    have htight : Tight (b ++ templateMark) := by
      by_cases hnil : b = []
      · rw [hnil]; exact hmark
      · simpa using Tight.append ⟨hnil, hb ▸ trim_trim _⟩ hmark []
    refine ⟨?_, htight⟩
    have hbefore : Text.before '<' (b ++ templateMark) = b := by
      rw [before_append_of_notMem hmem]
      exact List.append_nil b
    rw [ofChars_eq_marked, htight.trim_eq, hbefore, ← hb, trim_trim]
    · rwa [htight.trim_eq, templateMark, operatorWord_isPrefix_append_cons (by decide)]
    · rw [htight.trim_eq]
      exact List.mem_append_right _ List.mem_cons_self

end Segment

namespace Segment

/-- A segment as it stands in a name: its identifier is passed over, its text has no blanks around
it, and it is read back from its text. -/
structure Sound (first : Bool) (s : Segment) : Prop where
  /-- The identifier is passed over behind any segment. -/
  passes : ∀ before, Begins first before → Passes before s.base.toList
  /-- The segment is read back from its text. -/
  ofChars_chars : ofChars s.chars = s
  /-- The text has no blanks around it. -/
  tight : Tight s.chars

end Segment

/-- An operator is passed over to its end. -/
lemma IsPiece.passes_of_operator (hbegins : Begins first before) (h : IsPiece before p)
    (hoperator : operatorWord <+: trim p) : Passes before p := by
  obtain ⟨head, tail, rfl, hpasses, htail⟩ := h
  rcases htail with rfl | ⟨hbracket, hout⟩
  · simpa using hpasses
  · -- the word would stand in front of the first bracket, which would belong to the operator
    obtain ⟨tail, rfl⟩ := List.head?_eq_some_iff.1 hbracket
    have hword : operatorWord <+: trimStart (head ++ '<' :: tail) :=
      hoperator.trans (trimEnd_isPrefix _)
    rw [inOperator_reverse_append hbegins hpasses.not_scopeMark] at hout
    by_cases hnil : trimStart head = []
    · rw [trimStart_append_of_nil hnil, trimStart_cons_eq_self.2 (by decide)] at hword
      exact absurd (List.cons_prefix_cons.1 hword).1 (by decide)
    · rw [trimStart_append_of_ne_nil hnil, operatorWord_isPrefix_append_cons (by decide)] at hword
      rw [List.isPrefixOf_iff_prefix.2 (operatorWord_isPrefix_sinceStart hword)] at hout
      cases hout

/-- A piece is passed over up to its first bracket. -/
lemma IsPiece.passes_before_bracket (h : IsPiece before p) :
    Passes before (Text.before '<' p) := by
  obtain ⟨head, tail, rfl, hpasses, htail⟩ := h
  have hjoin : head.takeWhile (· != '<') ++ head.dropWhile (· != '<') = head :=
    List.takeWhile_append_dropWhile
  have hfront : Text.before '<' (head ++ tail) = Text.before '<' head := by
    by_cases hmem : '<' ∈ head
    · exact before_append_of_mem hmem tail
    · rw [before_append_of_notMem hmem, before_eq_self hmem]
      rcases htail with rfl | ⟨hbracket, -⟩
      · exact List.append_nil head
      · obtain ⟨tail, rfl⟩ := List.head?_eq_some_iff.1 hbracket
        simp [Text.before]
  rw [hfront]
  refine Passes.of_append (v := head.dropWhile (· != '<')) (hjoin.symm ▸ hpasses) fun hhead => ?_
  have := List.head?_dropWhile_not (· != '<') head
  simp [hhead] at this

/-- The segment of a piece is as it stands in a name. -/
lemma IsPiece.sound (hbegins : Begins first before) (h : IsPiece before p) (hblank : trim p ≠ []) :
    (Segment.ofChars p).Sound first := by
  obtain ⟨hread, htight⟩ := Segment.ofChars_chars hblank
  refine ⟨fun before' hbegins' => ?_, hread, htight⟩
  by_cases hown : operatorWord <+: trim p ∨ '<' ∉ trim p
  · rw [(Segment.ofChars_own_text hown).1]
    refine Passes.trim hbegins hbegins' ?_
    rcases hown with hoperator | hbracket
    · exact h.passes_of_operator hbegins hoperator
    · have hfront : Text.before '<' p = p := by
        refine List.takeWhile_eq_self_iff.2 fun c hc => ?_
        have hne : c ≠ '<' := by
          rintro rfl
          exact hbracket (mem_trim (by decide) hc)
        simpa using hne
      exact hfront ▸ h.passes_before_bracket
  · obtain ⟨hoperator, hbracket⟩ := not_or.1 hown
    rw [Segment.ofChars_eq_marked hoperator (not_not.1 hbracket), Segment.base_marked]
    obtain ⟨lead, trail, hp, hlead, htrail⟩ := exists_blank_append_trim p
    have hlead' : '<' ∉ lead := fun hmem => absurd (hlead '<' hmem) (by decide)
    have hfront : Text.before '<' p = lead ++ Text.before '<' (trim p) := by
      conv_lhs => rw [hp]
      rw [before_append_of_mem (List.mem_append_right lead (not_not.1 hbracket)),
        before_append_of_notMem hlead']
    rw [← trim_blank_append hlead, ← hfront]
    exact Passes.trim hbegins hbegins' h.passes_before_bracket

end BindingRules
