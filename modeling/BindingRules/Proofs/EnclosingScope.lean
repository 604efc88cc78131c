import BindingRules.Proofs.MemberExclusion
import BindingRules.Proofs.Spelling

set_option relaxedAutoImplicit false
set_option autoImplicit false

/-!
# The scope in front of the last segment

Two searches look for scope separators outside of template brackets. One cuts a text into the
segments of a name, behind which it has cut the signature off; it knows which brackets belong to
operators and refuses brackets that do not match. The other one looks for the scope around a member,
counts every bracket and stops at the first parenthesis outside of them. Where no operator stands in
front of the last segment, both find the same last separator, so the scope that is found is read as
the segments in front of the last one.

## Main definitions

* `Name.scopeChars`, `Name.lastChars` — what stands in front of the last segment, and the last
  segment.
* `Name.OperatorLast` — names with operators in no place but the last segment.
* `CutAtLast` — what both searches find in a text.
* `Leads` — what stands in front of the name in a text.

## Main results

* `cutAtLast_of_splitScopeAfter` — both searches find the same last separator.
* `Name.ofStripped_trim` — how the scope of a name is read without the blanks behind it.
* `Policy.normalize_enclosingScope` — the scope that is found is read as the segments in front of
  the last one.
-/

namespace BindingRules

open Text Policy

variable {before piece s t u v w x rest : List Char} {pieces : List (List Char)} {c : Char}
  {depth : Nat} {found : Option (List Char)}

/-! ## One character -/

/-- Outside of operators a character that begins no separator and closes no bracket too many goes to
the piece. -/
lemma Name.splitScopeAfter_step (hout : inOperator before = false)
    (hmark : c = ':' → depth = 0 → w.head? ≠ some ':') (hclose : c = '>' → depth ≠ 0)
    (piece : List Char) : splitScopeAfter before piece depth (c :: w) =
      splitScopeAfter (c :: before) (c :: piece) (depthAfter depth c) w := by
  rw [splitScopeAfter.eq_def]
  split
  · next heq => cases heq
  · next tail heq =>
    obtain ⟨rfl, rfl⟩ := List.cons.inj heq
    have hdepth : depth ≠ 0 := fun hzero => hmark rfl hzero rfl
    rw [if_neg hdepth]
    rfl
  · next c' tail hne heq =>
    obtain ⟨rfl, rfl⟩ := List.cons.inj heq
    simp only [hout, Bool.not_false, Bool.and_true, depthAfter]
    split
    · rfl
    · split
      · next hc =>
        cases depth with
        | zero => exact absurd rfl (hclose (by simpa using hc))
        | succ d => rfl
      · rfl

/-- Outside of operators a character that begins no signature and closes no bracket too many is no
place to cut one off. -/
lemma Name.splitSignatureAfter_step (hout : inOperator before = false)
    (hparen : c = '(' → depth ≠ 0) (hclose : c = '>' → depth ≠ 0) :
    splitSignatureAfter before depth (c :: w) =
      splitSignatureAfter (c :: before) (depthAfter depth c : Nat) w := by
  have hparen' : (c == '(' && decide ((depth : Int) ≤ 0)) = false := by
    rw [Bool.and_eq_false_imp]
    intro hc
    have := hparen (by simpa using hc)
    simp only [decide_eq_false_iff_not]
    omega
  simp only [splitSignatureAfter, hout, Bool.not_false, Bool.and_true, depthAfter, hparen']
  split
  · rfl
  · split
    · next hc =>
      have := hclose (by simpa using hc)
      congr 1
      omega
    · rfl

/-- A character that neither begins a separator outside of brackets nor ends the search is passed
over. -/
lemma Policy.enclosingScopeAfter_step (hmark : c = ':' → depth = 0 → w.head? ≠ some ':')
    (hparen : c = '(' → depth ≠ 0) : enclosingScopeAfter before depth found (c :: w) =
      enclosingScopeAfter (c :: before) (depthAfter depth c) found w := by
  by_cases hhead : c = ':' ∧ w.head? = some ':'
  · obtain ⟨rfl, hhead⟩ := hhead
    obtain ⟨tail, rfl⟩ := List.head?_eq_some_iff.1 hhead
    have hdepth : depth ≠ 0 := fun hzero => hmark rfl hzero rfl
    rw [enclosingScopeAfter, if_neg hdepth]
    rfl
  · refine enclosingScopeAfter_cons (fun hc htail => hhead ⟨hc, htail⟩) ?_
    rw [Bool.and_eq_false_imp]
    intro hc
    simpa using hparen (by simpa using hc)

/-! ## The last separator -/

/-- What both searches find in a text in front of `rest`: no separator; or the same last one. In the
latter case the text in front of it is cut into the pieces in front of the last one. -/
def CutAtLast (rest before piece : List Char) (depth : Nat) (s : List Char)
    (pieces : List (List Char)) : Prop :=
  (pieces = [piece.reverse ++ s] ∧
    ∀ b found, enclosingScopeAfter b depth found (s ++ rest) = found) ∨
  ∃ u v front, s = u ++ ':' :: ':' :: v ∧ pieces = front ++ [v] ∧
    Name.splitScopeAfter before piece depth u = some front ∧
    Name.splitSignatureAfter before depth u = (before.reverse ++ u, none) ∧
    ∀ b found, enclosingScopeAfter b depth found (s ++ rest) = some (b.reverse ++ u)

/-- **One character** that is passed over does not change what is found behind it. -/
lemma CutAtLast.cons (h : CutAtLast rest (c :: before) (c :: piece) (depthAfter depth c) s pieces)
    (hout : inOperator before = false) (hrest : rest.head? ≠ some ':')
    (hmark : c = ':' → depth = 0 → s.head? ≠ some ':') (hparen : c = '(' → depth ≠ 0)
    (hclose : c = '>' → depth ≠ 0) : CutAtLast rest before piece depth (c :: s) pieces := by
  have hfound : ∀ b found, enclosingScopeAfter b depth found (c :: s ++ rest) =
      enclosingScopeAfter (c :: b) (depthAfter depth c) found (s ++ rest) := by
    intro b found
    refine enclosingScopeAfter_step (fun hc hzero hhead => ?_) hparen
    cases s with
    | nil => exact hrest hhead
    | cons d s => exact hmark hc hzero hhead
  rcases h with ⟨rfl, hnone⟩ | ⟨u, v, front, rfl, rfl, hscope, hsignature, hlast⟩
  · exact .inl ⟨by simp, fun b found => by rw [hfound, hnone]⟩
  · have hmark' : c = ':' → depth = 0 → u.head? ≠ some ':' := by
      intro hc hzero hhead
      refine hmark hc hzero ?_
      rw [List.head?_append, hhead]
      rfl
    refine .inr ⟨c :: u, v, front, rfl, rfl, ?_, ?_, fun b found => ?_⟩
    · rw [Name.splitScopeAfter_step hout hmark' hclose, hscope]
    · rw [Name.splitSignatureAfter_step hout hparen hclose, hsignature]
      simp
    · rw [hfound, hlast]
      simp

/-- Where no separator is left, both searches find none. -/
lemma CutAtLast.of_not_isInfix (h : Name.splitScopeAfter before piece depth s = some pieces)
    (hsignature : Name.splitSignatureAfter before depth s = (x, none))
    (hno : ¬ scopeMark <:+: s ++ rest) : CutAtLast rest before piece depth s pieces := by
  left
  obtain ⟨q, qs, rfl, rfl, -, -⟩ := pieces_of_splitScopeAfter h hsignature
  cases qs with
  | nil => exact ⟨rfl, fun b found => enclosingScopeAfter_of_not_isInfix hno⟩
  | cons q' qs =>
    refine absurd ?_ hno
    exact ⟨q, joinScope (q' :: qs) ++ rest, by simp [joinScope]⟩

/-- Operators in a text between `before`, given last character first, and `rest`: where one begins,
no separator is left, and if there are parentheses the word for operators does not occur. -/
structure OperatorsBehind (rest before s : List Char) : Prop where
  /-- Behind the beginning of an operator there is no separator. -/
  behind : ∀ u v, s = u ++ v → inOperator (u.reverse ++ before) = true → ¬ scopeMark <:+: v ++ rest
  /-- Parentheses do not occur together with the word for operators. -/
  parentheses : '(' ∈ s → ¬ operatorWord <:+: before.reverse ++ s

/-- What is left behind the first part of a text has its operators in the same places. -/
lemma OperatorsBehind.of_append (h : OperatorsBehind rest before (t ++ s)) :
    OperatorsBehind rest (t.reverse ++ before) s where
  behind u v hs hin := h.behind (t ++ u) v (by simp [hs]) (by simpa using hin)
  parentheses hmem := by simpa using h.parentheses (List.mem_append_right t hmem)

/-- **Both searches find the same last separator**, wherever operators stand behind it.

**Proof sketch.** Induction on the steps of the cut. Outside of operators both searches count the
same brackets, and neither of them stops at a parenthesis, since that would begin a signature. -/
lemma cutAtLast_of_splitScopeAfter (h : Name.splitScopeAfter before piece depth s = some pieces)
    (hsignature : Name.splitSignatureAfter before depth s = (x, none))
    (hoperator : OperatorsBehind rest before s)
    (hfound : ∀ b found, enclosingScopeAfter b 0 found rest = found)
    (hrest : rest.head? ≠ some ':') : CutAtLast rest before piece depth s pieces := by
  fun_induction Name.splitScopeAfter before piece depth s generalizing pieces with
  | case1 before piece =>
    obtain rfl := Option.some.inj h
    exact .inl ⟨by simp, hfound⟩
  | case2 before piece depth hdepth => cases h
  | case3 before piece cs ih =>
    obtain ⟨ps, hps, rfl⟩ := Option.map_eq_some_iff.1 h
    have hnext := hoperator.of_append (t := scopeMark) (s := cs)
    rcases ih hps hsignature hnext with ⟨rfl, hnone⟩ | ⟨u, v, front, rfl, rfl, hscope, hcut, hlast⟩
    · refine .inr ⟨[], cs, [piece.reverse], rfl, rfl, rfl, by simp [Name.splitSignatureAfter], ?_⟩
      intro b found
      rw [List.append_nil]
      exact hnone _ _
    · refine .inr ⟨':' :: ':' :: u, v, piece.reverse :: front, rfl, rfl, ?_, ?_, fun b found => ?_⟩
      · rw [Name.splitScopeAfter, if_pos rfl, hscope]
        rfl
      · refine (splitSignatureAfter_scopeMark before 0 u).trans (hcut.trans ?_)
        simp
      · refine (hlast _ _).trans ?_
        simp
  | case4 before piece depth cs hdepth ih =>
    have hout : inOperator before = false := by
      rw [Bool.eq_false_iff]
      exact fun hin => hoperator.behind [] _ rfl hin ⟨[], cs ++ rest, rfl⟩
    have hnext := hoperator.of_append (t := [':']) (s := ':' :: cs)
    refine CutAtLast.cons (ih h hsignature hnext) hout hrest ?_ ?_ ?_
    · exact fun _ hzero => absurd hzero hdepth
    · exact fun hc => absurd hc (by decide)
    · exact fun hc => absurd hc (by decide)
  | case5 before piece depth c cs hne hopen ih =>
    obtain ⟨hc, hout⟩ : c = '<' ∧ inOperator before = false := by simpa using hopen
    subst hc
    have hnext : Name.splitSignatureAfter ('<' :: before) (depth + 1 : Nat) cs = (x, none) := by
      simpa [Name.splitSignatureAfter, hout] using hsignature
    refine CutAtLast.cons (ih h hnext (hoperator.of_append (t := ['<']))) hout hrest ?_ ?_ ?_
    all_goals exact fun hc => absurd hc (by decide)
  | case6 before piece c cs hne hopen hclose => cases h
  | case7 before piece c cs hne hopen hclose d ih =>
    obtain ⟨hc, hout⟩ : c = '>' ∧ inOperator before = false := by simpa using hclose
    subst hc
    have hnext : Name.splitSignatureAfter ('>' :: before) d cs = (x, none) := by
      simpa [Name.splitSignatureAfter, hout] using hsignature
    refine CutAtLast.cons (ih h hnext (hoperator.of_append (t := ['>']))) hout hrest ?_ ?_ ?_
    · exact fun hc => absurd hc (by decide)
    · exact fun hc => absurd hc (by decide)
    · exact fun _ => Nat.succ_ne_zero d
  | case8 before piece depth c cs hne hopen hclose ih =>
    have hbracket : c = '<' ∨ c = '>' → inOperator before = true := by
      rintro (rfl | rfl)
      · simpa using hopen
      · simpa using hclose
    have hcolon : c = ':' → cs.head? ≠ some ':' := by
      rintro rfl hhead
      obtain ⟨tail, rfl⟩ := List.head?_eq_some_iff.1 hhead
      exact hne tail rfl rfl
    by_cases hin : inOperator before = true
    · have hwhole := (splitScopeAfter_cons hbracket hcolon piece depth).trans h
      exact .of_not_isInfix hwhole hsignature (hoperator.behind [] _ rfl hin)
    have hout : inOperator before = false := by simpa using hin
    obtain ⟨hnext, hcall⟩ := of_splitSignatureAfter_cons hbracket hsignature
    have hopen' : c ≠ '<' := fun hc => hin (hbracket (.inl hc))
    have hclose' : c ≠ '>' := fun hc => hin (hbracket (.inr hc))
    have hdepth : depthAfter depth c = depth := by simp [depthAfter, hopen', hclose']
    have hnext' := ih h hnext (hoperator.of_append (t := [c]))
    refine CutAtLast.cons (hdepth.symm ▸ hnext') hout hrest (fun hc _ => hcolon hc) ?_ ?_
    · -- the parenthesis would belong to a call operator
      rintro rfl rfl
      have hword := (isCall_iff.1 (hcall rfl (by omega))).1.isInfix
      refine hoperator.parentheses List.mem_cons_self ?_
      exact (hword.trans (trimEnd_isPrefix _).isInfix).trans (List.prefix_append _ _).isInfix
    · exact fun hc => absurd hc hclose'

/-! ## Blanks around texts -/

/-- Blanks are passed over. -/
lemma passes_of_isBlank (ht : ∀ c ∈ t, isBlank c = true) : Passes before t := by
  have hnot : ∀ {d}, isBlank d = false → d ∉ t := by
    intro d hd hmem
    rw [ht d hmem] at hd
    cases hd
  exact passes_of_notMem (hnot (by decide)) (hnot (by decide)) (hnot (by decide))
    (hnot (by decide)) _

/-- No signature is cut off the beginning of a text of which none is cut off, unless the beginning
ends within a call operator. -/
lemma Name.splitSignatureAfter_of_append {d : Int}
    (h : splitSignatureAfter before d (u ++ v) = (x, none)) (hv : v.head? ≠ some ')') :
    splitSignatureAfter before d u = (before.reverse ++ u, none) := by
  fun_induction splitSignatureAfter before d u with
  | case1 before d => simp
  | case2 before d c cs hopen ih =>
    rw [List.cons_append, splitSignatureAfter, if_pos hopen] at h
    simpa using ih h
  | case3 before d c cs hopen hclose ih =>
    rw [List.cons_append, splitSignatureAfter, if_neg hopen, if_pos hclose] at h
    simpa using ih h
  | case4 before d c cs hopen hclose hparen hcall ih =>
    have hcall' : isCall before (cs ++ v) = true := by
      obtain ⟨hword, hhead⟩ := isCall_iff.1 hcall
      refine isCall_iff.2 ⟨hword, ?_⟩
      rw [List.head?_append, hhead]
      rfl
    rw [isCall] at hcall'
    rw [List.cons_append, splitSignatureAfter, if_neg hopen, if_neg hclose, if_pos hparen,
      if_pos hcall'] at h
    simpa using ih h
  | case5 before d c cs hopen hclose hparen hcall =>
    have hcall' : ¬ isCall before (cs ++ v) = true := by
      intro hcall'
      obtain ⟨hword, hhead⟩ := isCall_iff.1 hcall'
      refine hcall (isCall_iff.2 ⟨hword, ?_⟩)
      cases cs with
      | nil => exact absurd hhead hv
      | cons d cs => exact hhead
    rw [isCall] at hcall'
    rw [List.cons_append, splitSignatureAfter, if_neg hopen, if_neg hclose, if_pos hparen,
      if_neg hcall'] at h
    cases h
  | case6 before d c cs hopen hclose hparen ih =>
    rw [List.cons_append, splitSignatureAfter, if_neg hopen, if_neg hclose, if_neg hparen] at h
    simpa using ih h

/-- Blanks behind a text change its pieces by blanks only. -/
lemma Name.splitScopeAfter_append_blank (ht : ∀ c ∈ t, isBlank c = true) :
    (splitScopeAfter before piece depth (u ++ t)).map (List.map trim) =
      (splitScopeAfter before piece depth u).map (List.map trim) := by
  have hcolon : t.head? ≠ some ':' := fun hhead =>
    absurd (ht ':' (List.mem_of_mem_head? hhead)) (by decide)
  have hblank : ∀ before piece depth, splitScopeAfter before piece depth t =
      splitScopeAfter (t.reverse ++ before) (t.reverse ++ piece) depth [] := by
    intro before piece depth
    have hpasses : Passes before t := passes_of_isBlank ht
    rw [← hpasses.splitScopeAfter_append (by simp), List.append_nil]
  fun_induction splitScopeAfter before piece depth u with
  | case1 before piece =>
    rw [List.nil_append, hblank, splitScopeAfter, if_pos rfl]
    simp [trim_append_blank ht]
  | case2 before piece depth hdepth =>
    rw [List.nil_append, hblank, splitScopeAfter, if_neg hdepth]
  | case3 before piece cs ih =>
    have hcons : ∀ x : Option (List (List Char)), (x.map (piece.reverse :: ·)).map (List.map trim) =
        (x.map (List.map trim)).map (trim piece.reverse :: ·) := by
      intro x
      cases x <;> rfl
    rw [List.cons_append, List.cons_append, splitScopeAfter, if_pos rfl, hcons, hcons, ih]
  | case4 before piece depth cs hdepth ih =>
    rw [List.cons_append, List.cons_append, splitScopeAfter, if_neg hdepth]
    exact ih
  | case5 before piece depth c cs hne hopen ih =>
    obtain ⟨rfl, hout⟩ : c = '<' ∧ inOperator before = false := by simpa using hopen
    exact (congrArg _ ((crosses_open hout depth).scope piece (cs ++ t))).trans ih
  | case6 before piece c cs hne hopen hclose =>
    obtain ⟨rfl, hout⟩ : c = '>' ∧ inOperator before = false := by simpa using hclose
    simp [splitScopeAfter, hout]
  | case7 before piece c cs hne hopen hclose d ih =>
    obtain ⟨rfl, hout⟩ : c = '>' ∧ inOperator before = false := by simpa using hclose
    exact (congrArg _ ((crosses_close hout d).scope piece (cs ++ t))).trans ih
  | case8 before piece depth c cs hne hopen hclose ih =>
    have hbracket : c = '<' ∨ c = '>' → inOperator before = true := by
      rintro (rfl | rfl)
      · simpa using hopen
      · simpa using hclose
    have hnext : c = ':' → (cs ++ t).head? ≠ some ':' := by
      rintro rfl hhead
      cases cs with
      | nil => exact hcolon hhead
      | cons d cs => exact hne cs rfl (by rw [Option.some.inj hhead])
    rw [List.cons_append, splitScopeAfter_cons hbracket hnext]
    exact ih

/-- Blanks around a piece do not change its segment. -/
lemma Segment.ofChars_trim (p : List Char) : ofChars (trim p) = ofChars p := by
  simp only [ofChars, trim_trim]

/-- **How the scope of a name is read**, without the blanks behind it: as a literal name if it ends
in an underscore, and else as its pieces. -/
lemma Name.ofStripped_trim {front : List (List Char)} (hstart : trimStart u = u)
    (hne : trim u ≠ []) (hscope : splitScope u = some front) (hcut : splitSignature u = (u, none))
    (hblank : ∀ p ∈ front, trim p ≠ []) :
    ((trim u).getLast? = some '_' → ofStripped (trim u) = .ok (.literal (String.ofList (trim u)))) ∧
    ((trim u).getLast? ≠ some '_' →
      ofStripped (trim u) = .ok (.path ⟨front.map Segment.ofChars, none⟩)) := by
  refine ⟨fun hlast => ofStripped_eq_literal_iff.2 ⟨hlast, rfl⟩, fun hlast => ?_⟩
  obtain ⟨t, hu, ht⟩ := exists_blank_of_trimStart hstart
  have hcut' : splitSignature (trim u) = (trim u, none) := by
    refine splitSignatureAfter_of_append (v := t) (x := u) (hu ▸ hcut) fun hhead => ?_
    exact absurd (ht ')' (List.mem_of_mem_head? hhead)) (by decide)
  have hpieces : (splitScope (trim u)).map (List.map trim) = some (front.map trim) := by
    have happend : (splitScope (trim u ++ t)).map (List.map trim) =
        (splitScope (trim u)).map (List.map trim) := splitScopeAfter_append_blank ht
    rw [← hu, hscope] at happend
    exact happend.symm
  obtain ⟨pieces, hsplit, hmap⟩ := Option.map_eq_some_iff.1 hpieces
  have hsegments : pieces.map Segment.ofChars = front.map Segment.ofChars := by
    have := congrArg (List.map Segment.ofChars) hmap
    simpa [Function.comp_def, Segment.ofChars_trim] using this
  refine ofStripped_eq_path_iff.2 ⟨hne, hlast, _, none, pieces, hcut', hsplit, fun p hp => ?_, ?_⟩
  · obtain ⟨p', hp', heq⟩ := List.mem_map.1 (hmap ▸ List.mem_map_of_mem hp)
    exact heq ▸ hblank p' hp'
  · rw [hsegments]
    rfl

/-! ## What stands around a name -/

/-- What stands in front of the name in a text: blanks, with a scope separator between them if
there is one to be left out. -/
inductive Leads (s : List Char) : List Char → Prop where
  /-- Blanks, in front of a name that does not begin with a separator itself. -/
  | blank {lead : List Char} (hlead : ∀ c ∈ lead, isBlank c = true) (hs : ¬ scopeMark <+: s) :
    Leads s lead
  /-- Blanks and a scope separator. -/
  | rooted {lead lead' : List Char} (hlead : ∀ c ∈ lead, isBlank c = true)
    (hlead' : ∀ c ∈ lead', isBlank c = true) : Leads s (lead ++ scopeMark ++ lead')

/-- A text is its name with what stands in front of it and blanks behind it. -/
lemma Name.exists_leads_strip (s : List Char) : ∃ lead trail, s = lead ++ strip s ++ trail ∧
    Leads (strip s) lead ∧ ∀ c ∈ trail, isBlank c = true := by
  obtain ⟨lead, trail, hs, hlead, htrail⟩ := exists_blank_append_trim s
  cases hmark : scopeMark.isPrefixOf? (trim s) with
  | none =>
    have hstrip : strip s = trim s := by simp [strip, hmark, trim_trim]
    refine ⟨lead, trail, by rwa [hstrip], .blank hlead ?_, htrail⟩
    rw [hstrip]
    exact isPrefixOf?_eq_none_iff.1 hmark
  | some r =>
    have hstrip : strip s = trim r := by simp [strip, hmark]
    obtain ⟨lead', trail', hr, hlead', htrail'⟩ := exists_blank_append_trim r
    refine ⟨lead ++ scopeMark ++ lead', trail' ++ trail, ?_, .rooted hlead hlead', ?_⟩
    · rw [← append_of_isPrefixOf? hmark] at hs
      conv_lhs => rw [hs, hr]
      simp [hstrip]
    · exact List.forall_mem_append.2 ⟨htrail', htrail⟩

/-- Blanks around a text do not change which name is taken from it. -/
lemma Name.strip_trim (s : List Char) : strip (trim s) = strip s := by simp only [strip, trim_trim]

/-- What stands in front of a name is left out in front of its first part too. -/
lemma Leads.strip_append (h : Leads s x) (hu : u <+: s) (hstart : trimStart u = u)
    (hne : trim u ≠ []) : Name.strip (x ++ u) = trim u := by
  cases h with
  | blank hlead hs =>
    have hfirst : trim u <+: u := by
      obtain ⟨t, ht, -⟩ := exists_blank_of_trimStart hstart
      exact ⟨t, ht.symm⟩
    have hmark : scopeMark.isPrefixOf? (trim u) = none :=
      isPrefixOf?_eq_none_iff.2 fun hbegins => hs ((hbegins.trans hfirst).trans hu)
    simp [Name.strip, trim_blank_append hlead, hmark, trim_trim]
  | @rooted lead lead' hlead hlead' =>
    have hend : trimEnd (lead' ++ u) ≠ [] := by
      intro hnil
      have := trim_trimEnd (lead' ++ u)
      rw [hnil, trim_blank_append hlead'] at this
      exact hne this.symm
    have htrim : trim (lead ++ scopeMark ++ lead' ++ u) = scopeMark ++ trimEnd (lead' ++ u) := by
      rw [List.append_assoc, List.append_assoc, trim_blank_append hlead, trim,
        tight_scopeMark.trimStart_append, trimEnd_append_of_ne_nil hend]
    have hmark : scopeMark.isPrefixOf? (scopeMark ++ trimEnd (lead' ++ u)) =
        some (trimEnd (lead' ++ u)) := List.isPrefixOf?_eq_some_iff_append_eq.2 rfl
    simp only [Name.strip, htrim, hmark, Option.getD_some]
    rw [trim_trimEnd, trim_blank_append hlead']

/-- Blanks are passed over. -/
lemma Policy.enclosingScopeAfter_append_blank (ht : ∀ c ∈ t, isBlank c = true) (rest : List Char) :
    enclosingScopeAfter before depth found (t ++ rest) =
      enclosingScopeAfter (t.reverse ++ before) depth found rest := by
  induction t generalizing before with
  | nil => rfl
  | cons c t ih =>
    obtain ⟨hc, ht⟩ := List.forall_mem_cons.1 ht
    have hnot : ∀ {d}, isBlank d = false → c ≠ d := by
      rintro d hd rfl
      rw [hc] at hd
      cases hd
    have hdepth : depthAfter depth c = depth := by
      simp [depthAfter, hnot (d := '<') (by decide), hnot (d := '>') (by decide)]
    rw [List.cons_append, enclosingScopeAfter_step (fun heq => absurd heq (hnot (by decide)))
      (fun heq => absurd heq (hnot (by decide))), hdepth, ih ht]
    simp

/-- In front of a name nothing but blanks is found. -/
lemma Leads.enclosingScopeAfter_append (h : Leads s x) :
    ∃ found, (∀ f, found = some f → trim f = []) ∧
      ∀ rest, enclosingScopeAfter [] 0 none (x ++ rest) =
        enclosingScopeAfter x.reverse 0 found rest := by
  cases h with
  | blank hlead hs =>
    refine ⟨none, by simp, fun rest => ?_⟩
    rw [enclosingScopeAfter_append_blank hlead, List.append_nil]
  | @rooted lead lead' hlead hlead' =>
    refine ⟨some lead, fun f hf => Option.some.inj hf ▸ trim_eq_nil_iff.2 hlead, fun rest => ?_⟩
    rw [List.append_assoc, List.append_assoc, enclosingScopeAfter_append_blank hlead, scopeMark,
      List.cons_append, List.cons_append, List.nil_append, enclosingScopeAfter, if_pos rfl,
      enclosingScopeAfter_append_blank hlead']
    simp

/-- **Behind the segments of a name** the search finds nothing: a signature ends it, and otherwise
there are blanks only. -/
lemma Policy.exists_rest {signature : Option (List Char)}
    (hcut : Name.splitSignature s = (x, signature)) (ht : ∀ c ∈ t, isBlank c = true) :
    ∃ rest, s ++ t = x ++ rest ∧ rest.head? ≠ some ':' ∧
      (∀ b found, enclosingScopeAfter b 0 found rest = found) ∧
      (signature = none → ∀ c ∈ rest, isBlank c = true) := by
  have hhead : ∀ {b y : List Char}, (∀ c ∈ b, isBlank c = true) → y.head? ≠ some ':' →
      (b ++ y).head? ≠ some ':' := by
    intro b y hb hy
    cases b with
    | nil => exact hy
    | cons c b =>
      intro hc
      rw [Option.some.inj hc] at hb
      exact absurd (hb ':' List.mem_cons_self) (by decide)
  cases signature with
  | none =>
    obtain rfl : x = s := by simpa using eq_of_splitSignatureAfter_none hcut
    refine ⟨t, rfl, ?_, fun b found => ?_, fun _ => ht⟩
    · simpa using hhead ht (y := []) (by simp)
    · have hpass : enclosingScopeAfter b 0 found (t ++ []) = _ :=
        enclosingScopeAfter_append_blank ht []
      simpa [enclosingScopeAfter] using hpass
  | some b =>
    obtain ⟨front, cs, rfl, rfl, hx, -⟩ := cutOff_of_splitSignatureAfter hcut
    obtain ⟨blank, hfront, hblank⟩ := exists_blank_trimEnd_append front
    rw [List.reverse_nil, List.nil_append] at hx
    rw [← hx] at hfront
    refine ⟨blank ++ '(' :: (cs ++ t), by rw [hfront]; simp, hhead hblank (by simp), ?_, by simp⟩
    intro b found
    rw [enclosingScopeAfter_append_blank hblank]
    simp [enclosingScopeAfter]

/-! ## The segments in front of the last one -/

namespace Name

/-- The pieces of the name in a text; nothing if its brackets do not match. -/
def piecesOf (raw : String) : List (List Char) :=
  (splitScope (splitSignature (strip raw.toList)).1).getD []

/-- What stands in front of the last segment of the name in a text, without the separator between
them. -/
def scopeChars (raw : String) : List Char := joinScope (piecesOf raw).dropLast

/-- The last segment of the name in a text, as it is written. -/
def lastChars (raw : String) : List Char := (piecesOf raw).getLastD []

/-- If the word for operators occurs in a text, the text has no parentheses, and the word occurs in
the last segment alone, which begins with it. -/
def OperatorLast (raw : String) : Prop :=
  operatorWord <:+: raw.toList →
    '(' ∉ raw.toList ∧ ¬ operatorWord <:+: scopeChars raw ∧ operatorWord <+: trim (lastChars raw)

/-- All pieces but the last one, and the last one, joined again. -/
lemma joinScope_concat {front : List (List Char)} (hne : front ≠ []) (v : List Char) :
    joinScope (front ++ [v]) = joinScope front ++ ':' :: ':' :: v := by
  induction front with
  | nil => exact absurd rfl hne
  | cons q front ih =>
    cases front with
    | nil => simp [joinScope, scopeMark]
    | cons q' front =>
      have := ih (List.cons_ne_nil _ _)
      simp only [List.cons_append, joinScope, List.append_assoc] at this ⊢
      rw [this]

/-- What is cut into pieces is the pieces joined, and there is one at least. -/
lemma pieces_of_splitScope (hsplit : splitScope s = some pieces)
    (hcut : splitSignature s = (s, none)) : pieces ≠ [] ∧ joinScope pieces = s := by
  obtain ⟨q, qs, rfl, hjoin, -⟩ := pieces_of_splitScopeAfter hsplit hcut
  exact ⟨List.cons_ne_nil _ _, hjoin⟩

/-- Something is left of joined pieces of which none is blank. -/
lemma trim_joinScope_ne_nil (hne : pieces ≠ []) (hblank : ∀ p ∈ pieces, trim p ≠ []) :
    trim (joinScope pieces) ≠ [] := by
  obtain ⟨q, qs, rfl⟩ := List.exists_cons_of_ne_nil hne
  have hq := hblank q List.mem_cons_self
  have hbegin := joinScope_append_cons q [] qs
  rw [List.append_nil] at hbegin
  rw [Ne, trim_eq_nil_iff] at hq ⊢
  exact fun hall => hq fun c hc => hall c (hbegin ▸ List.mem_append_left _ hc)

/-- The last piece is passed over if it begins with the word for operators, so that it has no
separators. -/
lemma not_scopeMark_of_operator {front : List (List Char)}
    (hsplit : splitScope s = some (front ++ [v])) (hcut : splitSignature s = (s, none))
    (hword : operatorWord <+: trim v) : ¬ scopeMark <:+: v := by
  obtain ⟨q, qs, hpieces, -, hq, hqs⟩ := pieces_of_splitScopeAfter hsplit hcut
  rw [List.reverse_nil, List.nil_append] at hpieces
  have hv : v ∈ q :: qs := hpieces ▸ by simp
  rcases List.mem_cons.1 hv with rfl | hv
  · exact ((hq rfl).passes_of_operator .first hword).not_scopeMark
  · obtain ⟨b, hpiece⟩ := hqs v hv
    exact (hpiece.passes_of_operator (.later b) hword).not_scopeMark

/-- Blanks behind a text do not make a separator in it. -/
lemma not_scopeMark_append_blank (h : ¬ scopeMark <:+: v) (ht : ∀ c ∈ t, isBlank c = true) :
    ¬ scopeMark <:+: v ++ t := by
  have hcolon : ':' ∉ t := fun hmem => absurd (ht ':' hmem) (by decide)
  cases t with
  | nil => rwa [List.append_nil]
  | cons c t =>
    refine not_infix_append_cons h (fun hpart => ?_) ?_
    · exact hcolon (List.mem_cons_of_mem c (hpart.subset List.mem_cons_self))
    · rw [scopeMark]
      simpa [eq_comm] using (not_or.1 (mt List.mem_cons.2 hcolon)).1

/-- In front of what belongs to an operator the word for operators occurs. -/
lemma isInfix_of_inOperator (hin : inOperator (u.reverse ++ []) = true) : operatorWord <:+: u := by
  by_contra hword
  rw [inOperator_eq_false .first hword] at hin
  cases hin

/-- If the last piece alone holds the word for operators, what is left of the text behind the word
is in that piece. -/
lemma isSuffix_of_isInfix {front : List (List Char)}
    (hfront : ¬ operatorWord <:+: joinScope front) (hjoin : joinScope (front ++ [w]) = u ++ v)
    (hword : operatorWord <:+: u) : v <:+ w := by
  by_cases hnil : front = []
  · subst hnil
    exact ⟨u, hjoin.symm⟩
  rw [joinScope_concat hnil] at hjoin
  rcases List.append_eq_append_iff.1 hjoin with ⟨y, rfl, hy⟩ | ⟨y, hy, -⟩
  · -- the word does not reach over the separator
    have hmark : ¬ operatorWord <:+: joinScope front ++ [':'] :=
      not_infix_append_cons hfront (by decide) (by decide)
    match y, hy with
    | [], _ => exact absurd (by simpa using hword) hfront
    | [_], hy =>
      obtain ⟨rfl, -⟩ := List.cons.inj hy
      exact absurd hword hmark
    | _ :: _ :: y, hy =>
      exact ⟨y, (List.cons.inj (List.cons.inj hy).2).2.symm⟩
  · exact absurd (hword.trans (hy ▸ List.prefix_append u y).isInfix) hfront

/-- Where the word for operators occurs in the last segment at most, operators stand behind the last
separator. -/
lemma OperatorLast.operatorsBehind {raw : String} {signature : Option (List Char)}
    (h : OperatorLast raw) (hcut : splitSignature (strip raw.toList) = (x, signature))
    (hsplit : splitScope x = some pieces) (hx : x <:+: raw.toList)
    (hparen : signature ≠ none → '(' ∈ raw.toList)
    (hrest : signature = none → ∀ c ∈ rest, isBlank c = true) : OperatorsBehind rest [] x := by
  by_cases hword : operatorWord <:+: raw.toList
  · obtain ⟨hnot, hscope, hlast⟩ := h hword
    obtain ⟨hcutx, -⟩ := splitSignature_spec hcut
    obtain ⟨hne, hjoin⟩ := pieces_of_splitScope hsplit hcutx
    obtain ⟨front, w, rfl⟩ := (List.eq_nil_or_concat pieces).resolve_left hne
    rw [List.concat_eq_append] at hjoin hsplit
    have hof : piecesOf raw = front ++ [w] := by rw [piecesOf, hcut, hsplit, Option.getD_some]
    rw [scopeChars, hof, List.dropLast_concat] at hscope
    rw [lastChars, hof, List.getLastD_concat] at hlast
    refine ⟨fun u v hu hin => ?_, fun hmem => absurd (hx.subset hmem) hnot⟩
    have hv : v <:+ w := isSuffix_of_isInfix hscope (hjoin.trans hu) (isInfix_of_inOperator hin)
    refine not_scopeMark_append_blank (fun hpart => ?_) (hrest (not_not.1 (mt hparen hnot)))
    exact not_scopeMark_of_operator hsplit hcutx hlast (hpart.trans hv.isInfix)
  · have hx' : ¬ operatorWord <:+: x := fun hpart => hword (hpart.trans hx)
    refine ⟨fun u v hu hin => ?_, fun _ => by simpa using hx'⟩
    exact absurd ((isInfix_of_inOperator hin).trans (hu ▸ List.prefix_append u v).isInfix) hx'

end Name

namespace Policy

/-- The scope that is found is the text in front of the last separator, without blanks around it. -/
lemma enclosingScope?_of_some {raw : String} (h : enclosingScopeAfter [] 0 none raw.toList = some s)
    (hne : trim s ≠ []) : enclosingScope? raw = some (String.ofList (trim s)) := by
  rw [enclosingScope?, h]
  simp [hne]

/-- The scope that is found in front of a name is read without what stands in front of the name. -/
lemma exists_enclosingScope? {raw : String} (hleads : Leads s x) (hu : u <+: s)
    (hstart : trimStart u = u) (hne : trim u ≠ [])
    (h : enclosingScopeAfter [] 0 none raw.toList = some (x ++ u)) :
    ∃ o, enclosingScope? raw = some o ∧ Name.normalize o = Name.ofStripped (trim u) := by
  have hfull : trim (x ++ u) ≠ [] := by
    rw [Ne, trim_eq_nil_iff] at hne ⊢
    exact fun hall => hne fun c hc => hall c (List.mem_append_right _ hc)
  refine ⟨_, enclosingScope?_of_some h hfull, ?_⟩
  rw [Name.normalize, String.toList_ofList, Name.strip_trim, hleads.strip_append hu hstart hne]

/-- **The scope around a name is read as the segments in front of the last one.** Let a text be read
as a path, and let the word for operators occur in it at most where the last segment begins, if
there are no parentheses. If there is one segment, no scope is found. If there are more, some text
is found. It is read as the path of the segments in front of the last one, without a signature,
unless what stands in front of the last segment, without the blanks around it, ends in an
underscore: then it is read as a literal name.

**Proof sketch.** Both searches find the same last separator. The one for scopes begins with what is
stripped of a name, where it finds nothing but blanks, and ends where the signature begins. -/
theorem normalize_enclosingScope {raw : String} {q : ScopePath}
    (hn : Name.normalize raw = .ok (.path q)) (hoperator : Name.OperatorLast raw) :
    (q.segments.length = 1 → enclosingScope? raw = none) ∧
    (2 ≤ q.segments.length → ∃ o, enclosingScope? raw = some o ∧
      ((trim (Name.scopeChars raw)).getLast? ≠ some '_' →
        Name.normalize o = .ok (.path ⟨q.segments.dropLast, none⟩)) ∧
      ((trim (Name.scopeChars raw)).getLast? = some '_' →
        Name.normalize o = .ok (.literal (String.ofList (trim (Name.scopeChars raw)))))) := by
  have htight := Name.tight_of_ofStripped hn
  obtain ⟨-, -, x, signature, pieces, hcut, hsplit, hblank, rfl⟩ :=
    Name.ofStripped_eq_path_iff.1 hn
  obtain ⟨lead, trail, hraw, hleads, htrail⟩ := Name.exists_leads_strip raw.toList
  obtain ⟨rest, hjoin, hrest, hstop, hblanks⟩ := exists_rest hcut htrail
  obtain ⟨hcutx, hhead, blank, hs, -⟩ := splitSignature_spec hcut
  have hbegins : x <+: Name.strip raw.toList := ⟨blank ++ signature.getD [], by rw [hs]; simp⟩
  have hpart : Name.strip raw.toList <:+: raw.toList := ⟨lead, trail, hraw.symm⟩
  have hparen : signature ≠ none → '(' ∈ raw.toList := by
    intro hsome
    obtain ⟨b, rfl⟩ := Option.ne_none_iff_exists'.1 hsome
    refine hpart.subset ?_
    rw [hs]
    exact List.mem_append_right _ (List.mem_of_mem_head? (hhead b rfl))
  have hlast := hoperator.operatorsBehind hcut hsplit (hbegins.isInfix.trans hpart) hparen hblanks
  obtain ⟨found, hfound, hstart⟩ := hleads.enclosingScopeAfter_append
  have hsearch : enclosingScopeAfter [] 0 none raw.toList =
      enclosingScopeAfter lead.reverse 0 found (x ++ rest) := by
    rw [hraw, List.append_assoc, hjoin, hstart]
  rcases cutAtLast_of_splitScopeAfter hsplit hcutx hlast hstop hrest with
    ⟨rfl, hnone⟩ | ⟨u, v, front, hx, rfl, hscope, hcutu, hsome⟩
  · refine ⟨fun _ => ?_, fun hlength => absurd hlength (by simp)⟩
    rw [hnone] at hsearch
    rw [enclosingScope?, hsearch]
    cases found with
    | none => rfl
    | some f => simp [hfound f rfl]
  · obtain ⟨hfront, hfrontjoin⟩ := Name.pieces_of_splitScope hscope hcutu
    refine ⟨fun hlength => absurd hlength ?_, fun _ => ?_⟩
    · have := List.length_pos_of_ne_nil hfront
      simp only [List.length_map, List.length_append, List.length_singleton]
      omega
    have hchars : Name.scopeChars raw = u := by
      rw [Name.scopeChars, Name.piecesOf, hcut, hsplit, Option.getD_some, List.dropLast_concat]
      exact hfrontjoin
    have hu : u <+: Name.strip raw.toList :=
      (hx ▸ List.prefix_append u _ : u <+: x).trans hbegins
    have hustart : trimStart u = u := by
      obtain ⟨y, hy⟩ := hu
      exact trimStart_of_append (y := y) (hy ▸ htight.trimStart_eq)
    have hblank' : ∀ p ∈ front, trim p ≠ [] := fun p hp => hblank p (List.mem_append_left _ hp)
    have hune : trim u ≠ [] := hfrontjoin ▸ Name.trim_joinScope_ne_nil hfront hblank'
    rw [hsome, List.reverse_reverse] at hsearch
    obtain ⟨o, ho, hread⟩ := exists_enclosingScope? hleads hu hustart hune hsearch
    obtain ⟨hliteral, hpath⟩ := Name.ofStripped_trim hustart hune hscope hcutu hblank'
    refine ⟨o, ho, ?_⟩
    rw [hchars, hread, List.map_append, List.map_singleton, List.dropLast_concat]
    exact ⟨hpath, hliteral⟩

/-- A member of a nested class, with separators and parentheses between brackets; an operator; and
a function outside of classes. -/
theorem normalize_enclosingScope_node :
    (∃ o, enclosingScope? " ::Map<A::B (C::D), E> :: Node<F::G>::Run (I::J) const" = some o ∧
      Name.normalize o = .ok (.path ⟨[.template "Map", .template "Node"], none⟩)) ∧
    (∃ o, enclosingScope? "List_<A::B>::operator<" = some o ∧
      Name.normalize o = .ok (.path ⟨[.template "List_"], none⟩)) ∧
    enclosingScope? ":: Run<A::B> (I::J)" = none := by
  have hnode : Name.OperatorLast " ::Map<A::B (C::D), E> :: Node<F::G>::Run (I::J) const" :=
    fun hword => absurd hword (by decide +kernel)
  have hless : Name.OperatorLast "List_<A::B>::operator<" := fun _ =>
    ⟨by decide +kernel, by decide +kernel, by decide +kernel⟩
  have hrun : Name.OperatorLast ":: Run<A::B> (I::J)" := fun hword =>
    absurd hword (by decide +kernel)
  have hreadNode : Name.normalize " ::Map<A::B (C::D), E> :: Node<F::G>::Run (I::J) const" =
      .ok (.path ⟨[.template "Map", .template "Node", .exact "Run"], some "(I::J)const"⟩) := by
    decide +kernel
  have hreadLess : Name.normalize "List_<A::B>::operator<" =
      .ok (.path ⟨[.template "List_", .exact "operator<"], none⟩) := by decide +kernel
  have hreadRun : Name.normalize ":: Run<A::B> (I::J)" =
      .ok (.path ⟨[.template "Run"], some "(I::J)"⟩) := by decide +kernel
  obtain ⟨o, ho, hscope, -⟩ := (normalize_enclosingScope hreadNode hnode).2 (by decide)
  obtain ⟨o', ho', hscope', -⟩ := (normalize_enclosingScope hreadLess hless).2 (by decide)
  exact ⟨⟨o, ho, hscope (by decide +kernel)⟩, ⟨o', ho', hscope' (by decide +kernel)⟩,
    (normalize_enclosingScope hreadRun hrun).1 rfl⟩

end Policy

end BindingRules
