import BindingRules.Name.Normalize
import BindingRules.Proofs.Separators

set_option relaxedAutoImplicit false
set_option autoImplicit false

/-!
# Where names are cut

A name is cut at the first parenthesis outside of template brackets, and what stands in front of it
at the scope separators outside of template brackets. Brackets and parentheses that belong to an
operator do not count, and whether they do is seen from the segment in which they stand. So a text
that is passed over behind one segment is passed over behind any other, and a piece of a name is
passed over up to its first template bracket.

## Main definitions

* `Begins` — what can stand in front of a segment.
* `Passes` — texts that are passed over when a name is cut.
* `IsPiece` — pieces of a name: passed over up to the first template bracket.
* `Uncut` — texts that are cut nowhere where a segment can stand.
* `CutOff` — signatures that are cut off a text.

## Main results

* `inOperator_reverse_append` — whether a character belongs to an operator is seen in its segment.
* `Passes.splitSignatureAfter_append`, `Passes.splitScopeAfter_append` — a text that is passed over
  is no place for a cut.
* `pieces_of_splitScopeAfter` — what the pieces of a name are.
* `Uncut.splitScopeAfter_joinScope` — the text of segments that are cut nowhere is cut into the
  segments.
* `splitSignature_spec` — what is left of a text in front of its signature.
-/

namespace BindingRules

open Text

variable {first : Bool} {before u v w t x rest p q : List Char} {c d : Char} {depth : Int}

/-! ## Operators -/

/-- What stands in front of a segment: nothing if it is the first one, and otherwise a scope
separator. All is given last character first. -/
inductive Begins : Bool → List Char → Prop where
  /-- The first segment. -/
  | first : Begins true []
  /-- Another segment. -/
  | later (before : List Char) : Begins false (':' :: ':' :: before)

/-- A scope separator has no blanks around it. -/
lemma tight_scopeMark : Tight scopeMark := ⟨by decide, by decide⟩

/-- What stands in a segment behind the last scope separator: all of it, but a colon with which a
later segment begins makes a separator with the colon in front of it. -/
def sinceStart (first : Bool) (u : List Char) : List Char :=
  if first = false ∧ u.head? = some ':' then u.tail else u

/-- A text without scope separators stands behind the last one. -/
lemma sinceScopeMark_eq_self (h : ¬ scopeMark <:+: w) : sinceScopeMark w = w := by
  fun_induction sinceScopeMark w with
  | case1 rest => exact absurd ⟨[], rest, rfl⟩ h
  | case2 c rest hrest ih => rw [ih fun hpart => h (hpart.trans (List.suffix_cons c rest).isInfix)]
  | case3 => rfl

/-- Behind a scope separator, a text without scope separators goes on to its end. -/
lemma sinceScopeMark_append (h : ¬ scopeMark <:+: w ++ [':']) (rest : List Char) :
    sinceScopeMark (w ++ ':' :: ':' :: rest) = w := by
  induction w with
  | nil => rfl
  | cons c w ih =>
    have hw : ¬ scopeMark <:+: w ++ [':'] := fun hpart =>
      h (hpart.trans (List.suffix_cons c _).isInfix)
    rw [List.cons_append, sinceScopeMark.eq_def]
    split
    · next tail heq =>
      -- the text would begin with a separator
      obtain ⟨rfl, htail⟩ := List.cons.inj heq
      cases w with
      | nil => exact absurd ⟨[], [], rfl⟩ h
      | cons d w =>
        obtain ⟨rfl, -⟩ := List.cons.inj htail
        exact absurd ⟨[], w ++ [':'], rfl⟩ h
    · next c' tail hne heq =>
      obtain ⟨rfl, rfl⟩ := List.cons.inj heq
      rw [ih hw]
    · next heq => cases heq

/-- A scope separator is the same in both directions. -/
lemma scopeMark_isInfix_reverse : scopeMark <:+: u.reverse ↔ scopeMark <:+: u := by
  have : scopeMark.reverse = scopeMark := rfl
  rw [← List.reverse_infix, List.reverse_reverse, this]

/-- Whether a character of a segment belongs to an operator is seen in the segment itself. -/
lemma inOperator_reverse_append (hbegins : Begins first before) (h : ¬ scopeMark <:+: u) :
    inOperator (u.reverse ++ before) =
      operatorWord.isPrefixOf (trimStart (sinceStart first u)) := by
  have hreverse : ¬ scopeMark <:+: u.reverse := mt scopeMark_isInfix_reverse.1 h
  rw [inOperator]
  cases hbegins with
  | first => rw [List.append_nil, sinceScopeMark_eq_self hreverse, List.reverse_reverse]; rfl
  | later rest =>
    cases u with
    | nil => rfl
    | cons d u =>
      by_cases hd : d = ':'
      · subst hd
        have hu : ¬ scopeMark <:+: u.reverse ++ [':'] := by
          rwa [← List.reverse_cons, scopeMark_isInfix_reverse]
        rw [List.reverse_cons, List.append_assoc, List.singleton_append,
          sinceScopeMark_append hu, List.reverse_reverse]
        rfl
      · have hu : ¬ scopeMark <:+: (d :: u).reverse ++ [':'] := by
          rw [← List.reverse_cons, scopeMark_isInfix_reverse, List.infix_cons_iff]
          rintro (⟨tail, htail⟩ | hpart)
          · exact hd (List.cons.inj (List.cons.inj htail).2).1.symm
          · exact h hpart
        rw [sinceScopeMark_append hu, List.reverse_reverse]
        simp [sinceStart, hd]

/-- A character that is no part of the word for operators does not change whether what follows
belongs to an operator. -/
lemma inOperator_cons (hword : c ∉ operatorWord) (hblank : isBlank c = false) (hcolon : c ≠ ':')
    (before : List Char) : inOperator (c :: before) = inOperator before := by
  have hsince : sinceScopeMark (c :: before) = c :: sinceScopeMark before := by
    rw [sinceScopeMark.eq_def]
    split
    · next heq => exact absurd (List.cons.inj heq).1 hcolon
    · next heq =>
      obtain ⟨rfl, rfl⟩ := List.cons.inj heq
      rfl
    · next heq => cases heq
  rw [inOperator, inOperator, hsince, List.reverse_cons, Bool.eq_iff_iff,
    List.isPrefixOf_iff_prefix, List.isPrefixOf_iff_prefix]
  have htrim : trimStart ((sinceScopeMark before).reverse ++ [c]) =
      trimStart (sinceScopeMark before).reverse ++ [c] := by
    by_cases hnil : trimStart (sinceScopeMark before).reverse = []
    · rw [trimStart_append_of_nil hnil, hnil, trimStart_cons_eq_self.2 hblank]
      rfl
    · exact trimStart_append_of_ne_nil hnil _
  rw [htrim, List.prefix_concat_iff]
  exact or_iff_right fun heq => hword (heq ▸ List.mem_append_right _ List.mem_cons_self)

/-- Both brackets of the mark for template arguments belong to an operator, or neither does. -/
lemma inOperator_templateMark (before : List Char) :
    inOperator ('*' :: '<' :: before) = inOperator before := by
  rw [inOperator_cons (by decide) (by decide) (by decide),
    inOperator_cons (by decide) (by decide) (by decide)]

/-! ## Texts that are passed over -/

/-- Whether a parenthesis between `before`, given last character first, and `rest` belongs to the
call operator. -/
def isCall (before rest : List Char) : Bool :=
  operatorWord.isSuffixOf (trimEnd before.reverse) && [')'].isPrefixOf rest

/-- A parenthesis belongs to the call operator if it stands behind the word for operators and in
front of the closing one. -/
lemma isCall_iff : isCall before rest = true ↔
    operatorWord <:+ trimEnd before.reverse ∧ rest.head? = some ')' := by
  rw [isCall, Bool.and_eq_true, List.isSuffixOf_iff_suffix, List.isPrefixOf_iff_prefix]
  cases rest <;> simp [eq_comm]

/-- A text that is passed over, behind `before`, when a name is cut: its angle brackets belong to
operators, its parentheses to call operators, and it has no scope separators. -/
def Passes (before : List Char) : List Char → Prop
  | [] => True
  | c :: cs => (c = '<' ∨ c = '>' → inOperator before = true) ∧
      (c = '(' → isCall before cs = true) ∧ (c = ':' → cs.head? ≠ some ':') ∧
      Passes (c :: before) cs

/-- A bracket that belongs to an operator is passed over. -/
lemma bracket_eq_false (hbracket : c = '<' ∨ c = '>' → inOperator before = true) :
    (c == '<' && !inOperator before) = false ∧ (c == '>' && !inOperator before) = false := by
  constructor
  · by_cases hc : c = '<'
    · simp [hbracket (.inl hc)]
    · simp [hc]
  · by_cases hc : c = '>'
    · simp [hbracket (.inr hc)]
    · simp [hc]

/-- Brackets that belong to operators, and parentheses of call operators, are no place to cut a
signature off. -/
lemma splitSignatureAfter_cons (hbracket : c = '<' ∨ c = '>' → inOperator before = true)
    (hcall : c = '(' → isCall before rest = true) :
    Name.splitSignatureAfter before depth (c :: rest) =
      Name.splitSignatureAfter (c :: before) depth rest := by
  obtain ⟨hopen, hclose⟩ := bracket_eq_false hbracket
  simp only [Name.splitSignatureAfter, hopen, hclose, Bool.false_eq_true, if_false]
  split
  · next hparen =>
    have hcall := hcall (by simpa using (Bool.and_eq_true_iff.1 hparen).1)
    rw [isCall] at hcall
    rw [if_pos hcall]
  · rfl

/-- Brackets that belong to operators are no place to cut at scope separators. -/
lemma splitScopeAfter_cons (hbracket : c = '<' ∨ c = '>' → inOperator before = true)
    (hcolon : c = ':' → rest.head? ≠ some ':') (piece : List Char) (depth : Nat) :
    Name.splitScopeAfter before piece depth (c :: rest) =
      Name.splitScopeAfter (c :: before) (c :: piece) depth rest := by
  obtain ⟨hopen, hclose⟩ := bracket_eq_false hbracket
  rw [Name.splitScopeAfter.eq_def]
  split
  · next heq => cases heq
  · next tail heq =>
    obtain ⟨rfl, rfl⟩ := List.cons.inj heq
    exact absurd rfl (hcolon rfl)
  · next c' tail hne heq =>
    obtain ⟨rfl, rfl⟩ := List.cons.inj heq
    simp only [hopen, hclose, Bool.false_eq_true, if_false]

namespace Passes

/-- A text that is passed over has no scope separators. -/
lemma not_scopeMark (h : Passes before t) : ¬ scopeMark <:+: t := by
  induction t generalizing before with
  | nil => simp [scopeMark]
  | cons c t ih =>
    obtain ⟨-, -, hcolon, hrest⟩ := h
    rw [List.infix_cons_iff]
    rintro (⟨tail, htail⟩ | hpart)
    · obtain ⟨rfl, rfl⟩ := List.cons.inj htail
      exact hcolon rfl rfl
    · exact ih hrest hpart

/-- The first part of a text that is passed over is passed over too, unless it is cut within a call
operator. -/
lemma of_append (h : Passes before (u ++ v)) (hv : v.head? ≠ some ')') : Passes before u := by
  induction u generalizing before with
  | nil => trivial
  | cons c u ih =>
    obtain ⟨hbracket, hcall, hcolon, hrest⟩ := h
    refine ⟨hbracket, fun hc => ?_, fun hc hu => hcolon hc ?_, ih hrest⟩
    · have hcall := isCall_iff.1 (hcall hc)
      refine isCall_iff.2 ⟨hcall.1, ?_⟩
      cases u with
      | nil => exact absurd hcall.2 hv
      | cons d u => exact hcall.2
    · cases u with
      | nil => cases hu
      | cons d u => exact hu

/-- One text after the other is passed over. -/
lemma append (hu : Passes before u) (hv : Passes (u.reverse ++ before) v)
    (hend : u.getLast? = some ':' → v.head? ≠ some ':') : Passes before (u ++ v) := by
  induction u generalizing before with
  | nil => exact hv
  | cons c u ih =>
    obtain ⟨hbracket, hcall, hcolon, hrest⟩ := hu
    refine ⟨hbracket, fun hc => ?_, fun hc => ?_, ih hrest (by simpa using hv) fun hlast => ?_⟩
    · obtain ⟨hword, hclose⟩ := isCall_iff.1 (hcall hc)
      exact isCall_iff.2 ⟨hword, by rw [List.append_eq, List.head?_append, hclose]; rfl⟩
    · cases u with
      | nil => exact hend (by rw [hc]; rfl)
      | cons d u => exact hcolon hc
    · exact hend (by rw [List.getLast?_cons, hlast]; rfl)

/-- A text that is passed over is no place to cut at scope separators. -/
lemma splitScopeAfter_append (h : Passes before t)
    (hend : t.getLast? = some ':' → rest.head? ≠ some ':') (piece : List Char) (depth : Nat) :
    Name.splitScopeAfter before piece depth (t ++ rest) =
      Name.splitScopeAfter (t.reverse ++ before) (t.reverse ++ piece) depth rest := by
  induction t generalizing before piece with
  | nil => rfl
  | cons c t ih =>
    obtain ⟨hbracket, -, hcolon, hrest⟩ := h
    have hnext : c = ':' → (t ++ rest).head? ≠ some ':' := by
      intro hc
      cases t with
      | nil => exact hend (by rw [hc]; rfl)
      | cons d t => exact hcolon hc
    have hend' : t.getLast? = some ':' → rest.head? ≠ some ':' := fun hlast =>
      hend (by rw [List.getLast?_cons, hlast]; rfl)
    rw [List.cons_append, splitScopeAfter_cons hbracket hnext, ih hrest hend']
    simp

/-- A text that is passed over is no place to cut a signature off. -/
lemma splitSignatureAfter_append (h : Passes before t) (depth : Int) (rest : List Char) :
    Name.splitSignatureAfter before depth (t ++ rest) =
      Name.splitSignatureAfter (t.reverse ++ before) depth rest := by
  induction t generalizing before with
  | nil => rfl
  | cons c t ih =>
    obtain ⟨hbracket, hcall, -, hrest⟩ := h
    have hcall : c = '(' → isCall before (t ++ rest) = true := fun hc => by
      obtain ⟨hword, hclose⟩ := isCall_iff.1 (hcall hc)
      exact isCall_iff.2 ⟨hword, by rw [List.head?_append, hclose]; rfl⟩
    rw [List.cons_append, splitSignatureAfter_cons hbracket hcall, ih hrest]
    simp

end Passes

/-! ## Template arguments -/

/-- The mark for template arguments opens and closes brackets, unless it belongs to an operator. -/
lemma passes_templateMark (h : inOperator before = true) : Passes before templateMark := by
  refine ⟨fun _ => h, fun hc => absurd hc (by decide), fun hc => absurd hc (by decide), ?_⟩
  refine ⟨fun hc => absurd hc (by decide), fun hc => absurd hc (by decide),
    fun hc => absurd hc (by decide), ?_⟩
  exact ⟨fun _ => (inOperator_templateMark before).trans h, fun hc => absurd hc (by decide),
    fun hc => absurd hc (by decide), trivial⟩

/-- The mark for template arguments is no place to cut at scope separators. -/
lemma splitScopeAfter_templateMark (before piece rest : List Char) :
    Name.splitScopeAfter before piece 0 (templateMark ++ rest) =
      Name.splitScopeAfter (templateMark.reverse ++ before) (templateMark.reverse ++ piece) 0
        rest := by
  cases h : inOperator before with
  | true =>
    exact (passes_templateMark h).splitScopeAfter_append
      (fun hlast => absurd hlast (by decide)) piece 0
  | false =>
    have hclose : inOperator ('*' :: '<' :: before) = false :=
      (inOperator_templateMark before).trans h
    simp [templateMark, Name.splitScopeAfter, h, hclose]

/-- The mark for template arguments is no place to cut a signature off. -/
lemma splitSignatureAfter_templateMark (before : List Char) (depth : Int) (rest : List Char) :
    Name.splitSignatureAfter before depth (templateMark ++ rest) =
      Name.splitSignatureAfter (templateMark.reverse ++ before) depth rest := by
  cases h : inOperator before with
  | true => exact (passes_templateMark h).splitSignatureAfter_append depth rest
  | false =>
    have hclose : inOperator ('*' :: '<' :: before) = false :=
      (inOperator_templateMark before).trans h
    simp [templateMark, Name.splitSignatureAfter, h, hclose]

/-! ## Pieces -/

/-- A piece of a name behind `before`: it is passed over, up to its first template bracket if it has
one. -/
def IsPiece (before piece : List Char) : Prop :=
  ∃ head tail, piece = head ++ tail ∧ Passes before head ∧
    (tail = [] ∨ tail.head? = some '<' ∧ inOperator (head.reverse ++ before) = false)

/-- Texts joined by the separator begin with the first of them. -/
lemma joinScope_append_cons (u v : List Char) (texts : List (List Char)) :
    joinScope ((u ++ v) :: texts) = u ++ joinScope (v :: texts) := by
  cases texts <;> simp [joinScope]

/-- The first of the texts begins what they are joined to. -/
lemma head?_joinScope (h : q.head? = some c) (texts : List (List Char)) :
    (joinScope (q :: texts)).head? = some c := by
  obtain ⟨tail, rfl⟩ := List.head?_eq_some_iff.1 h
  exact congrArg List.head? (joinScope_append_cons [c] tail texts)

/-- What joined texts begin with, if it is no colon, is in the first of them. -/
lemma head?_of_joinScope {texts : List (List Char)} (h : (joinScope (q :: texts)).head? = some c)
    (hc : c ≠ ':') : q.head? = some c := by
  cases q with
  | nil =>
    cases texts with
    | nil => cases h
    | cons t texts => exact absurd (Option.some.inj h).symm hc
  | cons d q => rwa [head?_joinScope (c := d) rfl] at h

/-- If no signature is cut off, none is cut off at the next character. -/
lemma of_splitSignatureAfter_cons {cs : List Char}
    (hbracket : c = '<' ∨ c = '>' → inOperator before = true)
    (h : Name.splitSignatureAfter before depth (c :: cs) = (x, none)) :
    Name.splitSignatureAfter (c :: before) depth cs = (x, none) ∧
      (c = '(' → depth ≤ 0 → isCall before cs = true) := by
  have hcall : c = '(' → depth ≤ 0 → isCall before cs = true := by
    rintro rfl hdepth
    by_contra hcall
    rw [isCall] at hcall
    simp [Name.splitSignatureAfter, hdepth, hcall] at h
  refine ⟨?_, hcall⟩
  by_cases hdepth : depth ≤ 0
  · rwa [← splitSignatureAfter_cons hbracket fun hc => hcall hc hdepth]
  · obtain ⟨hopen, hclose⟩ := bracket_eq_false hbracket
    simpa [Name.splitSignatureAfter, hopen, hclose, hdepth] using h

/-- A piece goes on in front of a character that is passed over. -/
lemma IsPiece.cons {cs : List Char} (hbracket : c = '<' ∨ c = '>' → inOperator before = true)
    (hcall : c = '(' → isCall before cs = true) (hcolon : c = ':' → cs.head? ≠ some ':')
    (h : IsPiece (c :: before) cs) : IsPiece before (c :: cs) := by
  obtain ⟨head, tail, rfl, hpasses, htail⟩ := h
  refine ⟨c :: head, tail, rfl, ⟨hbracket, fun hc => ?_, fun hc hhead => ?_, hpasses⟩, ?_⟩
  · obtain ⟨hword, hclose⟩ := isCall_iff.1 (hcall hc)
    refine isCall_iff.2 ⟨hword, ?_⟩
    cases head with
    | nil => rcases htail with rfl | ⟨htail, -⟩ <;> simp_all
    | cons d head => exact hclose
  · exact hcolon hc (by rw [List.head?_append, hhead]; rfl)
  · simpa using htail

/-- **The pieces of a name**, joined by the separator, are the name. Each of them is passed over up
to its first template bracket, if the name has no signature.

**Proof sketch.** Induction on the steps of the cut, with the piece begun so far in front of the
first one. Outside of brackets the next character either opens one or is passed over: a parenthesis
that did not belong to a call operator would begin a signature, and two colons would end the
piece. -/
lemma pieces_of_splitScopeAfter {piece s : List Char} {depth : Nat} {pieces : List (List Char)}
    (h : Name.splitScopeAfter before piece depth s = some pieces)
    (hsignature : Name.splitSignatureAfter before depth s = (x, none)) :
    ∃ q qs, pieces = (piece.reverse ++ q) :: qs ∧ joinScope (q :: qs) = s ∧
      (depth = 0 → IsPiece before q) ∧ ∀ p ∈ qs, ∃ b, IsPiece (':' :: ':' :: b) p := by
  fun_induction Name.splitScopeAfter before piece depth s generalizing pieces with
  | case1 before piece =>
    obtain rfl := Option.some.inj h
    exact ⟨[], [], by simp, rfl, fun _ => ⟨[], [], rfl, trivial, .inl rfl⟩, by simp⟩
  | case2 before piece depth hdepth => cases h
  | case3 before piece cs ih =>
    obtain ⟨rest, hrest, rfl⟩ := Option.map_eq_some_iff.1 h
    obtain ⟨q, qs, rfl, hjoin, hq, hqs⟩ := ih hrest hsignature
    refine ⟨[], q :: qs, by simp, by simp [joinScope, scopeMark, hjoin],
      fun _ => ⟨[], [], rfl, trivial, .inl rfl⟩, ?_⟩
    exact List.forall_mem_cons.2 ⟨⟨before, by simpa using hq rfl⟩, hqs⟩
  | case4 before piece depth cs hdepth ih =>
    obtain ⟨q, qs, rfl, hjoin, -, hqs⟩ := ih h hsignature
    refine ⟨':' :: q, qs, by simp, ?_, fun hzero => absurd hzero hdepth, hqs⟩
    exact (joinScope_append_cons [':'] q qs).trans (by rw [hjoin]; rfl)
  | case5 before piece depth c cs hne hopen ih =>
    obtain ⟨hc, hout⟩ : c = '<' ∧ inOperator before = false := by simpa using hopen
    subst hc
    have hnext : Name.splitSignatureAfter ('<' :: before) (depth + 1 : Nat) cs = (x, none) := by
      simpa [Name.splitSignatureAfter, hout] using hsignature
    obtain ⟨q, qs, rfl, hjoin, -, hqs⟩ := ih h hnext
    refine ⟨'<' :: q, qs, by simp, ?_, fun _ => ⟨[], '<' :: q, rfl, trivial, .inr ⟨rfl, hout⟩⟩, hqs⟩
    exact (joinScope_append_cons ['<'] q qs).trans (by rw [hjoin]; rfl)
  | case6 before piece c cs hne hopen hclose => cases h
  | case7 before piece c cs hne hopen hclose d ih =>
    obtain ⟨hc, hout⟩ : c = '>' ∧ inOperator before = false := by simpa using hclose
    subst hc
    have hnext : Name.splitSignatureAfter ('>' :: before) d cs = (x, none) := by
      simpa [Name.splitSignatureAfter, hout] using hsignature
    obtain ⟨q, qs, rfl, hjoin, -, hqs⟩ := ih h hnext
    refine ⟨'>' :: q, qs, by simp, ?_, fun hzero => absurd hzero (Nat.succ_ne_zero d), hqs⟩
    exact (joinScope_append_cons ['>'] q qs).trans (by rw [hjoin]; rfl)
  | case8 before piece depth c cs hne hopen hclose ih =>
    have hbracket : c = '<' ∨ c = '>' → inOperator before = true := by
      rintro (rfl | rfl)
      · simpa using hopen
      · simpa using hclose
    have hcolon : c = ':' → cs.head? ≠ some ':' := by
      rintro rfl hhead
      obtain ⟨tail, rfl⟩ := List.head?_eq_some_iff.1 hhead
      exact hne tail rfl rfl
    obtain ⟨hnext, hcall⟩ := of_splitSignatureAfter_cons hbracket hsignature
    obtain ⟨q, qs, rfl, hjoin, hq, hqs⟩ := ih h hnext
    refine ⟨c :: q, qs, by simp, (joinScope_append_cons [c] q qs).trans (by rw [hjoin]; rfl),
      fun hzero => (hq hzero).cons hbracket (fun hc => ?_) (fun hc hhead => ?_), hqs⟩
    · obtain ⟨hword, hhead⟩ := isCall_iff.1 (hcall hc (by omega))
      rw [← hjoin] at hhead
      exact isCall_iff.2 ⟨hword, head?_of_joinScope hhead (by decide)⟩
    · exact hcolon hc (hjoin ▸ head?_joinScope hhead qs)

/-! ## Segments that are cut nowhere -/

/-- A text that is cut nowhere where a segment can stand, unless a colon at its end makes a scope
separator with the character behind it. -/
structure Uncut (first : Bool) (t : List Char) : Prop where
  /-- No signature is cut off. -/
  signature : ∀ {before}, Begins first before → ∀ rest,
    Name.splitSignatureAfter before 0 (t ++ rest) =
      Name.splitSignatureAfter (t.reverse ++ before) 0 rest
  /-- It is not cut at scope separators. -/
  scope : ∀ {before rest}, Begins first before → (t.getLast? = some ':' → rest.head? ≠ some ':') →
    Name.splitScopeAfter before [] 0 (t ++ rest) =
      Name.splitScopeAfter (t.reverse ++ before) t.reverse 0 rest

/-- A text that is passed over is cut nowhere. -/
lemma uncut_of_passes (h : ∀ before, Begins first before → Passes before t) : Uncut first t where
  signature hbegins rest := (h _ hbegins).splitSignatureAfter_append 0 rest
  scope hbegins hend := by
    rw [(h _ hbegins).splitScopeAfter_append hend, List.append_nil]

/-- A scope separator is no place to cut a signature off. -/
lemma splitSignatureAfter_scopeMark (before : List Char) (depth : Int) (rest : List Char) :
    Name.splitSignatureAfter before depth (scopeMark ++ rest) =
      Name.splitSignatureAfter (scopeMark.reverse ++ before) depth rest := by
  simp [scopeMark, Name.splitSignatureAfter]

namespace Uncut

variable {texts : List (List Char)}

/-- No signature is cut off a text of segments that are cut nowhere. -/
lemma splitSignatureAfter_joinScope (hq : Uncut first q) (htexts : ∀ t ∈ texts, Uncut false t)
    (hbegins : Begins first before) (rest : List Char) :
    Name.splitSignatureAfter before 0 (joinScope (q :: texts) ++ rest) =
      Name.splitSignatureAfter ((joinScope (q :: texts)).reverse ++ before) 0 rest := by
  induction texts generalizing q first before with
  | nil => exact hq.signature hbegins rest
  | cons t texts ih =>
    obtain ⟨ht, htexts⟩ := List.forall_mem_cons.1 htexts
    have hlater : Begins false (scopeMark.reverse ++ (q.reverse ++ before)) := .later _
    simp only [joinScope, List.append_assoc] at ih ⊢
    rw [hq.signature hbegins, splitSignatureAfter_scopeMark, ih ht htexts hlater]
    simp

/-- **A text of segments is cut into the segments** if these are cut nowhere and none of them but
the last ends in a colon. -/
lemma splitScopeAfter_joinScope (hq : Uncut first q) (htexts : ∀ t ∈ texts, Uncut false t)
    (hbegins : Begins first before)
    (hcolon : ∀ t ∈ (q :: texts).dropLast, t.getLast? ≠ some ':') :
    Name.splitScopeAfter before [] 0 (joinScope (q :: texts)) = some (q :: texts) := by
  induction texts generalizing q first before with
  | nil =>
    have hcut : Name.splitScopeAfter before [] 0 (q ++ []) = _ := hq.scope hbegins (by simp)
    simpa [joinScope, Name.splitScopeAfter] using hcut
  | cons t texts ih =>
    obtain ⟨ht, htexts⟩ := List.forall_mem_cons.1 htexts
    obtain ⟨hq_colon, hcolon⟩ := List.forall_mem_cons.1 hcolon
    simp only [joinScope, List.append_assoc] at ih ⊢
    rw [hq.scope hbegins fun h => absurd h hq_colon, scopeMark, List.cons_append,
      List.cons_append, List.nil_append, Name.splitScopeAfter, if_pos rfl,
      ih ht htexts (.later _) hcolon]
    simp

end Uncut

/-! ## Signatures -/

/-- Where no signature is cut off, the name is the whole text. -/
lemma eq_of_splitSignatureAfter_none {s : List Char} {depth : Int}
    (h : Name.splitSignatureAfter before depth s = (x, none)) : x = before.reverse ++ s := by
  fun_induction Name.splitSignatureAfter before depth s with
  | case1 before depth => simpa using (Prod.mk.inj h).1.symm
  | case2 before depth c cs hopen ih => simpa using ih h
  | case3 before depth c cs hopen hclose ih => simpa using ih h
  | case4 before depth c cs hopen hclose hparen hcall ih => simpa using ih h
  | case5 before depth c cs hopen hclose hparen hcall => simp at h
  | case6 before depth c cs hopen hclose hparen ih => simpa using ih h

/-- The signature `b` is cut off at a parenthesis of `s`, `x` is left in front of it, and no
signature is cut off in what stands in front of it, even without some of the characters at its
end. -/
def CutOff (before : List Char) (depth : Int) (s x b : List Char) : Prop :=
  ∃ front cs, s = front ++ b ∧ b = '(' :: cs ∧ x = trimEnd (before.reverse ++ front) ∧
    ∀ u v, front = u ++ v → v.head? ≠ some ')' →
      Name.splitSignatureAfter before depth u = (before.reverse ++ u, none)

/-- A cut behind the next character, if that one is passed over whatever stands at the end. -/
lemma CutOff.cons {cs b : List Char} {depth depth' : Int} (h : CutOff (c :: before) depth' cs x b)
    (hpass : ∀ u v, cs = u ++ v ++ b → b.head? = some '(' → v.head? ≠ some ')' →
      Name.splitSignatureAfter before depth (c :: u) =
        Name.splitSignatureAfter (c :: before) depth' u) :
    CutOff before depth (c :: cs) x b := by
  obtain ⟨front, tail, rfl, hb, hx, hscan⟩ := h
  refine ⟨c :: front, tail, rfl, hb, by simpa using hx, fun u v hfront hv => ?_⟩
  cases u with
  | nil => simp [Name.splitSignatureAfter]
  | cons d u =>
    obtain ⟨rfl, rfl⟩ := List.cons.inj hfront
    rw [hpass u v (by simp) (by rw [hb]; rfl) hv, hscan u v rfl hv]
    simp

/-- **A signature that is cut off** begins with a parenthesis, and no signature is cut off in what
stands in front of it.

**Proof sketch.** Induction on the steps of the cut. Each step sees the characters in front of it
and at most the next one, which tells whether a parenthesis belongs to the call operator: so the end
may go if it does not begin with a closing parenthesis. -/
lemma cutOff_of_splitSignatureAfter {s b : List Char} {depth : Int}
    (h : Name.splitSignatureAfter before depth s = (x, some b)) : CutOff before depth s x b := by
  fun_induction Name.splitSignatureAfter before depth s with
  | case1 before depth => simp at h
  | case2 before depth c cs hopen ih =>
    refine (ih h).cons fun u v _ _ _ => ?_
    rw [Name.splitSignatureAfter, if_pos hopen]
  | case3 before depth c cs hopen hclose ih =>
    refine (ih h).cons fun u v _ _ _ => ?_
    rw [Name.splitSignatureAfter, if_neg hopen, if_pos hclose]
  | case4 before depth c cs hopen hclose hparen hcall ih =>
    refine (ih h).cons fun u v hcs hb hv => ?_
    have hnext : isCall before u = true := by
      obtain ⟨hword, hhead⟩ := isCall_iff.1 hcall
      refine isCall_iff.2 ⟨hword, ?_⟩
      cases u with
      | nil => cases v <;> simp_all
      | cons d u => simpa [hcs] using hhead
    rw [isCall] at hnext
    rw [Name.splitSignatureAfter, if_neg hopen, if_neg hclose, if_pos hparen, if_pos hnext]
  | case5 before depth c cs hopen hclose hparen hcall =>
    obtain ⟨rfl, rfl⟩ : trimEnd before.reverse = x ∧ c :: cs = b := by simpa using h
    obtain rfl : c = '(' := by simpa using (Bool.and_eq_true_iff.1 hparen).1
    refine ⟨[], cs, rfl, rfl, by simp, fun u v huv _ => ?_⟩
    obtain ⟨rfl, -⟩ := List.nil_eq_append_iff.1 huv
    simp [Name.splitSignatureAfter]
  | case6 before depth c cs hopen hclose hparen ih =>
    refine (ih h).cons fun u v _ _ _ => ?_
    rw [Name.splitSignatureAfter, if_neg hopen, if_neg hclose, if_neg hparen]

/-- What a text is cut into: the name, in which no signature is cut off, blanks, and the signature,
which begins with a parenthesis. -/
lemma splitSignature_spec {s : List Char} {signature : Option (List Char)}
    (h : Name.splitSignature s = (x, signature)) :
    Name.splitSignature x = (x, none) ∧ (∀ b, signature = some b → b.head? = some '(') ∧
      ∃ blank, s = x ++ blank ++ signature.getD [] ∧ (signature = none → blank = []) := by
  cases signature with
  | none =>
    obtain rfl : x = s := by simpa using eq_of_splitSignatureAfter_none h
    exact ⟨h, by simp, [], by simp, fun _ => rfl⟩
  | some b =>
    obtain ⟨front, cs, rfl, rfl, rfl, hscan⟩ := cutOff_of_splitSignatureAfter h
    obtain ⟨blank, hfront, hblank⟩ := exists_blank_trimEnd_append front
    refine ⟨?_, by simp, blank, ?_, by simp⟩
    · refine hscan _ blank hfront fun hhead => ?_
      exact absurd (hblank ')' (List.mem_of_mem_head? hhead)) (by decide)
    · rw [List.reverse_nil, List.nil_append, Option.getD_some, ← hfront]

end BindingRules
