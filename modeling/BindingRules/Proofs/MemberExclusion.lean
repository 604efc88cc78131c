import BindingRules.Proofs.CanonicalLine
import BindingRules.Proofs.LaterRules

set_option relaxedAutoImplicit false
set_option autoImplicit false

/-!
# Members of excluded classes

A member is left out with the class around it. The class is found by its spelling: what stands in
front of the last scope separator outside template brackets is read as a name, and looked up among
the excluded classes. That is the spelling of the class if its brackets match when every bracket is
counted, and if it does not end in a colon itself. But a class template that is spelled without
parameters is also excluded by rules for any arguments, and its members do not look for these.

## Main definitions

* `Policy.closesBrackets`, `Policy.SpellsScope` — spellings in front of which no scope ends.

## Main results

* `Policy.enclosingScope?_append` — the scope in which a member stands.
* `Name.moduleOf_append` — a member belongs to the module of its class.
* `Policy.isClassExcluded_of_isSymbolExcluded` — by which names a class is excluded.
* `Policy.member_isSymbolExcluded` — members are left out with their class.
-/

namespace BindingRules

variable {c : Char} {s t x cs member before : List Char} {depth : Nat} {found : Option (List Char)}

namespace Policy

/-! ## The scope around a member -/

/-- How many brackets are open behind a character, if every bracket is counted. -/
def depthAfter (depth : Nat) (c : Char) : Nat :=
  if c == '<' then depth + 1 else if c == '>' then depth - 1 else depth

/-- Whether a text that begins inside some brackets closes all of them, and has no parenthesis
outside brackets. -/
def closesBrackets (depth : Nat) : List Char → Bool
  | [] => depth == 0
  | c :: cs => !(c == '(' && depth == 0) && closesBrackets (depthAfter depth c) cs

/-- Whether a scope is found again in front of a member: its brackets match, and it does not end in
half a scope separator. -/
def SpellsScope (scope : String) : Prop :=
  closesBrackets 0 scope.toList = true ∧ scope.toList.getLast? ≠ some ':'

/-- A character that neither begins a scope separator nor ends the search is passed over. -/
lemma enclosingScopeAfter_cons (hmark : c = ':' → cs.head? ≠ some ':')
    (hparenthesis : (c == '(' && depth == 0) = false) :
    enclosingScopeAfter before depth found (c :: cs) =
      enclosingScopeAfter (c :: before) (depthAfter depth c) found cs := by
  have hcons : ∀ cs', c = ':' → cs = ':' :: cs' → False := fun cs' hc hcs => by
    exact hmark hc (by rw [hcs]; rfl)
  rw [enclosingScopeAfter, depthAfter, hparenthesis]
  · split
    · rfl
    · split <;> rfl
  · exact hcons

/-- Behind the last scope separator nothing is found. -/
lemma enclosingScopeAfter_of_not_isInfix (h : ¬ scopeMark <:+: s) :
    enclosingScopeAfter before depth found s = found := by
  induction s generalizing before depth with
  | nil => rfl
  | cons c s ih =>
    have hs : ¬ scopeMark <:+: s := fun hpart => h (hpart.trans (List.suffix_cons c s).isInfix)
    have hmark : c = ':' → s.head? ≠ some ':' := by
      rintro rfl hhead
      obtain ⟨tail, rfl⟩ := List.head?_eq_some_iff.1 hhead
      exact h ⟨[], tail, rfl⟩
    cases hparenthesis : c == '(' && depth == 0 with
    | false => rw [enclosingScopeAfter_cons hmark hparenthesis, ih hs]
    | true =>
      obtain ⟨rfl, hdepth⟩ : c = '(' ∧ depth = 0 := by simpa using hparenthesis
      rw [enclosingScopeAfter]
      · simp [hdepth]
      · exact fun _ heq => absurd heq (by decide)

/-- A last scope separator outside brackets ends the scope. -/
lemma enclosingScopeAfter_scopeMark (hmember : ':' ∉ member) :
    enclosingScopeAfter before 0 found (':' :: ':' :: member) = some before.reverse := by
  have hnone : ¬ scopeMark <:+: member := fun hpart =>
    hmember (hpart.subset List.mem_cons_self)
  rw [enclosingScopeAfter, if_pos rfl, enclosingScopeAfter_of_not_isInfix hnone]

/-- **The scope around a member** is all that stands in front of the last separator.

**Proof sketch.** Induction on the scope, two characters at a time since separators are passed over
as a whole. What is found on the way is given up for what is found later. -/
lemma enclosingScopeAfter_append (hclosed : closesBrackets depth s = true)
    (hlast : s.getLast? ≠ some ':') (hmember : ':' ∉ member) :
    enclosingScopeAfter before depth found (s ++ ':' :: ':' :: member) =
      some (before.reverse ++ s) := by
  induction s using List.twoStepInduction generalizing before depth found with
  | nil =>
    obtain rfl : depth = 0 := by simpa [closesBrackets] using hclosed
    rw [List.nil_append, enclosingScopeAfter_scopeMark hmember, List.append_nil]
  | singleton a =>
    simp only [closesBrackets, Bool.and_eq_true, Bool.not_eq_true', beq_iff_eq] at hclosed
    have hcolon : a ≠ ':' := fun ha => hlast (ha ▸ rfl)
    rw [List.singleton_append, enclosingScopeAfter_cons (fun ha => absurd ha hcolon) hclosed.1,
      hclosed.2, enclosingScopeAfter_scopeMark hmember, List.reverse_cons]
  | cons_cons a b s ih ih' =>
    rw [closesBrackets, Bool.and_eq_true, Bool.not_eq_true'] at hclosed
    obtain ⟨hparenthesis, hrest⟩ := hclosed
    have hlast' : (b :: s).getLast? ≠ some ':' := by rwa [List.getLast?_cons_cons] at hlast
    by_cases hmark : a = ':' ∧ b = ':'
    · obtain ⟨rfl, rfl⟩ := hmark
      rw [List.cons_append, List.cons_append, enclosingScopeAfter]
      split
      · next hdepth =>
        subst hdepth
        have hs : s.getLast? ≠ some ':' := by
          cases s with
          | nil => simp
          | cons c s => rwa [List.getLast?_cons_cons] at hlast'
        rw [ih (by simpa [closesBrackets, depthAfter] using hrest) hs]
        simp
      · rw [← List.cons_append, ih' ':' (by simpa [depthAfter] using hrest) hlast']
        simp
    · rw [List.cons_append, enclosingScopeAfter_cons ?_ hparenthesis, ih' b hrest hlast']
      · simp
      · rintro rfl hb
        exact hmark ⟨rfl, by simpa using hb⟩

/-- **The scope in which a member stands** is the class that its spelling begins with, if that one
can be found again. -/
lemma enclosingScope?_append {scope ident : String} (hscope : SpellsScope scope)
    (hblank : Text.trim scope.toList ≠ []) (hident : ':' ∉ ident.toList) :
    enclosingScope? (scope ++ "::" ++ ident) = some (Text.trimmed scope) := by
  have hname : (scope ++ "::" ++ ident).toList = scope.toList ++ ':' :: ':' :: ident.toList := by
    simp
  rw [enclosingScope?, hname, enclosingScopeAfter_append hscope.1 hscope.2 hident]
  simp [hblank, Text.trimmed]

end Policy

/-! ## The module of a member -/

namespace Text

variable {sep a b : List Char}

/-- Nothing is dropped from a text that does not begin with the part. -/
lemma dropAll_of_not_isPrefix (h : ¬ sep <+: s) : dropAll sep s = s := by
  rw [dropAll, isPrefixOf?_eq_none_iff.2 h]

/-- What is left when leading parts are dropped ends the text. -/
lemma dropAll_isSuffix (sep s : List Char) : dropAll sep s <:+ s := by
  fun_induction dropAll sep s with
  | case1 s rest hp hlength ih => exact ih.trans ⟨sep, append_of_isPrefixOf? hp⟩
  | case2 s rest hp hlength => exact List.suffix_refl s
  | case3 s hp => exact List.suffix_refl s

/-- A scope separator in front of a text is dropped, and then those behind it. -/
lemma dropAll_scopeMark_cons (s : List Char) :
    dropAll scopeMark (':' :: ':' :: s) = dropAll scopeMark s := by
  have hsome : scopeMark.isPrefixOf? (':' :: ':' :: s) = some s :=
    List.isPrefixOf?_eq_some_iff_append_eq.2 rfl
  rw [dropAll, hsome]
  exact if_pos (by simp only [List.length_cons]; omega)

/-- Leading separators are dropped from the first of two texts alone, if none of them could end in
the second one. -/
lemma dropAll_scopeMark_append (h : t.head? = some ':' → ∃ d, s.getLast? = some d ∧ d ≠ ':') :
    dropAll scopeMark (s ++ t) = dropAll scopeMark s ++ t := by
  have hnot : ∀ x y : List Char, ¬ scopeMark <+: x ++ y → dropAll scopeMark (x ++ y) =
      dropAll scopeMark x ++ y := fun x y hx => by
    rw [dropAll_of_not_isPrefix hx,
      dropAll_of_not_isPrefix fun hx' => hx (hx'.trans (List.prefix_append x y))]
  induction s using List.twoStepInduction with
  | nil =>
    refine hnot _ _ fun ⟨rest, hrest⟩ => ?_
    have hhead : t.head? = some ':' := by rw [← List.nil_append t, ← hrest]; rfl
    obtain ⟨d, hd, -⟩ := h hhead
    cases hd
  | singleton a =>
    refine hnot _ _ fun ⟨rest, hrest⟩ => ?_
    obtain ⟨rfl, ht⟩ : ':' = a ∧ ':' :: rest = t := List.cons.inj hrest
    obtain ⟨d, hd, hne⟩ := h (by rw [← ht]; rfl)
    exact hne (Option.some.inj hd).symm
  | cons_cons a b s ih ih' =>
    by_cases hmark : a = ':' ∧ b = ':'
    · obtain ⟨rfl, rfl⟩ := hmark
      rw [List.cons_append, List.cons_append, dropAll_scopeMark_cons, dropAll_scopeMark_cons, ih]
      intro ht
      obtain ⟨d, hd, hne⟩ := h ht
      cases s with
      | nil => exact absurd (Option.some.inj hd).symm hne
      | cons c s => exact ⟨d, by simpa only [List.getLast?_cons_cons] using hd, hne⟩
    · refine hnot _ _ fun ⟨rest, hrest⟩ => hmark ?_
      obtain ⟨ha, hrest⟩ := List.cons.inj hrest
      exact ⟨ha.symm, (List.cons.inj hrest).1.symm⟩

/-- What stands behind a text does not change where it is split. -/
lemma splitOnce?_append_of_eq_some (h : splitOnce? sep s = some (a, b)) (t : List Char) :
    splitOnce? sep (s ++ t) = some (a, b ++ t) := by
  induction s generalizing a with
  | nil => simp [splitOnce?] at h
  | cons c s ih =>
    simp only [splitOnce?] at h
    rw [List.cons_append, splitOnce?]
    split at h
    · next rest hp =>
      obtain ⟨rfl, rfl⟩ := Prod.mk.inj (Option.some.inj h)
      have hjoin := append_of_isPrefixOf? hp
      have hp' : sep.isPrefixOf? (c :: (s ++ t)) = some (rest ++ t) :=
        List.isPrefixOf?_eq_some_iff_append_eq.2 (by rw [← List.append_assoc, hjoin]; rfl)
      rw [hp']
    · next hp =>
      obtain ⟨a', hs, rfl⟩ := exists_of_map_fst (f := List.cons c) h
      have hnone : sep.isPrefixOf? (c :: (s ++ t)) = none := by
        refine isPrefixOf?_eq_none_iff.2 fun hbegins => isPrefixOf?_eq_none_iff.1 hp ?_
        -- the separator is not longer than the text, in which it occurs
        have hjoin := append_of_splitOnce? hs
        have hlength : sep.length ≤ (c :: s).length := by
          rw [← hjoin]
          simp only [List.length_cons, List.length_append]
          omega
        exact List.prefix_of_prefix_length_le hbegins (List.prefix_append (c :: s) t) hlength
      rw [hnone, ih hs]
      rfl

/-- A text without separators is split behind another one where that one is, unless a separator
stands across the border. -/
lemma splitOnce?_scopeMark_append (h : splitOnce? scopeMark s = none)
    (hborder : t.head? = some ':' → s.getLast? ≠ some ':') :
    splitOnce? scopeMark (s ++ t) = (splitOnce? scopeMark t).map fun p => (s ++ p.1, p.2) := by
  induction s with
  | nil => simp
  | cons c s ih =>
    simp only [splitOnce?] at h
    split at h
    · cases h
    · next hp =>
      have hs := Option.map_eq_none_iff.1 h
      have hnone : scopeMark.isPrefixOf? (c :: (s ++ t)) = none := by
        refine isPrefixOf?_eq_none_iff.2 fun hbegins => ?_
        obtain ⟨rest, hjoin⟩ := hbegins
        obtain ⟨rfl, hst⟩ := List.cons.inj hjoin
        cases s with
        | nil => exact absurd rfl (hborder (by rw [← List.nil_append t, ← hst]; rfl))
        | cons d s =>
          obtain ⟨rfl, -⟩ := List.cons.inj hst
          cases hp
      have hborder' : t.head? = some ':' → s.getLast? ≠ some ':' := fun ht => by
        cases s with
        | nil => simp
        | cons d s => simpa only [List.getLast?_cons_cons] using hborder ht
      rw [List.cons_append, splitOnce?, hnone, ih hs hborder', Option.map_map]
      rfl

/-- A text in which the characters of a separator do not occur is not split. -/
lemma splitOnce?_scopeMark_eq_none (h : ':' ∉ s) : splitOnce? scopeMark s = none := by
  cases hs : splitOnce? scopeMark s with
  | none => rfl
  | some parts =>
    refine absurd ?_ h
    rw [← append_of_splitOnce? hs]
    simp [scopeMark]

/-- Blanks behind a text do not change what stands before its first bracket. -/
lemma trim_before_append_blank (s : List Char) (h : ∀ c ∈ t, isBlank c = true) :
    trim (Text.before '<' (s ++ t)) = trim (Text.before '<' s) := by
  by_cases hs : '<' ∈ s
  · rw [before_append_of_mem hs]
  · have ht : '<' ∉ t := fun ht => by cases h '<' ht
    rw [before_append_of_notMem hs, before_eq_self ht, before_eq_self hs, trim_append_blank h]

end Text

open Text

/-- **A member belongs to the module of its class**, if the spelling of the class does not end in
half a scope separator.

**Proof sketch.** Behind the leading separators, a spelling with a separator is cut there with the
member as without it. One without any is cut in front of the member, where blanks may stand. -/
lemma Name.moduleOf_append {scope : String} (hlast : scope.toList.getLast? ≠ some ':')
    (hblank : trim scope.toList ≠ []) (ident : String) :
    moduleOf (scope ++ "::" ++ ident) = moduleOf scope := by
  obtain ⟨b, hb, hblanks⟩ := exists_blank_trimEnd_append (trimStart scope.toList)
  rw [← trim] at hb
  have hstart : trimStart scope.toList ≠ [] := fun h => hblank (by rw [trim, h]; rfl)
  have hname : trim (scope ++ "::" ++ ident).toList =
      trim scope.toList ++ (b ++ ':' :: ':' :: trimEnd ident.toList) := by
    have hend : trimEnd (':' :: ':' :: ident.toList) = ':' :: ':' :: trimEnd ident.toList := by
      rw [trimEnd_cons (by rfl), trimEnd_cons (by rfl)]
    have hjoin : (scope ++ "::" ++ ident).toList = scope.toList ++ ':' :: ':' :: ident.toList := by
      simp
    rw [hjoin, trim, trimStart_append_of_ne_nil hstart,
      trimEnd_append_of_ne_nil (by rw [hend]; exact List.cons_ne_nil _ _), hend, hb,
      List.append_assoc]
  -- only where no blanks stand in front of the member could a separator begin earlier
  have hborder : (b ++ ':' :: ':' :: trimEnd ident.toList).head? = some ':' →
      ∃ d, (trim scope.toList).getLast? = some d ∧ d ≠ ':' := by
    intro hhead
    cases b with
    | nil =>
      rw [List.append_nil] at hb
      have hsame : scope.toList.getLast? = (trim scope.toList).getLast? := by
        rw [← hb]
        exact getLast?_of_isSuffix (List.dropWhile_suffix _) hstart
      obtain ⟨d, hd⟩ := Option.ne_none_iff_exists'.1 (mt List.getLast?_eq_none_iff.1 hblank)
      exact ⟨d, hd, fun heq => hlast (by rw [hsame, hd, heq])⟩
    | cons d b =>
      obtain rfl : d = ':' := Option.some.inj hhead
      cases hblanks ':' List.mem_cons_self
  have hborder' : (b ++ ':' :: ':' :: trimEnd ident.toList).head? = some ':' →
      (dropAll scopeMark (trim scope.toList)).getLast? ≠ some ':' := by
    intro hhead heq
    obtain ⟨d, hd, hne⟩ := hborder hhead
    have hsuffix := getLast?_of_isSuffix (dropAll_isSuffix scopeMark (trim scope.toList))
      fun hnil => by simp [hnil] at heq
    rw [hsuffix, heq] at hd
    exact hne (Option.some.inj hd).symm
  simp only [moduleOf, hname, dropAll_scopeMark_append hborder]
  cases hsplit : splitOnce? scopeMark (dropAll scopeMark (trim scope.toList)) with
  | some parts => simp only [splitOnce?_append_of_eq_some hsplit, Option.map_some, Option.getD_some]
  | none =>
    have hcolon : ':' ∉ b := fun hmem => by cases hblanks ':' hmem
    have hmark : splitOnce? scopeMark (':' :: ':' :: trimEnd ident.toList) =
        some ([], trimEnd ident.toList) := rfl
    rw [splitOnce?_scopeMark_append hsplit hborder',
      splitOnce?_scopeMark_append (splitOnce?_scopeMark_eq_none hcolon) fun _ hb' =>
        hcolon (List.mem_of_getLast? hb'), hmark]
    simp only [Option.map_some, Option.map_none, Option.getD_some, Option.getD_none,
      List.append_nil, trim_before_append_blank _ hblanks]

/-! ## Members follow their class -/

namespace Name

/-- Blanks around a text do not change the name that it stands for. -/
lemma normalize_trimmed (raw : String) : normalize (Text.trimmed raw) = normalize raw := by
  simp only [normalize, strip, Text.trimmed, String.toList_ofList, trim_trim]

/-- A blank text stands for no name. -/
lemma trim_ne_nil_of_normalize {raw : String} {n : Name} (h : normalize raw = .ok n) :
    trim raw.toList ≠ [] := by
  intro hblank
  have herror : normalize raw = .error .empty := by
    simp only [normalize, strip, hblank]
    rfl
  rw [herror] at h
  cases h

end Name

namespace Policy

variable {p : Policy} {owner m : Symbol} {kind : DirectiveKind} {raw ident : String}

/-- Only what can be read is excluded. -/
lemma trim_ne_nil_of_excludes (h : p.excludes kind raw = true) : trim raw.toList ≠ [] := by
  rw [excludes] at h
  split at h
  · next n hn => exact Name.trim_ne_nil_of_normalize hn
  · cases h

/-- Blanks around the spelling of a class do not count. -/
lemma isClassExcluded_trimmed (p : Policy) (raw : String) :
    p.isClassExcluded (Text.trimmed raw) = p.isClassExcluded raw := by
  simp only [isClassExcluded, excludes, Name.normalize_trimmed]

/-- A symbol without a name belongs to no module that is excluded. -/
lemma trim_ne_nil_of_isModuleExcluded (h : p.isModuleExcluded owner.moduleName = true) :
    trim owner.name.toList ≠ [] := by
  intro hblank
  refine trim_ne_nil_of_excludes h ?_
  have hdrop : dropAll scopeMark [] = [] := dropAll_of_not_isPrefix (by simp [scopeMark])
  simp only [Symbol.moduleName, Name.moduleOf, hblank, hdrop]
  rfl

/-- The names of a class are its own one and, for a template that is spelled without parameters, the
one with any arguments. -/
lemma normalize_of_mem_candidates {names : List Name} {n : Name}
    (hclass : isMember owner.kind = false) (hsignature : owner.signature = none)
    (hnames : owner.candidates = .ok names) (hn : n ∈ names) :
    Name.normalize owner.name = .ok n ∨ (owner.kind = .classTemplate ∧
      '<' ∉ owner.name.toList ∧ Name.normalize (owner.name ++ "<*>") = .ok n) := by
  have hself : owner.qualifiedName = Name.normalize owner.name := by
    simp [Symbol.qualifiedName, hsignature]
  rw [Symbol.candidates, hself] at hnames
  obtain ⟨own, hown, hnames⟩ := Statement.exists_of_bind_eq_ok hnames
  cases hkind : owner.kind with
  | plainClass =>
    simp only [hkind] at hnames
    obtain rfl := Except.ok.inj hnames
    exact .inl (by rw [hown, List.mem_singleton.1 hn])
  | classTemplate =>
    simp only [hkind] at hnames
    split at hnames
    · obtain rfl := Except.ok.inj hnames
      exact .inl (by rw [hown, List.mem_singleton.1 hn])
    · next hbare =>
      obtain ⟨any, hany, hnames⟩ := Statement.exists_of_bind_eq_ok hnames
      obtain rfl := Except.ok.inj hnames
      rcases List.mem_cons.1 hn with rfl | hn
      · exact .inl hown
      · obtain rfl := List.mem_singleton.1 hn
        exact .inr ⟨rfl, by simpa using hbare, hany⟩
  | _ => simp [hkind, isMember] at hclass

/-- **By which names a class is excluded**: with its module, by its own name, or as a template that
is spelled without parameters, by the name with any arguments. -/
lemma isClassExcluded_of_isSymbolExcluded (hclass : isMember owner.kind = false)
    (hsignature : owner.signature = none) (h : p.isSymbolExcluded owner = true) :
    p.isModuleExcluded owner.moduleName = true ∨ p.isClassExcluded owner.name = true ∨
      (owner.kind = .classTemplate ∧ '<' ∉ owner.name.toList ∧
        p.isClassExcluded (owner.name ++ "<*>") = true) := by
  have hcallable : owner.kind.isCallable = false := by
    cases hkind : owner.kind <;> first | rfl | simp [hkind, isMember] at hclass
  have hexclusion : exclusionOf owner.kind = .classExclude := by
    cases hkind : owner.kind <;> first | rfl | simp [hkind, isMember] at hclass
  rcases isSymbolExcluded_iff.1 h with hmodule | ⟨names, hnames, hname | hscope | htext⟩
  · exact .inl hmodule
  · obtain ⟨n, hn, hexcluded⟩ := hname
    rw [hexclusion] at hexcluded
    have hlooked : ∀ {raw : String}, Name.normalize raw = .ok n → p.isClassExcluded raw = true :=
      fun hraw => by simpa only [isClassExcluded, excludes, hraw] using hexcluded
    rcases normalize_of_mem_candidates hclass hsignature hnames hn with hown | ⟨hkind, hbare, hany⟩
    · exact .inr (.inl (hlooked hown))
    · exact .inr (.inr ⟨hkind, hbare, hlooked hany⟩)
  · rw [hclass] at hscope
    cases hscope.1
  · obtain ⟨kind, d, -, hfits⟩ := htext
    simp [Directive.fitsText, hcallable] at hfits

/-- **Members are left out with their class.** Let a class be excluded, let the spelling of a member
be that of the class with an identifier behind it, and let it be readable. If the class is found
again in front of the member, the member is excluded as well, unless the class is a template that is
spelled without parameters, and is excluded only by a rule for any arguments. -/
theorem member_isSymbolExcluded (p : Policy) (owner m : Symbol) (ident : String)
    (hclass : isMember owner.kind = false) (hsignature : owner.signature = none)
    (hmember : isMember m.kind = true) (hname : m.name = owner.name ++ "::" ++ ident)
    (hident : ':' ∉ ident.toList) (hscope : SpellsScope owner.name)
    (hread : ∃ names, m.candidates = .ok names) (h : p.isSymbolExcluded owner = true) :
    p.isSymbolExcluded m = true ∨
      (owner.kind = .classTemplate ∧ '<' ∉ owner.name.toList ∧
        p.isClassExcluded owner.name = false ∧ p.isClassExcluded (owner.name ++ "<*>") = true) := by
  obtain ⟨names, hnames⟩ := hread
  cases hown : p.isClassExcluded owner.name with
  | true =>
    have hfound := enclosingScope?_append hscope (trim_ne_nil_of_excludes hown) hident
    refine .inl (isSymbolExcluded_iff.2 (.inr ⟨names, hnames, .inr (.inl ?_)⟩))
    refine ⟨hmember, Text.trimmed owner.name, ?_, ?_⟩
    · rw [hname, hfound]
    · rw [isClassExcluded_trimmed, hown]
  | false =>
    rcases isClassExcluded_of_isSymbolExcluded hclass hsignature h with
      hmodule | howned | ⟨htemplate, hbare, hany⟩
    · have hsame : m.moduleName = owner.moduleName := by
        rw [Symbol.moduleName, hname, Name.moduleOf_append hscope.2
          (trim_ne_nil_of_isModuleExcluded hmodule)]
        rfl
      exact .inl (isSymbolExcluded_iff.2 (.inl (hsame ▸ hmodule)))
    · rw [hown] at howned
      cases howned
    · exact .inr ⟨htemplate, hbare, rfl, hany⟩

/-- A static method of a nested class that is spelled with template arguments. -/
theorem member_isSymbolExcluded_static :
    let owner : Symbol := { kind := .plainClass, name := "Geom::List<A::B, C<int>>" }
    let m : Symbol :=
      { kind := .staticMethod, name := "Geom::List<A::B, C<int>>::Size", signature := some "(int)" }
    ∃ p, Config.resolveText {} "rules" "-class Geom::List<TheItemType>\n" {} = .ok p ∧
      p.isSymbolExcluded owner = true ∧ p.isSymbolExcluded m = true := by
  intro owner m
  have hrun : (Config.resolveText {} "rules" "-class Geom::List<TheItemType>\n" {}).map
      (·.isSymbolExcluded owner) = .ok true := by decide +kernel
  obtain ⟨p, hp, howner⟩ := Statement.exists_of_map_eq_ok hrun
  have hread : m.candidates = .ok
      [.path ⟨[.exact "Geom", .template "List", .exact "Size"], some "(int)"⟩,
        .literal "Geom::List<*>::Size_"] := by
    decide +kernel
  have hscope : SpellsScope owner.name := ⟨by decide +kernel, by decide +kernel⟩
  refine ⟨p, hp, howner, ?_⟩
  exact (member_isSymbolExcluded p owner m "Size" rfl rfl rfl (by decide +kernel) (by decide) hscope
    ⟨_, hread⟩ howner).resolve_right fun h => by cases h.1

/-- A class template that is spelled without parameters is excluded by a rule for any arguments, but
its method is not. Neither is that of a class of which an operator among the arguments has an angle
bracket of its own. -/
theorem member_isSymbolExcluded_bare_template :
    let template : Symbol := { kind := .classTemplate, name := "NCollection_List" }
    let append : Symbol := { kind := .method, name := "NCollection_List::Append" }
    let owner : Symbol := { kind := .plainClass, name := "F<A::operator<,B::c>" }
    let run : Symbol := { kind := .method, name := "F<A::operator<,B::c>::Run" }
    ((Config.resolveText {} "rules" "-class NCollection_List<TheItemType>\n" {}).map fun p =>
      (p.isSymbolExcluded template, p.isSymbolExcluded append)) = .ok (true, false) ∧
    ((Config.resolveText {} "rules" "-class F<T>\n" {}).map fun p =>
      (p.isSymbolExcluded owner, p.isSymbolExcluded run)) = .ok (true, false) := by
  decide +kernel

end Policy

end BindingRules
