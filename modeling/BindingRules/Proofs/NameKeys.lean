import BindingRules.Proofs.NameSegments

set_option relaxedAutoImplicit false
set_option autoImplicit false

/-!
# Names that are read back from their keys

Rules are indexed by the keys of their names, so a key ought to stand for one name only: the one
that is read from it. This is so for all names but those of three kinds. A literal name that begins
with a scope separator loses it, as any text loses one when it is read. In a path, a colon at the
end of a segment makes a separator with the first colon of the one that follows. And a signature
that begins with empty parentheses, behind a segment that ends in the word for operators, is taken
for the parentheses of the call operator, from which it was told apart by a blank.

## Main definitions

* `ScopePath.Normal` — paths as they are read from texts.
* `Name.ReadsBack` — the names that are of none of the three kinds.

## Main results

* `Name.normal_of_ofStripped` — a path that is read from a text is normal.
* `Segment.Sound.uncut`, `Segment.Sound.not_colon_of_splitScopeAfter` — the text of segments is cut
  into their texts exactly if none of them but the last ends in a colon.
* `Name.normalize_key_iff` — exactly the names that `Name.ReadsBack` describes are read back.
-/

namespace BindingRules

open Text

variable {first : Bool} {before x p : List Char} {c : Char} {s : Segment}

/-! ## Names -/

/-- The last of the texts ends what they are joined to. -/
lemma isSuffix_joinScope {texts : List (List Char)} {q : List Char}
    (h : texts.getLast? = some q) : q <:+ joinScope texts := by
  induction texts with
  | nil => cases h
  | cons t texts ih =>
    cases texts with
    | nil =>
      obtain rfl : t = q := by simpa using h
      exact List.suffix_refl _
    | cons t' texts => exact (ih (by simpa using h)).trans (List.suffix_append _ _)

/-- Tight texts are joined to a tight text. -/
lemma tight_joinScope {q : List Char} {texts : List (List Char)}
    (h : ∀ t ∈ q :: texts, Tight t) : Tight (joinScope (q :: texts)) := by
  induction texts generalizing q with
  | nil => exact h q List.mem_cons_self
  | cons t texts ih =>
    obtain ⟨hq, htexts⟩ := List.forall_mem_cons.1 h
    exact hq.append (ih htexts) scopeMark

/-- A path as it is read from a text: its segments are as they stand in a name, and its signature
begins with a parenthesis and has no blanks. -/
structure ScopePath.Normal (n : ScopePath) : Prop where
  /-- There are segments, and they are as they stand in a name. -/
  segments : ∃ s rest, n.segments = s :: rest ∧ s.Sound true ∧ ∀ r ∈ rest, r.Sound false
  /-- The signature begins with a parenthesis and has no blanks. -/
  signature : ∀ t, n.signature = some t →
    t.toList.head? = some '(' ∧ ∀ c ∈ t.toList, isBlank c = false

namespace Name

/-- The test for an underscore at the end of a text is one of its last character. -/
lemma underscore_isSuffixOf_iff {s : List Char} :
    ['_'].isSuffixOf s = true ↔ s.getLast? = some '_' := by
  rw [List.isSuffixOf_iff_suffix, List.singleton_suffix_iff_getLast?_eq_some]

/-- Which texts are read as literal names. -/
lemma ofStripped_eq_literal_iff {s : List Char} {text : String} :
    ofStripped s = .ok (.literal text) ↔ s.getLast? = some '_' ∧ text = String.ofList s := by
  rw [ofStripped]
  split
  · next hnil => simp [List.isEmpty_iff.1 hnil]
  split
  · next hlast => simp [underscore_isSuffixOf_iff.1 hlast, eq_comm]
  · next hlast =>
    simp only [mt underscore_isSuffixOf_iff.2 hlast, false_and, iff_false]
    split
    · simp
    · split <;> simp

/-- Which texts are read as paths. -/
lemma ofStripped_eq_path_iff {s : List Char} {n : ScopePath} :
    ofStripped s = .ok (.path n) ↔ s ≠ [] ∧ s.getLast? ≠ some '_' ∧
      ∃ front signature pieces, splitSignature s = (front, signature) ∧
        splitScope front = some pieces ∧ (∀ p ∈ pieces, trim p ≠ []) ∧
        n = ⟨pieces.map Segment.ofChars,
          signature.map fun t => String.ofList (t.filter fun c => !isBlank c)⟩ := by
  rw [ofStripped]
  split
  · next hnil => simp [List.isEmpty_iff.1 hnil]
  · next hne =>
    rw [List.isEmpty_iff] at hne
    split
    · next hlast => simp [underscore_isSuffixOf_iff.1 hlast]
    · next hlast =>
      have hlast := mt underscore_isSuffixOf_iff.2 hlast
      obtain ⟨front, signature⟩ := splitSignature s
      cases hpieces : splitScope front with
      | none => simp [hpieces]
      | some pieces =>
        have hany : pieces.any (·.all isBlank) = true ↔ ¬ ∀ p ∈ pieces, trim p ≠ [] := by
          simp [trim_eq_nil_iff]
        simp only [hpieces]
        split
        · next hblank =>
          refine iff_of_false (by simp) ?_
          rintro ⟨-, -, front', signature', pieces', hcut, hpieces', hall, -⟩
          obtain ⟨rfl, rfl⟩ := Prod.mk.inj hcut
          obtain rfl := Option.some.inj (hpieces.symm.trans hpieces')
          exact hany.1 hblank hall
        · next hblank =>
          have hall := not_not.1 (mt hany.2 hblank)
          constructor
          · intro h
            obtain rfl := Name.path.inj (Except.ok.inj h)
            exact ⟨hne, hlast, front, signature, pieces, rfl, hpieces, hall, rfl⟩
          · rintro ⟨-, -, front', signature', pieces', hcut, hpieces', -, rfl⟩
            obtain ⟨rfl, rfl⟩ := Prod.mk.inj hcut
            obtain rfl := Option.some.inj (hpieces.symm.trans hpieces')
            rfl

/-- **A path that is read from a text** consists of segments as they stand in a name, and of a
signature without blanks. -/
lemma normal_of_ofStripped {s : List Char} {n : ScopePath} (h : ofStripped s = .ok (.path n)) :
    n.Normal := by
  obtain ⟨-, -, front, signature, pieces, hcut, hpieces, hblank, rfl⟩ := ofStripped_eq_path_iff.1 h
  obtain ⟨hfront, hparen, -⟩ := splitSignature_spec hcut
  obtain ⟨q, qs, rfl, -, hq, hqs⟩ := pieces_of_splitScopeAfter hpieces hfront
  refine ⟨⟨Segment.ofChars q, qs.map Segment.ofChars, by simp, ?_, ?_⟩, fun t ht => ?_⟩
  · exact (hq rfl).sound .first (hblank _ (by simp))
  · intro r hr
    obtain ⟨p, hp, rfl⟩ := List.mem_map.1 hr
    obtain ⟨b, hpiece⟩ := hqs p hp
    exact hpiece.sound (.later b) (hblank p (List.mem_cons_of_mem _ hp))
  · obtain ⟨b, rfl, rfl⟩ := Option.map_eq_some_iff.1 ht
    obtain ⟨cs, rfl⟩ := List.head?_eq_some_iff.1 (hparen b rfl)
    refine ⟨?_, fun c hc => ?_⟩
    · rw [String.toList_ofList, List.filter_cons_of_pos (by decide), List.head?_cons]
    · rw [String.toList_ofList] at hc
      simpa using (List.mem_filter.1 hc).2

/-- What a name is read from is not empty, and has no blanks around it. -/
lemma tight_of_ofStripped {s : List Char} {n : Name} (h : ofStripped (strip s) = .ok n) :
    Tight (strip s) := by
  refine tight_trim fun hnil => ?_
  rw [strip, hnil] at h
  cases h

/-- The text of a path that is read does not end in an underscore. -/
lemma getLast?_keyChars_path {s : List Char} {n : ScopePath}
    (h : ofStripped (strip s) = .ok (.path n)) : (path n).keyChars.getLast? ≠ some '_' := by
  have hs := tight_of_ofStripped h
  generalize strip s = s at h hs
  obtain ⟨-, hlast, front, signature, pieces, hcut, hpieces, hblank, rfl⟩ :=
    ofStripped_eq_path_iff.1 h
  obtain ⟨hfront, hparen, blank, hjoin, hnone⟩ := splitSignature_spec hcut
  cases signature with
  | some b =>
    -- the signature ends as the text does, and that is not in a blank
    have hb : b ≠ [] := by
      rintro rfl
      cases hparen [] rfl
    obtain ⟨b, c, rfl⟩ := (List.eq_nil_or_concat b).resolve_left hb
    have hc : s.getLast? = some c := by simp [hjoin]
    have hkeep : isBlank c = false := hs.isBlank_of_getLast? hc
    rw [hc] at hlast
    simpa [keyChars, hkeep] using hlast
  | none =>
    obtain ⟨q, qs, rfl, hpieces, -⟩ := pieces_of_splitScopeAfter hpieces hfront
    obtain rfl := hnone rfl
    obtain rfl : s = front := by simpa using hjoin
    obtain ⟨ps, p, hp⟩ := (List.eq_nil_or_concat (q :: qs)).resolve_left (List.cons_ne_nil _ _)
    have hne : trim p ≠ [] := hblank p (by simp [hp])
    have hend : p <:+ s := hpieces ▸ isSuffix_joinScope (by simp [hp])
    have hkey : (Segment.ofChars p).chars <:+
        joinScope (((q :: qs).map Segment.ofChars).map Segment.chars) := by
      refine isSuffix_joinScope ?_
      simp [hp]
    simp only [keyChars, Option.map_none, Option.elim_none, List.append_nil, List.reverse_nil,
      List.nil_append]
    rw [getLast?_of_isSuffix hkey (Segment.ofChars_chars hne).2.ne_nil]
    intro hunderscore
    rw [Segment.chars_ofChars_eq_trim (by simp [hunderscore]),
      hs.getLast?_trim hend hne] at hunderscore
    exact hlast hunderscore

/-- A segment has no more colons than the piece that it is read from: its text is part of the piece,
or part of it with the mark for template arguments. -/
lemma count_colon_chars (p : List Char) : (Segment.ofChars p).chars.count ':' ≤ p.count ':' := by
  by_cases hown : operatorWord <+: trim p ∨ '<' ∉ trim p
  · rw [(Segment.ofChars_own_text hown).2]
    exact (trim_isInfix p).sublist.count_le ':'
  · obtain ⟨hoperator, hbracket⟩ := not_or.1 hown
    rw [Segment.ofChars_eq_marked hoperator (not_not.1 hbracket), Segment.chars_marked,
      List.count_append]
    exact ((Segment.identifier_isPrefix p).isInfix.trans (trim_isInfix p)).sublist.count_le ':'

/-- Joined segments have no more colons than the joined pieces that they are read from. -/
lemma count_colon_joinScope (ps : List (List Char)) :
    (joinScope ((ps.map Segment.ofChars).map Segment.chars)).count ':' ≤
      (joinScope ps).count ':' := by
  induction ps with
  | nil => exact le_rfl
  | cons p ps ih =>
    have hp := count_colon_chars p
    cases ps with
    | nil => exact hp
    | cons p' ps =>
      simp only [List.map_cons, joinScope, List.count_append] at ih ⊢
      omega

/-- A name has no more colons than the text that it is read from. -/
lemma count_colon_keyChars {s : List Char} {n : Name} (h : ofStripped s = .ok n) :
    n.keyChars.count ':' ≤ s.count ':' := by
  cases n with
  | literal text =>
    obtain ⟨-, rfl⟩ := ofStripped_eq_literal_iff.1 h
    rw [keyChars, String.toList_ofList]
  | path n =>
    obtain ⟨-, -, front, signature, pieces, hcut, hpieces, -, rfl⟩ := ofStripped_eq_path_iff.1 h
    obtain ⟨hfront, -, blank, rfl, -⟩ := splitSignature_spec hcut
    obtain ⟨q, qs, rfl, rfl, -⟩ := pieces_of_splitScopeAfter hpieces hfront
    have hsegments := count_colon_joinScope (q :: qs)
    cases signature with
    | none => simpa [keyChars] using hsegments.trans (Nat.le_add_right _ _)
    | some b =>
      have hsignature := (List.filter_sublist (p := fun c => !isBlank c) (l := b)).count_le ':'
      simp only [keyChars, List.reverse_nil, List.nil_append, Option.map_some, Option.elim_some,
        String.toList_ofList, Option.getD_some, List.count_append] at hsegments ⊢
      omega

end Name

/-! ## Cutting a text of segments -/

namespace Segment.Sound

variable {segments : List Segment}

/-- No scope separator stands in the first segment of a name. -/
lemma not_scopeMark_chars (hs : s.Sound true) : ¬ scopeMark <:+: s.chars := by
  have hbase := (hs.passes [] .first).not_scopeMark
  rcases s.chars_eq_base with hchars | hchars
  · rwa [hchars]
  · rw [hchars, templateMark]
    exact not_infix_append_cons hbase (by decide) (by decide)

/-- The text of a segment is cut nowhere. -/
lemma uncut (hs : s.Sound first) : Uncut first s.chars := by
  have hbase : Uncut first s.base.toList := uncut_of_passes hs.passes
  rcases s.chars_eq_base with hchars | hchars
  · rwa [hchars]
  · rw [hchars]
    refine ⟨fun hbegins rest => ?_, fun hbegins _ => ?_⟩
    · rw [List.append_assoc, hbase.signature hbegins, splitSignatureAfter_templateMark]
      simp
    · rw [List.append_assoc, hbase.scope hbegins fun _ => by simp [templateMark],
        splitScopeAfter_templateMark]
      simp

/-- The texts of segments behind other segments are cut nowhere. -/
lemma uncut_chars (hrest : ∀ r ∈ segments, r.Sound false) :
    ∀ t ∈ segments.map chars, Uncut false t :=
  List.forall_mem_map.2 fun r hr => (hrest r hr).uncut

/-- **If segments are read back from their text, none of them but the last ends in a colon.**

**Proof sketch.** Induction on the segments. If the first one ended in a colon, the text would be
cut in front of this colon, and the first piece would be too short for the segment. -/
lemma not_colon_of_splitScopeAfter {pieces : List (List Char)} (hs : s.Sound first)
    (hrest : ∀ r ∈ segments, r.Sound false) (hbegins : Begins first before)
    (hcut : Name.splitScopeAfter before [] 0 (joinScope ((s :: segments).map chars)) = some pieces)
    (hread : pieces.map ofChars = s :: segments) :
    ∀ r ∈ (s :: segments).dropLast, r.chars.getLast? ≠ some ':' := by
  induction segments generalizing s first before pieces with
  | nil => simp
  | cons r segments ih =>
    obtain ⟨hr, hrest⟩ := List.forall_mem_cons.1 hrest
    simp only [List.map_cons, joinScope, List.append_assoc] at ih hcut
    have hcolon : s.chars.getLast? ≠ some ':' := by
      intro hcolon
      obtain ⟨x, hx⟩ := List.getLast?_eq_some_iff.1 hcolon
      have hpasses : Passes before (x ++ [':']) := by
        rcases s.chars_eq_base with hchars | hchars
        · rw [← hx, hchars]
          exact hs.passes before hbegins
        · rw [hchars, getLast?_append_templateMark] at hcolon
          cases hcolon
      have hlast : x.getLast? ≠ some ':' := by
        intro hlast
        obtain ⟨y, rfl⟩ := List.getLast?_eq_some_iff.1 hlast
        exact hpasses.not_scopeMark ⟨y, [], by simp [scopeMark]⟩
      rw [hx, scopeMark, List.append_assoc, List.singleton_append, List.cons_append,
        (hpasses.of_append (by simp)).splitScopeAfter_append fun h => absurd h hlast,
        Name.splitScopeAfter, if_pos rfl] at hcut
      obtain ⟨pieces', -, rfl⟩ := Option.map_eq_some_iff.1 hcut
      obtain ⟨hfirst, -⟩ := List.cons.inj hread
      rw [List.append_nil, List.reverse_reverse] at hfirst
      have htrim := chars_ofChars_eq_trim (p := x) (by rw [hfirst, hcolon]; decide)
      have hlength := (trim_isInfix x).length_le
      rw [← htrim, hfirst, hx, List.length_append, List.length_singleton] at hlength
      omega
    rw [hs.uncut.scope hbegins fun h => absurd h hcolon, scopeMark, List.cons_append,
      List.cons_append, List.nil_append, Name.splitScopeAfter, if_pos rfl] at hcut
    obtain ⟨pieces', hcut', rfl⟩ := Option.map_eq_some_iff.1 hcut
    exact List.forall_mem_cons.2 ⟨hcolon, ih hr hrest (.later _) hcut' (List.cons.inj hread).2⟩

end Segment.Sound

/-! ## Reading keys -/

/-- Outside of brackets a signature begins at the first parenthesis that does not belong to a call
operator. -/
lemma splitSignatureAfter_parenthesis (before cs : List Char) :
    Name.splitSignatureAfter before 0 ('(' :: cs) =
      if isCall before cs then Name.splitSignatureAfter ('(' :: before) 0 cs
      else (trimEnd before.reverse, some ('(' :: cs)) := by
  simp [Name.splitSignatureAfter, isCall]

namespace ScopePath

/-- The characters of a path without its signature. -/
def pathChars (n : ScopePath) : List Char := joinScope (n.segments.map Segment.chars)

/-- Whether the signature of a path is taken for the parentheses of the call operator when the key
is read: it begins with empty parentheses, and the path ends in the word for operators. -/
def LosesSignature (n : ScopePath) : Prop :=
  operatorWord <:+ n.pathChars ∧ ['(', ')'] <+: n.signature.elim [] String.toList

instance (n : ScopePath) : Decidable n.LosesSignature := inferInstanceAs (Decidable (_ ∧ _))

/-- The key of a path is the path without its signature, and then the signature. -/
lemma keyChars_path (n : ScopePath) :
    (Name.path n).keyChars = n.pathChars ++ n.signature.elim [] String.toList :=
  rfl

namespace Normal

variable {n : ScopePath}

/-- A path without its signature has no blanks around it. -/
lemma tight_pathChars (hn : n.Normal) : Tight n.pathChars := by
  obtain ⟨s, segments, hsegments, hs, hrest⟩ := hn.segments
  rw [pathChars, hsegments, List.map_cons]
  refine tight_joinScope (List.forall_mem_cons.2 ⟨hs.tight, ?_⟩)
  exact List.forall_mem_map.2 fun r hr => (hrest r hr).tight

/-- The segments of a path are read back from their texts, which have no blanks around them. -/
lemma of_mem_segments (hn : n.Normal) (hs : s ∈ n.segments) :
    Segment.ofChars s.chars = s ∧ Tight s.chars := by
  obtain ⟨r, segments, hsegments, hr, hrest⟩ := hn.segments
  rw [hsegments] at hs
  rcases List.mem_cons.1 hs with rfl | hs
  · exact ⟨hr.ofChars_chars, hr.tight⟩
  · exact ⟨(hrest s hs).ofChars_chars, (hrest s hs).tight⟩

/-- There are no blanks to be taken out of a signature. -/
lemma map_filter_signature (hn : n.Normal) :
    ((n.signature.map String.toList).map fun t => String.ofList (t.filter fun c => !isBlank c)) =
      n.signature := by
  cases hsignature : n.signature with
  | none => rfl
  | some t =>
    have hkeep : t.toList.filter (fun c => !isBlank c) = t.toList :=
      List.filter_eq_self.2 fun c hc => by simp [(hn.signature t hsignature).2 c hc]
    simp [hkeep]

/-- The key of a path has no blanks around it. -/
lemma tight_keyChars (hn : n.Normal) : Tight (Name.path n).keyChars := by
  rw [keyChars_path]
  cases hsignature : n.signature with
  | none => simpa using hn.tight_pathChars
  | some t =>
    obtain ⟨hparen, hblank⟩ := hn.signature t hsignature
    have ht : Tight t.toList := tight_of_not_isBlank (by rintro h; simp [h] at hparen) hblank
    simpa using hn.tight_pathChars.append ht []

/-- In the key of a path, the signature is looked for behind the path. -/
lemma splitSignature_keyChars (hn : n.Normal) : Name.splitSignature (Name.path n).keyChars =
    Name.splitSignatureAfter n.pathChars.reverse 0 (n.signature.elim [] String.toList) := by
  obtain ⟨s, segments, hsegments, hs, hrest⟩ := hn.segments
  have hcut := hs.uncut.splitSignatureAfter_joinScope (Segment.Sound.uncut_chars hrest) .first
    (n.signature.elim [] String.toList)
  rwa [List.append_nil, ← List.map_cons, ← hsegments, ← pathChars] at hcut

/-- The first parenthesis of the signature belongs to the call operator if the signature is lost. -/
lemma losesSignature_iff (hn : n.Normal) {t : String} {cs : List Char}
    (hsignature : n.signature = some t) (ht : t.toList = '(' :: cs) :
    n.LosesSignature ↔ isCall n.pathChars.reverse cs = true := by
  rw [LosesSignature, isCall_iff, List.reverse_reverse, hn.tight_pathChars.trimEnd_eq, hsignature,
    Option.elim_some, ht, List.cons_prefix_cons, List.singleton_prefix_iff_head?_eq_some]
  simp

/-- A signature that is not lost is cut off the key again. -/
lemma splitSignature_of_not_losesSignature (hn : n.Normal) (h : ¬ n.LosesSignature) :
    Name.splitSignature (Name.path n).keyChars =
      (n.pathChars, n.signature.map String.toList) := by
  rw [hn.splitSignature_keyChars]
  cases hsignature : n.signature with
  | none => simp [Name.splitSignatureAfter]
  | some t =>
    obtain ⟨cs, hcs⟩ := List.head?_eq_some_iff.1 (hn.signature t hsignature).1
    rw [Option.elim_some, hcs, splitSignatureAfter_parenthesis,
      if_neg (mt (hn.losesSignature_iff hsignature hcs).2 h), List.reverse_reverse,
      hn.tight_pathChars.trimEnd_eq, Option.map_some, hcs]

/-- A signature that is lost is not cut off the key again: only a part of it could be. -/
lemma signature_ne_of_losesSignature (hn : n.Normal) (h : n.LosesSignature)
    {signature : Option (List Char)}
    (hcut : Name.splitSignature (Name.path n).keyChars = (x, signature)) :
    n.signature ≠ signature.map fun t => String.ofList (t.filter fun c => !isBlank c) := by
  intro hread
  rw [hn.splitSignature_keyChars] at hcut
  cases hsignature : n.signature with
  | none => simp [LosesSignature, hsignature] at h
  | some t =>
    obtain ⟨cs, hcs⟩ := List.head?_eq_some_iff.1 (hn.signature t hsignature).1
    rw [hsignature, Option.elim_some, hcs, splitSignatureAfter_parenthesis,
      if_pos ((hn.losesSignature_iff hsignature hcs).1 h)] at hcut
    rw [hsignature] at hread
    obtain ⟨b, rfl, rfl⟩ := Option.map_eq_some_iff.1 hread.symm
    obtain ⟨front, -, rfl, -⟩ := cutOff_of_splitSignatureAfter hcut
    have hlength := (List.filter_sublist (p := fun c => !isBlank c) (l := b)).length_le
    rw [String.toList_ofList] at hcs
    simp only [hcs, List.length_cons, List.length_append] at hlength
    omega

/-- **The key of a path is read as the path again** under conditions on the ends of its segments. -/
lemma ofStripped_keyChars_iff (hn : n.Normal) (hlast : (Name.path n).keyChars.getLast? ≠ some '_') :
    Name.ofStripped (Name.path n).keyChars = .ok (.path n) ↔
      (∀ s ∈ n.segments.dropLast, s.chars.getLast? ≠ some ':') ∧ ¬ n.LosesSignature := by
  obtain ⟨s, segments, hsegments, hs, hrest⟩ := hn.segments
  rw [Name.ofStripped_eq_path_iff]
  constructor
  · rintro ⟨-, -, front, signature, pieces, hcut, hpieces, -, hread⟩
    have hloses : ¬ n.LosesSignature := fun h =>
      hn.signature_ne_of_losesSignature h hcut (congrArg ScopePath.signature hread)
    rw [hn.splitSignature_of_not_losesSignature hloses] at hcut
    obtain ⟨rfl, -⟩ := Prod.mk.inj hcut
    rw [pathChars, hsegments] at hpieces
    refine ⟨?_, hloses⟩
    have hread := congrArg ScopePath.segments hread
    rw [hsegments] at hread ⊢
    exact hs.not_colon_of_splitScopeAfter hrest .first hpieces hread.symm
  · rintro ⟨hcolon, hloses⟩
    refine ⟨hn.tight_keyChars.ne_nil, hlast, n.pathChars, n.signature.map String.toList,
      n.segments.map Segment.chars, hn.splitSignature_of_not_losesSignature hloses, ?_, ?_, ?_⟩
    · rw [pathChars, hsegments]
      refine hs.uncut.splitScopeAfter_joinScope (Segment.Sound.uncut_chars hrest) .first ?_
      rw [← List.map_cons, ← hsegments, ← List.map_dropLast]
      exact List.forall_mem_map.2 hcolon
    · rintro p hp
      obtain ⟨r, hr, rfl⟩ := List.mem_map.1 hp
      have htight := (hn.of_mem_segments hr).2
      rw [htight.trim_eq]
      exact htight.ne_nil
    · have hread : (n.segments.map Segment.chars).map Segment.ofChars = n.segments := by
        rw [List.map_map]
        exact (List.map_congr_left fun r hr => (hn.of_mem_segments hr).1).trans (List.map_id _)
      rw [hread, hn.map_filter_signature]

end Normal

end ScopePath

namespace Name

/-- Whether the key of a name is read as the name again: a literal name does not begin with a scope
separator, and in a path no segment but the last ends in a colon and the signature is not lost. -/
def ReadsBack : Name → Prop
  | literal text => ¬ scopeMark <+: text.toList
  | path n => (∀ s ∈ n.segments.dropLast, s.chars.getLast? ≠ some ':') ∧ ¬ n.LosesSignature

instance (n : Name) : Decidable n.ReadsBack :=
  match n with
  | literal text => inferInstanceAs (Decidable (¬ scopeMark <+: text.toList))
  | path n => inferInstanceAs (Decidable ((∀ s ∈ n.segments.dropLast,
      s.chars.getLast? ≠ some ':') ∧ ¬ n.LosesSignature))

variable {n : Name}

/-- The key of a name has no blanks around it. -/
lemma tight_keyChars {s : List Char} (h : ofStripped (strip s) = .ok n) : Tight n.keyChars := by
  cases n with
  | literal text =>
    obtain ⟨-, rfl⟩ := ofStripped_eq_literal_iff.1 h
    rw [keyChars, String.toList_ofList]
    exact tight_of_ofStripped h
  | path n => exact (normal_of_ofStripped h).tight_keyChars

/-- Reading a key: a scope separator in front of it would be lost. -/
lemma ofStripped_strip_keyChars_iff (hn : Tight n.keyChars) :
    ofStripped (strip n.keyChars) = .ok n ↔
      ¬ scopeMark <+: n.keyChars ∧ ofStripped n.keyChars = .ok n := by
  rw [strip, hn.trim_eq]
  cases hmark : scopeMark.isPrefixOf? n.keyChars with
  | some rest =>
    have hkey := List.isPrefixOf?_eq_some_iff_append_eq.1 hmark
    refine iff_of_false (fun h => ?_) fun h => h.1 ⟨rest, hkey⟩
    -- the two colons in front are missing in what is read
    have hcount := count_colon_keyChars h
    have htrim := (trim_isInfix rest).sublist.count_le ':'
    rw [← hkey, List.count_append, Option.getD_some] at hcount
    have hmark : scopeMark.count ':' = 2 := rfl
    omega
  | none =>
    have hbegin : ¬ scopeMark <+: n.keyChars := isPrefixOf?_eq_none_iff.1 hmark
    simp [hbegin, hn.trim_eq]

/-- A path that is read back has no scope separator in front. -/
lemma not_scopeMark_isPrefix {n : ScopePath} (hn : n.Normal) (h : (path n).ReadsBack) :
    ¬ scopeMark <+: (path n).keyChars := by
  obtain ⟨s, segments, hsegments, hs, -⟩ := hn.segments
  rintro ⟨rest, hmark⟩
  rw [ScopePath.keyChars_path, ScopePath.pathChars, hsegments] at hmark
  obtain ⟨c, cs, hchars⟩ := List.exists_cons_of_ne_nil hs.tight.ne_nil
  rw [List.map_cons, hchars, scopeMark] at hmark
  rcases cs with _ | ⟨d, cs⟩
  · -- the first segment is a colon, so it is the only one, and no colon follows
    have hfirst := joinScope_append_cons [c] [] (segments.map Segment.chars)
    rw [List.append_nil] at hfirst
    rw [hfirst] at hmark
    obtain ⟨hc, htail⟩ := List.cons.inj hmark
    rcases segments with _ | ⟨r, segments⟩
    · cases hsignature : n.signature with
      | none =>
        rw [hsignature] at htail
        cases htail
      | some t =>
        rw [hsignature] at htail
        have hcolon : ':' :: rest = t.toList := htail
        have hparen := (hn.signature t hsignature).1
        rw [← hcolon] at hparen
        exact absurd hparen (by simp)
    · exact h.1 s (by simp [hsegments]) (by rw [hchars, ← hc]; rfl)
  · have hfirst := joinScope_append_cons [c, d] cs (segments.map Segment.chars)
    rw [List.cons_append, List.singleton_append] at hfirst
    rw [hfirst] at hmark
    obtain ⟨hc, htail⟩ := List.cons.inj hmark
    obtain ⟨hd, -⟩ := List.cons.inj htail
    exact hs.not_scopeMark_chars ⟨[], cs, by rw [hchars, ← hc, ← hd]; rfl⟩

end Name

namespace ScopePath.Normal

variable {n : ScopePath}

/-- The key of a path is read as the path again exactly if it is of neither kind. -/
lemma readsBack_iff (hn : n.Normal) (hlast : (Name.path n).keyChars.getLast? ≠ some '_') :
    Name.ofStripped (Name.strip (Name.path n).keyChars) = .ok (.path n) ↔
      (Name.path n).ReadsBack := by
  rw [Name.ofStripped_strip_keyChars_iff hn.tight_keyChars, hn.ofStripped_keyChars_iff hlast]
  exact and_iff_right_of_imp (Name.not_scopeMark_isPrefix hn)

end ScopePath.Normal

namespace Name

/-- The key of a name is read as the name again exactly if it is of none of the three kinds.

**Proof sketch.** A scope separator at the beginning of the key would be lost with its colons, and a
name has no more colons than the text that it is read from. For a path, the segments are passed over
while the signature is looked for, which is cut off unless its first parenthesis belongs to the call
operator. The text in front of it is cut at the separators between the segments, unless a colon at
the end of a segment comes first. -/
lemma readsBack_iff {s : List Char} {n : Name} (h : ofStripped (strip s) = .ok n) :
    ofStripped (strip n.keyChars) = .ok n ↔ n.ReadsBack := by
  cases n with
  | literal text =>
    rw [ofStripped_strip_keyChars_iff (tight_keyChars h)]
    obtain ⟨hlast, rfl⟩ := ofStripped_eq_literal_iff.1 h
    rw [ofStripped_eq_literal_iff, keyChars, ReadsBack]
    simp [hlast]
  | path n =>
    exact (normal_of_ofStripped h).readsBack_iff (getLast?_keyChars_path h)

/-- **The names that are read back from their keys.** The key of a name, which was read from any
text, is read as that name again exactly if the name is of none of the three kinds: a literal one
behind a scope separator, a path in which a segment in front of a separator ends in a colon, and a
path of which the signature is taken for the call operator. -/
theorem normalize_key_iff {raw : String} {n : Name} (h : normalize raw = .ok n) :
    normalize n.key = .ok n ↔ n.ReadsBack := by
  rw [normalize] at h
  rw [normalize, key, String.toList_ofList]
  exact readsBack_iff h

/-- The call operator of a template with a signature is read back from its key. -/
theorem normalize_key_callOperator :
    let n : Name := .path ⟨[.template "NCollection_Map", .exact "operator ()"], some "(inta)"⟩
    normalize " ::NCollection_Map<K, V> :: operator () ( int a )" = .ok n ∧ n.ReadsBack ∧
      normalize n.key = .ok n := by
  intro n
  have hread : normalize " ::NCollection_Map<K, V> :: operator () ( int a )" = .ok n := by
    decide +kernel
  have hback : n.ReadsBack := by decide +kernel
  exact ⟨hread, hback, (normalize_key_iff hread).2 hback⟩

/-- **Names that are not read back**, one of each kind: a literal name behind a scope separator, a
segment that ends in a colon, and empty parentheses behind the word for operators. -/
theorem normalize_key_changed :
    (normalize "::::Foo_" = .ok (.literal "::Foo_") ∧
      normalize "::Foo_" = .ok (.literal "Foo_")) ∧
    (normalize "Foo: ::Bar" = .ok (.path ⟨[.exact "Foo:", .exact "Bar"], none⟩) ∧
      (path ⟨[.exact "Foo:", .exact "Bar"], none⟩).key = "Foo:::Bar" ∧
      normalize "Foo:::Bar" = .ok (.path ⟨[.exact "Foo", .exact ":Bar"], none⟩)) ∧
    (normalize "Foo::operator( )" = .ok (.path ⟨[.exact "Foo", .exact "operator"], some "()"⟩) ∧
      (path ⟨[.exact "Foo", .exact "operator"], some "()"⟩).key = "Foo::operator()" ∧
      normalize "Foo::operator()" = .ok (.path ⟨[.exact "Foo", .exact "operator()"], none⟩)) := by
  decide +kernel

end Name

end BindingRules
