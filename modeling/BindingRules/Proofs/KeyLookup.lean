import BindingRules.Name.Cover
import BindingRules.Proofs.NameKeys

set_option relaxedAutoImplicit false
set_option autoImplicit false

/-!
# Looking rules up by key

Rules without wildcards are looked up by the keys of a name, its own and the one without its
signature, instead of being matched against it one by one. Whatever covers the name is found that
way. What is found covers the name if it is a path and both names are read back from their keys. A
literal rule may be found by the second key alone: a path that ends in an underscore loses its
signature there, and what is left is the key of a literal name.

## Main results

* `Segment.coversAll_iff`, `Name.covers_path_iff`, `Name.covers_literal_iff` — what is covered
  without wildcards.
* `Name.key_mem_lookupKeys_iff` — which rules are found at their key.
-/

namespace BindingRules

open Text

variable {rules candidates : List Segment}

/-! ## Covering without wildcards -/

namespace Segment

/-- Segments without wildcards cover just themselves. -/
lemma coversAll_iff (hglob : ∀ r ∈ rules, r.isGlob = false) :
    coversAll rules candidates = true ↔ rules = candidates := by
  induction rules generalizing candidates with
  | nil => cases candidates <;> simp [coversAll]
  | cons r rules ih =>
    obtain ⟨hr, hrules⟩ := List.forall_mem_cons.1 hglob
    cases candidates with
    | nil => simp [coversAll]
    | cons c candidates =>
      have hcovers : r.covers c = true ↔ r = c := by
        cases r with
        | glob pattern => cases hr
        | exact text => exact beq_iff_eq
        | template base => exact beq_iff_eq
      rw [coversAll, Bool.and_eq_true, hcovers, ih hrules, List.cons.injEq]

end Segment

namespace Name

/-- Which names a path without wildcards covers: itself with its signature, and the overloads of it
if it has none. -/
lemma covers_path_iff {r c : ScopePath} (hpattern : (path r).isPattern = false) :
    (path r).covers (path c) = true ↔
      (r.signature = none ∨ r.signature = c.signature) ∧ r.segments = c.segments := by
  have hglob : ∀ s ∈ r.segments, s.isGlob = false := by simpa [isPattern] using hpattern
  rw [covers, Bool.and_eq_true, Segment.coversAll_iff hglob, Bool.or_eq_true,
    Option.isNone_iff_eq_none, beq_iff_eq]

/-- A literal name is its own key. -/
lemma key_literal (text : String) : (literal text).key = text := by
  rw [key, keyChars, String.ofList_toList]

/-- A literal name covers what has its key. -/
lemma covers_literal_iff {text : String} {c : Name} :
    (literal text).covers c = true ↔ (literal text).key = c.key := by
  have hcovers : (literal text).covers c = (text == c.key) := by cases c <;> rfl
  rw [hcovers, beq_iff_eq, key_literal]

/-- What a name without wildcards covers is found at its key. -/
lemma key_mem_lookupKeys {r c : Name} (hpattern : r.isPattern = false) (h : r.covers c = true) :
    r.key ∈ c.lookupKeys := by
  cases r with
  | literal text => exact covers_literal_iff.1 h ▸ List.mem_cons_self
  | path r =>
    cases c with
    | literal text => cases h
    | path c =>
      obtain ⟨hsignature, hsegments⟩ := (covers_path_iff hpattern).1 h
      obtain ⟨segments, signature⟩ := r
      obtain ⟨segments', signature'⟩ := c
      obtain rfl : segments = segments' := hsegments
      rcases hsignature with hnone | heq
      · obtain rfl : signature = none := hnone
        cases signature' <;> simp [lookupKeys, withoutSignature]
      · obtain rfl : signature = signature' := heq
        exact List.mem_cons_self

/-- A name without wildcards covers its overloads. -/
lemma covers_of_withoutSignature {r c : Name} (hpattern : r.isPattern = false)
    (h : c.withoutSignature = some r) : r.covers c = true := by
  obtain ⟨segments, signature⟩ | text := c
  · cases signature with
    | none => cases h
    | some t =>
      obtain rfl := Option.some.inj h
      exact (covers_path_iff hpattern).2 ⟨.inl rfl, rfl⟩
  · cases h

/-- A name covers itself if it has no wildcards. -/
lemma covers_self {r : Name} (hpattern : r.isPattern = false) : r.covers r = true := by
  cases r with
  | literal text => exact covers_literal_iff.2 rfl
  | path r => exact (covers_path_iff hpattern).2 ⟨.inr rfl, rfl⟩

/-- Names with the same key have it from the same characters. -/
lemma keyChars_eq_of_key_eq {m n : Name} (h : m.key = n.key) : m.keyChars = n.keyChars := by
  simpa [key] using congrArg String.toList h

/-- A name with the key of another is that name if both are read back from their keys. -/
lemma eq_of_readsBack {m n : Name} (hm : ofStripped (strip m.keyChars) = .ok m)
    (hn : ofStripped (strip n.keyChars) = .ok n) (hkey : m.key = n.key) : m = n := by
  rw [keyChars_eq_of_key_eq hkey, hn] at hm
  exact (Except.ok.inj hm).symm

/-- The keys of a name: its own, and the one without its signature if it has one. -/
lemma mem_lookupKeys_iff {key : String} {c : Name} : key ∈ c.lookupKeys ↔
    key = c.key ∨ ∃ c', c.withoutSignature = some c' ∧ key = c'.key := by
  rw [lookupKeys, List.mem_cons, Option.mem_toList, Option.map_eq_some_iff]
  simp only [eq_comm]

/-- A path with the key of a name without its signature is that name without its signature, if path
and name are read back from their keys. -/
lemma eq_of_key_withoutSignature {s t : List Char} {r : ScopePath} {c c' : Name}
    (hr : ofStripped (strip s) = .ok (path r)) (hc : ofStripped (strip t) = .ok c)
    (hbackr : (path r).ReadsBack) (hbackc : c.ReadsBack) (hc' : c.withoutSignature = some c')
    (hkey : (path r).key = c'.key) : path r = c' := by
  obtain ⟨segments, signature⟩ | text := c
  · cases signature with
    | none => cases hc'
    | some t =>
      obtain rfl := Option.some.inj hc'
      have hnormal : ScopePath.Normal ⟨segments, none⟩ :=
        ⟨(normal_of_ofStripped hc).segments, by simp⟩
      have hback : (path ⟨segments, none⟩).ReadsBack :=
        ⟨hbackc.1, by simp [ScopePath.LosesSignature]⟩
      -- the key is the one of a path, so it does not end in an underscore
      have hlast : (path ⟨segments, none⟩).keyChars.getLast? ≠ some '_' :=
        keyChars_eq_of_key_eq hkey ▸ getLast?_keyChars_path hr
      exact eq_of_readsBack ((readsBack_iff hr).2 hbackr)
        ((hnormal.readsBack_iff hlast).2 hback) hkey
  · cases hc'

/-- **Which rules without wildcards are found at their key.** Every rule that covers the name is. A
literal rule is found besides for the overloads of a path that ends in an underscore, if that is its
text. And a rule that is a path is found exactly if it covers the name, provided that both are read
back from their keys.

**Proof sketch.** Names that are read back are equal if their keys are, and a name covers itself.
The same holds for a path and the name without its signature: the key of the path does not end in an
underscore, so that the name without its signature is read back as well, and covers its
overloads. -/
theorem key_mem_lookupKeys_iff {raw raw' : String} {r c : Name} (hr : normalize raw = .ok r)
    (hc : normalize raw' = .ok c) (hpattern : r.isPattern = false) :
    (r.covers c = true → r.key ∈ c.lookupKeys) ∧
      (∀ text, r = literal text → (r.key ∈ c.lookupKeys ↔
        r.covers c = true ∨ c.withoutSignature.map key = some text)) ∧
      ∀ p, r = path p → r.ReadsBack → c.ReadsBack →
        (r.key ∈ c.lookupKeys ↔ r.covers c = true) := by
  refine ⟨key_mem_lookupKeys hpattern, ?_, ?_⟩
  · rintro text rfl
    rw [mem_lookupKeys_iff, covers_literal_iff, key_literal, Option.map_eq_some_iff]
    simp only [eq_comm]
  · rintro p rfl hbackr hbackc
    refine ⟨fun hmem => ?_, key_mem_lookupKeys hpattern⟩
    rcases mem_lookupKeys_iff.1 hmem with hkey | ⟨c', hc', hkey⟩
    · obtain rfl := eq_of_readsBack ((readsBack_iff hr).2 hbackr) ((readsBack_iff hc).2 hbackc) hkey
      exact covers_self hpattern
    · obtain rfl := eq_of_key_withoutSignature hr hc hbackr hbackc hc' hkey
      exact covers_of_withoutSignature hpattern hc'

/-- A rule for a call operator is found for one of its overloads. -/
theorem key_mem_lookupKeys_callOperator :
    let r : Name := .path ⟨[.template "NCollection_Map", .exact "operator()"], none⟩
    let c : Name := .path ⟨[.template "NCollection_Map", .exact "operator()"], some "(int)"⟩
    normalize "NCollection_Map<K>::operator()" = .ok r ∧
      normalize "::NCollection_Map<int> :: operator() ( int )" = .ok c ∧ r.isPattern = false ∧
      r.ReadsBack ∧ c.ReadsBack ∧ r.covers c = true ∧ r.key ∈ c.lookupKeys := by
  intro r c
  have hr : normalize "NCollection_Map<K>::operator()" = .ok r := by decide +kernel
  have hc : normalize "::NCollection_Map<int> :: operator() ( int )" = .ok c := by decide +kernel
  have hbackr : r.ReadsBack := by decide +kernel
  have hbackc : c.ReadsBack := by decide +kernel
  have hcovers : r.covers c = true := by decide +kernel
  exact ⟨hr, hc, rfl, hbackr, hbackc, hcovers,
    ((key_mem_lookupKeys_iff hr hc rfl).2.2 _ rfl hbackr hbackc).2 hcovers⟩

/-- **Rules that are found at their key and do not cover the name**: a literal rule and an overload
of the path with its text, and a rule with empty parentheses and the call operator. -/
theorem key_mem_lookupKeys_uncovered :
    (let r : Name := .literal "Foo::Bar_"
      let c : Name := .path ⟨[.exact "Foo", .exact "Bar_"], some "(int)"⟩
      normalize "Foo::Bar_" = .ok r ∧ normalize "Foo::Bar_(int)" = .ok c ∧ r.isPattern = false ∧
        r.key ∈ c.lookupKeys ∧ r.covers c = false) ∧
    (let r : Name := .path ⟨[.exact "Foo", .exact "operator"], some "()"⟩
      let c : Name := .path ⟨[.exact "Foo", .exact "operator()"], none⟩
      normalize "Foo::operator( )" = .ok r ∧ normalize "Foo::operator()" = .ok c ∧
        r.isPattern = false ∧ r.key ∈ c.lookupKeys ∧ r.covers c = false) := by
  decide +kernel

end Name

end BindingRules
