import BindingRules.Policy.Resolve
import BindingRules.Proofs.StoreHistory
import Mathlib.Data.List.Nodup
import Mathlib.Data.List.Pairwise
import Mathlib.Data.List.Perm.Basic

set_option relaxedAutoImplicit false
set_option autoImplicit false

/-!
# The answers of the store as lists

Every answer of the store is a part of the history of admitted directives, in the order of the
history: those that a query looks for, the last one of these, or those that yield to no later one.
No answer depends on the tables in which the store keeps its directives.

## Main definitions

* `Statement.concerns`, `Statement.hasKey` — which statements a query for a name, or for a key,
  looks for.

## Main results

* `Directive.eq_of_increasing`, `Directive.sort_eq_of_mem_iff` — lists in the order of their
  positions are known by their members.
* `Store.Reflects.query_eq`, `Store.Reflects.queryAll_eq`, `Store.Reflects.atKey_eq` — the answers
  to queries for a name or a text.
* `Store.Reflects.directivesOf_eq` — all live directives of a kind.
* `Config.reflects_fillStore`, `Config.fillStore_snd` — the store of directives in order, and the
  notes about them.
-/

namespace BindingRules

variable {platform : Option String} {kind : DirectiveKind} {n : Name} {d e : Directive}
  {before ds es : List Directive} {s : Store} {key : String}

namespace Directive

/-! ## Lists in the order of positions -/

/-- Directives with increasing positions are all different. -/
lemma nodup_of_increasing (h : ds.Pairwise fun d e => d.order < e.order) : ds.Nodup :=
  h.imp fun {d e} hlt (heq : d = e) => Nat.ne_of_lt hlt (congrArg order heq)

/-- Of two lists in the order of their positions, one of them without repetitions, the members tell
whether they are the same. -/
lemma eq_of_perm (h : ds.Pairwise fun d e => d.order < e.order)
    (h' : es.Pairwise fun d e => d.order ≤ e.order) (hperm : es.Perm ds) : es = ds := by
  refine hperm.eq_of_pairwise (fun a b ha hb hab hba => ?_) h' (h.imp Nat.le_of_lt)
  exact eq_of_order_eq h (hperm.subset ha) hb (Nat.le_antisymm hab hba)

/-- Lists with increasing positions and the same members are the same. -/
lemma eq_of_increasing (h : ds.Pairwise fun d e => d.order < e.order)
    (h' : es.Pairwise fun d e => d.order < e.order) (hmem : ∀ d, d ∈ es ↔ d ∈ ds) : es = ds :=
  eq_of_perm h (h'.imp Nat.le_of_lt)
    ((List.perm_ext_iff_of_nodup (nodup_of_increasing h') (nodup_of_increasing h)).2 hmem)

/-- Sorting gives the list with increasing positions and the same members. -/
lemma sort_eq_of_mem_iff (h : ds.Pairwise fun d e => d.order < e.order) (hnodup : es.Nodup)
    (hmem : ∀ d, d ∈ es ↔ d ∈ ds) : sort es = ds :=
  eq_of_perm h (pairwise_sort es) ((List.mergeSort_perm es _).trans
    ((List.perm_ext_iff_of_nodup hnodup (nodup_of_increasing h)).2 hmem))

end Directive

/-! ## What queries look for -/

/-- Whether a statement of the given kind is about a name. -/
def Statement.concerns (kind : DirectiveKind) (n : Name) (s : Statement) : Bool :=
  s.kind == kind &&
    match Address.ofTarget s.target with
    | .pattern rule => rule.covers n
    | .key key => n.lookupKeys.contains key

/-- Whether a statement of the given kind is looked up by a key. -/
def Statement.hasKey (kind : DirectiveKind) (key : String) (s : Statement) : Bool :=
  s.kind == kind && Address.ofTarget s.target == .key key

/-- Which directives a query for a name looks for. -/
lemma concerns_iff : d.toStatement.concerns kind n = true ↔ d.kind = kind ∧
    ((∃ rule, d.address = .pattern rule ∧ rule.covers n = true) ∨
      ∃ key, d.address = .key key ∧ key ∈ n.lookupKeys) := by
  simp only [Statement.concerns, Bool.and_eq_true, beq_iff_eq]
  refine and_congr_right fun _ => ?_
  cases h : Address.ofTarget d.target <;> simp [Directive.address, h]

/-- The directives in force for a name are those of the admitted ones that are about it. -/
lemma mem_filter_concerns :
    d ∈ (admitted platform before).filter (fun d => d.toStatement.concerns kind n) ↔
      d ∈ before ∧ d.InForce platform kind n := by
  rw [inForce_iff, List.mem_filter, concerns_iff]

/-- What stands is a part of the history. -/
lemma standing_sublist (ds : List Directive) : (standing ds).Sublist ds := by
  induction ds with
  | nil => exact List.Sublist.refl _
  | cons d ds ih =>
    rw [standing]
    split
    · exact ih.cons d
    · exact ih.cons_cons d

/-- Of two directives that stand, neither yields to the other. -/
lemma eq_of_mem_standing (hd : d ∈ standing ds) (he : e ∈ standing ds) (h : d.YieldsTo e) :
    d = e := by
  have : Std.Symm fun d e : Directive => ¬ d.YieldsTo e :=
    ⟨fun d e hde hed => hde ⟨hed.2.1 ▸ hed.1, hed.2.1.symm, hed.2.2.symm⟩⟩
  by_contra hne
  exact (pairwise_standing ds).forall hd he hne h

/-- Of the directives of an exclusive kind with one key, the last one stands, and no other.

**Proof sketch.** The last one yields to none, since that one would come later under the same key.
If another one stood as well, it would yield to the last one. -/
lemma getLast?_keyed_eq_some_iff (h : ds.Pairwise fun d e => d.order < e.order)
    (hkind : kind.resolution = .exclusive) : (keyed kind key ds).getLast? = some d ↔
      d ∈ standing ds ∧ d.kind = kind ∧ d.address = .key key := by
  have hlast : ∀ {d}, (keyed kind key ds).getLast? = some d →
      d ∈ standing ds ∧ d.kind = kind ∧ d.address = .key key := by
    intro d hd
    obtain ⟨hmem, hdkind, haddress⟩ := mem_keyed.1 (List.mem_of_getLast? hd)
    obtain ⟨e, he, hle, heq⟩ := exists_standing h hmem
    refine ⟨?_, hdkind, haddress⟩
    rcases heq with rfl | hyields
    · exact he
    · have hekeyed : e ∈ keyed kind key ds := mem_keyed.2
        ⟨standing_subset ds he, hyields.2.1 ▸ hdkind, hyields.2.2 ▸ haddress⟩
      have hge := Directive.le_of_getLast? (h.filter _) hd hekeyed
      rw [Directive.eq_of_order_eq h hmem (standing_subset ds he) (Nat.le_antisymm hle hge)]
      exact he
  refine ⟨hlast, fun ⟨hd, hdkind, haddress⟩ => ?_⟩
  have hmem : d ∈ keyed kind key ds := mem_keyed.2 ⟨standing_subset ds hd, hdkind, haddress⟩
  obtain ⟨e, he⟩ := Option.isSome_iff_exists.1 (List.getLast?_isSome.2 (List.ne_nil_of_mem hmem))
  obtain ⟨hestands, hekind, headdress⟩ := hlast he
  have hyields : d.YieldsTo e :=
    ⟨hdkind ▸ hkind, hdkind.trans hekind.symm, haddress.trans headdress.symm⟩
  rw [eq_of_mem_standing hd hestands hyields, he]

namespace Store

/-! ## Queries for a name or a text -/

/-- **A query for an exclusive kind** gives the last admitted directive about the name. -/
lemma Reflects.query_eq (hs : s.Reflects platform before) (hkind : kind.resolution = .exclusive) :
    s.query kind n = ((admitted platform before).filter
      fun d => d.toStatement.concerns kind n).getLast? := by
  have hincreasing : ((admitted platform before).filter
      fun d => d.toStatement.concerns kind n).Pairwise fun d e => d.order < e.order :=
    (hs.increasing.filter _).filter _
  cases hlast : ((admitted platform before).filter
      fun d => d.toStatement.concerns kind n).getLast? with
  | none =>
    rw [List.getLast?_eq_none_iff] at hlast
    refine (query_eq_none_iff hs hkind).2 fun d hd hforce => ?_
    have hmem := mem_filter_concerns.2 ⟨hd, hforce⟩
    rw [hlast] at hmem
    exact List.not_mem_nil hmem
  | some d =>
    refine (query_eq_some_iff hs hkind).2 ⟨mem_filter_concerns.1 (List.mem_of_getLast? hlast), ?_⟩
    exact fun e he hforce =>
      Directive.le_of_getLast? hincreasing hlast (mem_filter_concerns.2 ⟨he, hforce⟩)

/-- **A query for all directives about a name** gives those that are admitted, of an exclusive kind
the last one. -/
lemma Reflects.queryAll_eq (hs : s.Reflects platform before) (kind : DirectiveKind) (n : Name) :
    s.queryAll kind n =
      match kind.resolution with
      | .exclusive => ((admitted platform before).filter
          fun d => d.toStatement.concerns kind n).getLast?.toList
      | .accumulating => (admitted platform before).filter
          fun d => d.toStatement.concerns kind n := by
  cases hkind : kind.resolution with
  | exclusive =>
    simp only [queryAll, hkind, hs.query_eq hkind]
    cases ((admitted platform before).filter fun d => d.toStatement.concerns kind n).getLast? <;>
      simp [Directive.sort, Directive.dropRepeats, Directive.dropRepeatsAfter]
  | accumulating =>
    refine Directive.eq_of_increasing ((hs.increasing.filter _).filter _) ?_ fun d => ?_
    · rw [Store.queryAll_eq hkind]
      exact Directive.pairwise_dropRepeats (Directive.pairwise_sort _)
    · rw [mem_queryAll hs hkind, mem_filter_concerns]

/-- **A query by a key** gives the admitted directives with that key, of an exclusive kind the last
one. -/
lemma Reflects.atKey_eq (hs : s.Reflects platform before) (kind : DirectiveKind) (key : String) :
    s.atKey kind key =
      match kind.resolution with
      | .exclusive => (keyed kind key (admitted platform before)).getLast?.toList
      | .accumulating => keyed kind key (admitted platform before) := by
  cases hkind : kind.resolution with
  | exclusive => simp only [atKey, hkind, hs.holds.exclusive_eq kind key hkind]
  | accumulating => simp only [atKey, hkind, hs.holds.accumulating_eq kind key hkind]

/-! ## All directives of a kind -/

/-- The live directives of a kind that are looked up by a key. -/
def keyedOf (s : Store) (kind : DirectiveKind) : List Directive :=
  match kind.resolution with
  | .exclusive => (s.exclusive.entries.filter (·.1.1 == kind)).map (·.2)
  | .accumulating => (s.accumulating.entries.filter (·.1.1 == kind)).flatMap (·.2)

/-- The live directives of a kind of which the targets have wildcards. -/
def patternsOf (s : Store) (kind : DirectiveKind) : List Directive :=
  (s.patterns.filter (·.directive.kind == kind)).map (·.directive)

/-- The live directives of a kind are those looked up by keys and those with wildcards. -/
lemma directivesOf_eq_sort (s : Store) (kind : DirectiveKind) :
    s.directivesOf kind = Directive.sort (s.keyedOf kind ++ s.patternsOf kind) := rfl

/-- Which directives of a kind are looked up by keys. -/
lemma mem_keyedOf (hs : s.Holds ds) (h : ds.Pairwise fun d e => d.order < e.order) :
    d ∈ s.keyedOf kind ↔ d ∈ standing ds ∧ d.kind = kind ∧ ∃ key, d.address = .key key := by
  cases hkind : kind.resolution with
  | exclusive =>
    have hheld : d ∈ s.keyedOf kind ↔ ∃ key, s.exclusive.get? (kind, key) = some d := by
      simp only [keyedOf, hkind, List.mem_map, List.mem_filter, beq_iff_eq]
      constructor
      · rintro ⟨⟨⟨k, key⟩, d⟩, ⟨hmem, rfl⟩, rfl⟩
        exact ⟨key, Table.mem_entries.1 hmem⟩
      · rintro ⟨key, hget⟩
        exact ⟨((kind, key), d), ⟨Table.mem_entries.2 hget, rfl⟩, rfl⟩
    simp only [hheld, hs.exclusive_eq kind _ hkind, getLast?_keyed_eq_some_iff h hkind,
      exists_and_left]
  | accumulating =>
    have hheld : d ∈ s.keyedOf kind ↔
        ∃ key, d ∈ (s.accumulating.get? (kind, key)).getD [] := by
      simp only [keyedOf, hkind, List.mem_flatMap, List.mem_filter, beq_iff_eq]
      constructor
      · rintro ⟨⟨⟨k, key⟩, held⟩, ⟨hmem, rfl⟩, hd⟩
        exact ⟨key, by rwa [Table.mem_entries.1 hmem]⟩
      · rintro ⟨key, hd⟩
        cases hget : s.accumulating.get? (kind, key) with
        | none => simp [hget] at hd
        | some held =>
          exact ⟨((kind, key), held), ⟨Table.mem_entries.2 hget, rfl⟩, by rwa [hget] at hd⟩
    simp only [hheld, hs.accumulating_eq kind _ hkind, mem_keyed]
    constructor
    · rintro ⟨key, hd, rfl, haddress⟩
      exact ⟨(mem_standing_of_accumulating h hkind).2 hd, rfl, key, haddress⟩
    · rintro ⟨hd, hdkind, key, haddress⟩
      exact ⟨key, standing_subset ds hd, hdkind, haddress⟩

/-- Which directives of a kind have targets with wildcards. -/
lemma mem_patternsOf (hs : s.Holds ds) :
    d ∈ s.patternsOf kind ↔
      d ∈ standing ds ∧ d.kind = kind ∧ ∃ rule, d.address = .pattern rule := by
  simp only [patternsOf, hs.patterns_eq, List.mem_map, List.mem_filter, mem_patternEntries,
    beq_iff_eq]
  constructor
  · rintro ⟨p, ⟨⟨hstands, haddress⟩, hkind⟩, rfl⟩
    exact ⟨hstands, hkind, p.name, haddress⟩
  · rintro ⟨hstands, hkind, rule, haddress⟩
    exact ⟨⟨rule, d⟩, ⟨⟨hstands, haddress⟩, hkind⟩, rfl⟩

/-- No directive is looked up twice: directives with different keys have different addresses. -/
lemma nodup_keyedOf (hs : s.Holds ds) (h : ds.Pairwise fun d e => d.order < e.order) :
    (s.keyedOf kind).Nodup := by
  cases hkind : kind.resolution with
  | exclusive =>
    have haddress : ∀ e ∈ s.exclusive.entries.filter (·.1.1 == kind),
        e.1 = (kind, e.1.2) ∧ e.2.address = .key e.1.2 := by
      rintro ⟨⟨k, key⟩, d⟩ he
      obtain ⟨hmem, hk⟩ := List.mem_filter.1 he
      obtain rfl : k = kind := beq_iff_eq.1 hk
      have hget := (hs.exclusive_eq k key hkind).symm.trans (Table.mem_entries.1 hmem)
      exact ⟨rfl, (mem_keyed.1 (List.mem_of_getLast? hget)).2.2⟩
    simp only [keyedOf, hkind]
    refine List.Nodup.map_on (fun e he f hf heq => ?_) (s.exclusive.nodup_keys.of_map.filter _)
    obtain ⟨hekey, headdress⟩ := haddress e he
    obtain ⟨hfkey, hfaddress⟩ := haddress f hf
    rw [heq, hfaddress, Address.key.injEq] at headdress
    exact Prod.ext (by rw [hekey, hfkey, headdress]) heq
  | accumulating =>
    have hheld : ∀ e ∈ s.accumulating.entries.filter (·.1.1 == kind),
        e.1 = (kind, e.1.2) ∧ e.2 = keyed kind e.1.2 ds := by
      rintro ⟨⟨k, key⟩, held⟩ he
      obtain ⟨hmem, hk⟩ := List.mem_filter.1 he
      obtain rfl : k = kind := beq_iff_eq.1 hk
      have hget := hs.accumulating_eq k key hkind
      rw [Table.mem_entries.1 hmem] at hget
      exact ⟨rfl, hget⟩
    simp only [keyedOf, hkind]
    refine List.nodup_flatMap.2 ⟨fun e he => ?_, ?_⟩
    · rw [(hheld e he).2]
      exact (Directive.nodup_of_increasing h).filter _
    · have hkeys := (List.pairwise_map.1 s.accumulating.nodup_keys).filter (·.1.1 == kind)
      refine hkeys.imp_of_mem fun {e f} he hf hne d hde hdf => hne ?_
      obtain ⟨hekey, heheld⟩ := hheld e he
      obtain ⟨hfkey, hfheld⟩ := hheld f hf
      have hde : d ∈ keyed kind e.1.2 ds := heheld ▸ hde
      have hdf : d ∈ keyed kind f.1.2 ds := hfheld ▸ hdf
      have haddress := (mem_keyed.1 hde).2.2.symm.trans (mem_keyed.1 hdf).2.2
      rw [Address.key.injEq] at haddress
      rw [hekey, hfkey, haddress]

/-- The directives with wildcards among some directives are a part of them. -/
lemma map_directive_filterMap_sublist (ds : List Directive) :
    ((ds.filterMap patternOf?).map (·.directive)).Sublist ds := by
  induction ds with
  | nil => exact List.Sublist.refl _
  | cons d ds ih =>
    cases hd : patternOf? d with
    | none =>
      rw [List.filterMap_cons_none hd]
      exact ih.cons d
    | some p =>
      rw [List.filterMap_cons_some hd, List.map_cons, (patternOf?_eq_some.1 hd).1]
      exact ih.cons_cons d

/-- No directive with wildcards is held twice. -/
lemma nodup_patternsOf (hs : s.Holds ds) (h : ds.Pairwise fun d e => d.order < e.order) :
    (s.patternsOf kind).Nodup := by
  rw [patternsOf, hs.patterns_eq]
  have hpart := (map_directive_filterMap_sublist (standing ds)).trans (standing_sublist ds)
  exact (Directive.nodup_of_increasing h).sublist ((List.filter_sublist.map _).trans hpart)

/-- **All live directives of a kind** are those of the admitted ones that yield to no later one. -/
lemma Reflects.directivesOf_eq (hs : s.Reflects platform before) (kind : DirectiveKind) :
    s.directivesOf kind = (standing (admitted platform before)).filter (·.kind == kind) := by
  have hincreasing : (admitted platform before).Pairwise fun d e => d.order < e.order :=
    hs.increasing.filter _
  rw [directivesOf_eq_sort]
  refine Directive.sort_eq_of_mem_iff ((hincreasing.sublist (standing_sublist _)).filter _) ?_ ?_
  · refine List.nodup_append'.2 ⟨nodup_keyedOf hs.holds hincreasing,
      nodup_patternsOf hs.holds hincreasing, fun d hd hd' => ?_⟩
    obtain ⟨-, -, key, hkey⟩ := (mem_keyedOf hs.holds hincreasing).1 hd
    obtain ⟨-, -, rule, hrule⟩ := (mem_patternsOf hs.holds).1 hd'
    exact Address.noConfusion (hkey.symm.trans hrule)
  · intro d
    rw [List.mem_append, mem_keyedOf hs.holds hincreasing, mem_patternsOf hs.holds,
      ← and_or_left, ← and_or_left, List.mem_filter, beq_iff_eq]
    refine and_congr_right fun _ => and_iff_left ?_
    cases haddress : d.address with
    | key key => exact .inl ⟨key, rfl⟩
    | pattern rule => exact .inr ⟨rule, rfl⟩

/-! ## Directives in order -/

/-- A directive is taken if it comes behind the last one. -/
lemma apply_eq_ok (h : ∀ last, s.lastOrder = some last → last < d.order) :
    s.apply d = .ok (s.place d) := by
  unfold Store.apply
  split
  · next last hlast => rw [if_neg (Nat.not_le.2 (h last hlast))]
  · rfl

/-- Directives in order behind the first one are in order behind the last position. -/
lemma lt_of_lastOrder_place (h : ∀ e ∈ ds, d.order < e.order) :
    ∀ e ∈ ds, ∀ last, (s.place d).lastOrder = some last → last < e.order := by
  intro e he last hlast
  obtain rfl := Option.some.inj ((lastOrder_place s d).symm.trans hlast)
  exact h e he

/-- Directives in order are all taken. -/
lemma taken_eq_self (h : ds.Pairwise fun d e => d.order < e.order)
    (hlast : ∀ d ∈ ds, ∀ last, s.lastOrder = some last → last < d.order) : s.taken ds = ds := by
  induction ds generalizing s with
  | nil => rfl
  | cons d ds ih =>
    obtain ⟨hd, hds⟩ := List.pairwise_cons.1 h
    rw [taken, apply_eq_ok (hlast d List.mem_cons_self)]
    exact congrArg (d :: ·) (ih hds (lt_of_lastOrder_place hd))

end Store

namespace Config

/-- The store is filled with what is taken. -/
lemma fillStoreFrom_fst (c : Config) (s : Store) (ds : List Directive) :
    (c.fillStoreFrom s ds).1 = (s.applyAll ds).1 := by
  induction ds generalizing s with
  | nil => rfl
  | cons d ds ih =>
    rw [Store.applyAll]
    simp only [fillStoreFrom, ih]
    cases s.apply d <;> rfl

/-- **The store of directives in order** reflects all of them. -/
lemma reflects_fillStore (c : Config) (h : ds.Pairwise fun d e => d.order < e.order) :
    (c.fillStore ds).1.Reflects (some c.platform) ds := by
  have htaken : Store.taken { platform := some c.platform } ds = ds :=
    Store.taken_eq_self h fun d _ last hlast => by cases hlast
  rw [fillStore, fillStoreFrom_fst]
  simpa only [htaken] using Store.reflects_applyAll (some c.platform) ds

/-- Directives in order give no notes but those about other platforms. -/
lemma fillStoreFrom_snd (c : Config) (h : ds.Pairwise fun d e => d.order < e.order)
    (hlast : ∀ d ∈ ds, ∀ last, s.lastOrder = some last → last < d.order) :
    (c.fillStoreFrom s ds).2 =
      (ds.filter fun d => d.active && !d.appliesTo (some c.platform)).map c.platformNote := by
  induction ds generalizing s with
  | nil => rfl
  | cons d ds ih =>
    obtain ⟨hd, hds⟩ := List.pairwise_cons.1 h
    have hd' := Store.apply_eq_ok (hlast d List.mem_cons_self)
    have hrest := ih hds (Store.lt_of_lastOrder_place (s := s) hd)
    simp only [fillStoreFrom, storeNotes, hd', Except.toOption, Option.getD_some, hrest,
      List.append_nil, List.filter_cons]
    split <;> simp

/-- The notes about directives in order are those about other platforms. -/
lemma fillStore_snd (c : Config) (h : ds.Pairwise fun d e => d.order < e.order) :
    (c.fillStore ds).2 =
      (ds.filter fun d => d.active && !d.appliesTo (some c.platform)).map c.platformNote :=
  c.fillStoreFrom_snd h fun d _ last hlast => by cases hlast

end Config

end BindingRules
