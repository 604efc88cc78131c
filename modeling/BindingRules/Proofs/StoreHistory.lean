import BindingRules.Proofs.DirectiveOrder

set_option relaxedAutoImplicit false
set_option autoImplicit false

/-!
# The store and its history

The store keeps its directives in three places, and drops those that are overridden. Its answers are
nevertheless those that a look at all directives ever taken would give: a directive is dropped only
for a later one of the same kind about the same names.

## Main definitions

* `Store.taken` — the directives of a history that are not refused.
* `Directive.InForce` — the directives that take part in a query.
* `keyed`, `standing`, `patternEntries` — what a history leaves in each place of the store.
* `Store.Reflects` — the store holds what the history behind it leaves.

## Main results

* `Store.Reflects.apply`, `Store.reflects_applyAll` — the store reflects its history.
* `Store.inForce_of_mem_candidates`, `Store.exists_candidate` — what a query for an exclusive kind
  chooses from.
* `Store.mem_found` — what a query for an accumulating kind finds.
* `Store.queries_scan_history` — the answers are those of the whole history.
-/

namespace BindingRules

variable {platform : Option String} {kind : DirectiveKind} {n rule : Name} {d e : Directive}
  {history before ds : List Directive} {s s' : Store} {key : String}

/-! ## Directives in force -/

namespace Directive

/-- A directive that takes part in a query: it is active, holds on the platform, has the kind, and
its target has wildcards and covers the name, or has none and is looked up for the name. -/
structure InForce (platform : Option String) (kind : DirectiveKind) (n : Name) (d : Directive) :
    Prop where
  /-- It is not commented out. -/
  active : d.active = true
  /-- It is not meant for another platform. -/
  applies : d.appliesTo platform = true
  /-- It has the kind. -/
  kind_eq : d.kind = kind
  /-- It is about the name. -/
  about : (∃ rule, d.targetName = .ok rule ∧ rule.isPattern = true ∧ rule.covers n = true) ∨
    ((∀ rule, d.targetName = .ok rule → rule.isPattern = false) ∧ d.address.text ∈ n.lookupKeys)

/-- Which names a directive is about, in terms of its address. -/
lemma about_iff :
    ((∃ rule, d.targetName = .ok rule ∧ rule.isPattern = true ∧ rule.covers n = true) ∨
      ((∀ rule, d.targetName = .ok rule → rule.isPattern = false) ∧
        d.address.text ∈ n.lookupKeys)) ↔
    (∃ rule, d.address = .pattern rule ∧ rule.covers n = true) ∨
      ∃ key, d.address = .key key ∧ key ∈ n.lookupKeys := by
  unfold targetName address Address.ofTarget
  cases Name.normalize d.target with
  | error e => simp [Address.text]
  | ok rule => cases h : rule.isPattern <;> simp [h, Address.text]

/-- The directive has an exclusive kind, and `later` has the same kind and address. -/
def YieldsTo (d later : Directive) : Prop :=
  d.kind.resolution = .exclusive ∧ d.kind = later.kind ∧ d.address = later.address

instance : Decidable (d.YieldsTo e) := inferInstanceAs (Decidable (_ ∧ _ ∧ _))

end Directive

/-! ## What a history leaves -/

/-- The directives that are active and hold on a platform. -/
def admitted (platform : Option String) (ds : List Directive) : List Directive :=
  ds.filter fun d => d.active && d.appliesTo platform

/-- The directives of a kind that are looked up by a key. -/
def keyed (kind : DirectiveKind) (key : String) (ds : List Directive) : List Directive :=
  ds.filter fun d => d.kind == kind && d.address == .key key

/-- The directives of a history that yield to no later one. -/
def standing : List Directive → List Directive
  | [] => []
  | d :: ds => if ∃ e ∈ ds, d.YieldsTo e then standing ds else d :: standing ds

/-- The entry of a directive of which the target has wildcards. -/
def patternOf? (d : Directive) : Option PatternEntry :=
  match d.address with
  | .pattern rule => some ⟨rule, d⟩
  | .key _ => none

/-- The entries of the directives with wildcards that yield to no later one. -/
def patternEntries (ds : List Directive) : List PatternEntry := (standing ds).filterMap patternOf?

/-- The directives that are in force for a name are admitted, have the kind, and are about it. -/
lemma inForce_iff : d ∈ before ∧ d.InForce platform kind n ↔
    d ∈ admitted platform before ∧ d.kind = kind ∧
      ((∃ rule, d.address = .pattern rule ∧ rule.covers n = true) ∨
        ∃ key, d.address = .key key ∧ key ∈ n.lookupKeys) := by
  rw [admitted, List.mem_filter, Bool.and_eq_true, ← Directive.about_iff]
  exact ⟨fun ⟨hd, h⟩ => ⟨⟨hd, h.active, h.applies⟩, h.kind_eq, h.about⟩,
    fun ⟨⟨hd, hactive, happlies⟩, hkind, habout⟩ => ⟨hd, hactive, happlies, hkind, habout⟩⟩

/-- One more directive is admitted if it is active and holds on the platform. -/
lemma admitted_concat (platform : Option String) (ds : List Directive) (d : Directive) :
    admitted platform (ds ++ [d]) =
      admitted platform ds ++ if d.active && d.appliesTo platform then [d] else [] := by
  by_cases h : (d.active && d.appliesTo platform) = true <;> simp [admitted, h]

/-- Which directives are looked up by a key. -/
lemma mem_keyed : d ∈ keyed kind key ds ↔ d ∈ ds ∧ d.kind = kind ∧ d.address = .key key := by
  simp [keyed]

/-- One more directive is looked up by its own kind and key. -/
lemma keyed_concat (h : d.address = .key key) : keyed d.kind key (ds ++ [d]) =
    keyed d.kind key ds ++ [d] := by
  simp [keyed, h]

/-- One more directive is not looked up by another kind or key. -/
lemma keyed_concat_of_ne (h : ¬ (d.kind = kind ∧ d.address = .key key)) :
    keyed kind key (ds ++ [d]) = keyed kind key ds := by
  simpa [keyed] using h

/-- One more directive of another sort of kind is not looked up either. -/
lemma keyed_concat_of_resolution_ne (h : d.kind.resolution ≠ kind.resolution) :
    keyed kind key (ds ++ [d]) = keyed kind key ds :=
  keyed_concat_of_ne fun ⟨hkind, _⟩ => h (congrArg DirectiveKind.resolution hkind)

/-- What stands belongs to the history. -/
lemma standing_subset (ds : List Directive) : standing ds ⊆ ds := by
  induction ds with
  | nil => exact fun _ h => h
  | cons d ds ih =>
    rw [standing]
    split
    · exact fun x hx => List.mem_cons_of_mem _ (ih hx)
    · exact List.cons_subset_cons _ ih

/-- Nothing that stands yields to anything that stands behind it. -/
lemma pairwise_standing (ds : List Directive) :
    (standing ds).Pairwise fun d e => ¬ d.YieldsTo e := by
  induction ds with
  | nil => exact List.Pairwise.nil
  | cons d ds ih =>
    rw [standing]
    split
    · exact ih
    · rename_i hnone
      exact List.pairwise_cons.2 ⟨fun e he hde => hnone ⟨e, standing_subset ds he, hde⟩, ih⟩

/-- Every directive stands, or one that does is about the same names and comes later. -/
lemma exists_standing (h : ds.Pairwise fun d e => d.order < e.order) (hd : d ∈ ds) :
    ∃ e ∈ standing ds, d.order ≤ e.order ∧ (e = d ∨ d.YieldsTo e) := by
  induction ds generalizing d with
  | nil => exact absurd hd List.not_mem_nil
  | cons x ds ih =>
    obtain ⟨hx, hds⟩ := List.pairwise_cons.1 h
    rw [standing]
    rcases List.mem_cons.1 hd with rfl | hd
    · split
      · rename_i hyields
        obtain ⟨y, hy, hdy⟩ := hyields
        obtain ⟨e, he, hle, heq⟩ := ih hds hy
        refine ⟨e, he, Nat.le_trans (Nat.le_of_lt (hx y hy)) hle, .inr ?_⟩
        rcases heq with rfl | hye
        · exact hdy
        · exact ⟨hdy.1, hdy.2.1.trans hye.2.1, hdy.2.2.trans hye.2.2⟩
      · exact ⟨d, List.mem_cons_self, Nat.le_refl _, .inl rfl⟩
    · obtain ⟨e, he, h⟩ := ih hds hd
      split
      · exact ⟨e, he, h⟩
      · exact ⟨e, List.mem_cons_of_mem _ he, h⟩

/-- One more directive replaces those that yield to it. -/
lemma standing_concat (ds : List Directive) (d : Directive) :
    standing (ds ++ [d]) = (standing ds).filter (fun e => ¬ e.YieldsTo d) ++ [d] := by
  induction ds with
  | nil => simp [standing]
  | cons e ds ih =>
    simp only [List.cons_append, standing, ih, List.mem_append, List.mem_singleton, or_and_right,
      exists_or, exists_eq_left]
    by_cases hds : ∃ f ∈ ds, e.YieldsTo f
    · simp [hds]
    · by_cases hd : e.YieldsTo d <;> simp [hds, hd]

/-- The directive of an entry has the name of the entry as its address. -/
lemma patternOf?_eq_some {p : PatternEntry} :
    patternOf? d = some p ↔ p.directive = d ∧ d.address = .pattern p.name := by
  obtain ⟨rule, e⟩ := p
  unfold patternOf?
  split
  · rename_i r hr
    simp [hr, eq_comm, and_comm]
  · rename_i key hkey
    simp [hkey]

/-- An entry belongs to a standing directive with its name. -/
lemma mem_patternEntries {p : PatternEntry} : p ∈ patternEntries ds ↔
    p.directive ∈ standing ds ∧ p.directive.address = .pattern p.name := by
  simp [patternEntries, patternOf?_eq_some]

/-- Of two entries, the first one does not yield to the second one. -/
lemma pairwise_patternEntries (ds : List Directive) :
    (patternEntries ds).Pairwise fun p q => ¬ p.directive.YieldsTo q.directive := by
  refine List.pairwise_filterMap.2 ((pairwise_standing ds).imp fun {d e} hde p hp q hq => ?_)
  rw [(patternOf?_eq_some.1 hp).1, (patternOf?_eq_some.1 hq).1]
  exact hde

/-- One more directive drops the entries that yield to it, and adds its own. -/
lemma patternEntries_concat (ds : List Directive) (d : Directive) : patternEntries (ds ++ [d]) =
    (patternEntries ds).filter (fun p => ¬ p.directive.YieldsTo d) ++ (patternOf? d).toList := by
  rw [patternEntries, patternEntries, standing_concat, List.filterMap_append, List.filterMap_filter,
    List.filter_filterMap]
  refine congrArg₂ (· ++ ·) (List.filterMap_congr fun e _ => ?_) ?_
  · cases h : patternOf? e with
    | none => simp
    | some p => simp [Option.filter, (patternOf?_eq_some.1 h).1]
  · cases h : patternOf? d <;> simp [h]

/-- A directive that is looked up by a key does not touch the entries. -/
lemma patternEntries_concat_key (h : d.address = .key key) :
    patternEntries (ds ++ [d]) = patternEntries ds := by
  have hkeep : ∀ p ∈ patternEntries ds, decide (¬ p.directive.YieldsTo d) = true := by
    refine fun p hp => decide_eq_true fun hyields => ?_
    have haddress := (mem_patternEntries.1 hp).2
    rw [hyields.2.2, h] at haddress
    exact Address.noConfusion haddress
  rw [patternEntries_concat, List.filter_eq_self.2 hkeep]
  simp [patternOf?, h]

/-- The entry in the way of a directive is the one that yields to it. -/
lemma isReplaced_iff {p : PatternEntry} (hp : p ∈ patternEntries ds)
    (h : d.address = .pattern rule) :
    Store.isReplaced rule d p = true ↔ p.directive.YieldsTo d := by
  simp only [Store.isReplaced, Bool.and_eq_true, beq_iff_eq, Directive.YieldsTo, h,
    (mem_patternEntries.1 hp).2, Address.pattern.injEq]
  constructor
  · rintro ⟨⟨hres, hkind⟩, hname⟩
    exact ⟨hkind ▸ hres, hkind, hname⟩
  · rintro ⟨hres, hkind, hname⟩
    exact ⟨⟨hkind ▸ hres, hkind⟩, hname⟩

/-- Where at most one element has a property, erasing the first one erases all of them. -/
lemma eraseP_eq_filter {α : Type} {p : α → Bool} {l : List α}
    (h : l.Pairwise fun a b => p a = true → p b = false) : l.eraseP p = l.filter fun a => !p a := by
  induction l with
  | nil => rfl
  | cons a l ih =>
    obtain ⟨ha, hl⟩ := List.pairwise_cons.1 h
    by_cases hpa : p a = true
    · rw [List.eraseP_cons_of_pos hpa, List.filter_cons_of_neg (by simp [hpa])]
      exact (List.filter_eq_self.2 fun b hb => by simp [ha b hb hpa]).symm
    · rw [List.eraseP_cons_of_neg hpa, List.filter_cons_of_pos (by simp [hpa]), ih hl]

/-- A directive with wildcards takes the place of the entry in its way. -/
lemma patternEntries_concat_pattern (h : d.address = .pattern rule) : patternEntries (ds ++ [d]) =
    (patternEntries ds).eraseP (Store.isReplaced rule d) ++ [⟨rule, d⟩] := by
  have hone : (patternEntries ds).Pairwise fun p q =>
      Store.isReplaced rule d p = true → Store.isReplaced rule d q = false := by
    refine (pairwise_patternEntries ds).imp_of_mem fun {p q} hp hq hpq hpd => ?_
    by_contra hqd
    have hpd := (isReplaced_iff hp h).1 hpd
    have hqd := (isReplaced_iff hq h).1 (Bool.not_eq_false _ ▸ hqd)
    exact hpq ⟨hpd.1, hpd.2.1.trans hqd.2.1.symm, hpd.2.2.trans hqd.2.2.symm⟩
  rw [patternEntries_concat, eraseP_eq_filter hone]
  refine congrArg₂ (· ++ ·) (List.filter_congr fun p hp => ?_) (by simp [patternOf?, h])
  rw [Bool.eq_iff_iff, Bool.not_eq_true', ← Bool.not_eq_true, isReplaced_iff hp h,
    decide_eq_true_iff]

namespace Store

/-! ## Histories -/

/-- The directives of a history that are not refused, when they come one after the other. -/
def taken (s : Store) : List Directive → List Directive
  | [] => []
  | d :: ds =>
    match s.apply d with
    | .ok s => d :: s.taken ds
    | .error _ => s.taken ds

/-- A directive that is taken comes behind all taken before. -/
lemma lt_of_apply (h : s.apply d = .ok s') {last : Nat} (hlast : s.lastOrder = some last) :
    last < d.order := by
  simp only [apply, hlast] at h
  split at h
  · simp at h
  · omega

/-- The store after a directive that is taken. -/
lemma eq_place_of_apply (h : s.apply d = .ok s') : s' = s.place d := by
  unfold apply at h
  split at h
  · split at h
    · simp at h
    · exact (Except.ok.inj h).symm
  · exact (Except.ok.inj h).symm

/-- The position of a directive that is taken becomes the last one. -/
lemma lastOrder_place (s : Store) (d : Directive) : (s.place d).lastOrder = some d.order := by
  simp only [place, placeLive, placeKey, placePattern]
  repeat' split
  all_goals rfl

/-- A directive does not change the platform. -/
lemma platform_place (s : Store) (d : Directive) : (s.place d).platform = s.platform := by
  simp only [place, placeLive, placeKey, placePattern]
  repeat' split
  all_goals rfl

/-- The store holds what live directives leave in each of its places. -/
structure Holds (s : Store) (ds : List Directive) : Prop where
  /-- For each key of an exclusive kind, the last directive is held. -/
  exclusive_eq : ∀ kind key, kind.resolution = .exclusive →
    s.exclusive.get? (kind, key) = (keyed kind key ds).getLast?
  /-- For each key of an accumulating kind, all directives are held. -/
  accumulating_eq : ∀ kind key, kind.resolution = .accumulating →
    (s.accumulating.get? (kind, key)).getD [] = keyed kind key ds
  /-- Of the directives with wildcards, those that stand are held. -/
  patterns_eq : s.patterns = patternEntries ds

/-- A directive with wildcards concerns the entries alone. -/
lemma Holds.placePattern (hs : s.Holds ds) (h : d.address = .pattern rule) :
    (s.placePattern rule d).Holds (ds ++ [d]) := by
  refine ⟨fun kind key hkind => ?_, fun kind key hkind => ?_, ?_⟩
  · rw [keyed_concat_of_ne (by simp [h])]
    exact hs.exclusive_eq kind key hkind
  · rw [keyed_concat_of_ne (by simp [h])]
    exact hs.accumulating_eq kind key hkind
  · rw [patternEntries_concat_pattern h, ← hs.patterns_eq]
    rfl

/-- A directive that is looked up by a key concerns the table for its kind alone. -/
lemma Holds.placeKey (hs : s.Holds ds) (h : d.address = .key key) :
    (s.placeKey key d).Holds (ds ++ [d]) := by
  have hpatterns : s.patterns = patternEntries (ds ++ [d]) :=
    hs.patterns_eq.trans (patternEntries_concat_key h).symm
  have hcases : ∀ kind k, (kind, k) = (d.kind, key) ∨
      (kind, k) ≠ (d.kind, key) ∧ keyed kind k (ds ++ [d]) = keyed kind k ds := by
    intro kind k
    by_cases hk : (kind, k) = (d.kind, key)
    · exact .inl hk
    · refine .inr ⟨hk, keyed_concat_of_ne fun ⟨hkind, haddress⟩ => hk ?_⟩
      rw [h, Address.key.injEq] at haddress
      rw [hkind, haddress]
  unfold Store.placeKey
  split
  · rename_i hres
    refine ⟨fun kind k hkind => ?_, fun kind k hkind => ?_, hpatterns⟩
    · rw [Table.get?_insert]
      rcases hcases kind k with heq | ⟨hne, hkeep⟩
      · obtain ⟨rfl, rfl⟩ := Prod.mk.inj heq
        rw [if_pos rfl, keyed_concat h, List.getLast?_concat]
      · rw [if_neg hne, hkeep]
        exact hs.exclusive_eq kind k hkind
    · rw [keyed_concat_of_resolution_ne (by simp [hres, hkind])]
      exact hs.accumulating_eq kind k hkind
  · rename_i hres
    refine ⟨fun kind k hkind => ?_, fun kind k hkind => ?_, hpatterns⟩
    · rw [keyed_concat_of_resolution_ne (by simp [hres, hkind])]
      exact hs.exclusive_eq kind k hkind
    · rw [Table.get?_insert]
      rcases hcases kind k with heq | ⟨hne, hkeep⟩
      · obtain ⟨rfl, rfl⟩ := Prod.mk.inj heq
        rw [if_pos rfl, keyed_concat h, Option.getD_some, hs.accumulating_eq _ _ hkind]
      · rw [if_neg hne, hkeep]
        exact hs.accumulating_eq kind k hkind

/-- A live directive goes where its address and its kind belong. -/
lemma Holds.placeLive (hs : s.Holds ds) (d : Directive) : (s.placeLive d).Holds (ds ++ [d]) := by
  unfold Store.placeLive
  split
  · rename_i rule h
    exact hs.placePattern h
  · rename_i key h
    exact hs.placeKey h

/-- A directive is placed among the live ones if it is active and holds on the platform. -/
lemma Holds.place (hs : s.Holds (admitted s.platform before)) (d : Directive) :
    (s.place d).Holds (admitted s.platform (before ++ [d])) := by
  have hstart : ({ s with lastOrder := some d.order } : Store).Holds (admitted s.platform before) :=
    ⟨hs.exclusive_eq, hs.accumulating_eq, hs.patterns_eq⟩
  rw [admitted_concat]
  simp only [Store.place]
  split
  · rename_i h
    have hd : (d.active && d.appliesTo s.platform) = true := h
    rw [if_pos hd]
    exact hstart.placeLive d
  · rename_i h
    have hd : ¬ (d.active && d.appliesTo s.platform) = true := h
    rw [if_neg hd, List.append_nil]
    exact ⟨hs.exclusive_eq, hs.accumulating_eq, hs.patterns_eq⟩

/-- The store stands behind a history: it holds what the history leaves. -/
structure Reflects (platform : Option String) (before : List Directive) (s : Store) : Prop where
  /-- The platform does not change. -/
  platform_eq : s.platform = platform
  /-- The directives that are active and hold on the platform have been placed. -/
  holds : s.Holds (admitted platform before)
  /-- The directives came in their order. -/
  increasing : before.Pairwise fun d e => d.order < e.order
  /-- The last position is the greatest. -/
  last : ∀ d ∈ before, ∃ last, s.lastOrder = some last ∧ d.order ≤ last

/-- **One step**: behind a directive that is taken, the store reflects one directive more. -/
lemma Reflects.apply (hs : s.Reflects platform before) (h : s.apply d = .ok s') :
    s'.Reflects platform (before ++ [d]) := by
  obtain rfl := eq_place_of_apply h
  obtain rfl := hs.platform_eq
  refine ⟨platform_place s d, hs.holds.place d, ?_, ?_⟩
  · refine List.pairwise_append.2 ⟨hs.increasing, List.pairwise_singleton _ _, ?_⟩
    intro e he f hf
    obtain ⟨last, hlast, hle⟩ := hs.last e he
    rw [List.mem_singleton.1 hf]
    exact Nat.lt_of_le_of_lt hle (lt_of_apply h hlast)
  · intro e he
    refine ⟨d.order, lastOrder_place s d, ?_⟩
    rcases List.mem_append.1 he with he | he
    · obtain ⟨last, hlast, hle⟩ := hs.last e he
      exact Nat.le_of_lt (Nat.lt_of_le_of_lt hle (lt_of_apply h hlast))
    · exact Nat.le_of_eq (congrArg Directive.order (List.mem_singleton.1 he))

/-- **A whole run**: the store reflects what it took before and what it takes of the history. -/
lemma Reflects.applyAll (hs : s.Reflects platform before) (history : List Directive) :
    (s.applyAll history).1.Reflects platform (before ++ s.taken history) := by
  induction history generalizing s before with
  | nil => simpa [Store.applyAll, taken] using hs
  | cons d ds ih =>
    unfold Store.applyAll taken
    cases h : s.apply d with
    | ok s' => simpa using ih (hs.apply h)
    | error e => simpa using ih hs

/-- A fresh store reflects what it takes of a history. -/
lemma reflects_applyAll (platform : Option String) (history : List Directive) :
    (applyAll { platform } history).1.Reflects platform (taken { platform } history) := by
  have hfresh : Reflects platform [] { platform } :=
    ⟨rfl, ⟨fun _ _ _ => rfl, fun _ _ _ => rfl, rfl⟩, List.Pairwise.nil, by simp⟩
  simpa using hfresh.applyAll history

/-! ## Queries -/

/-- What a query for an exclusive kind chooses from. -/
def candidates (s : Store) (kind : DirectiveKind) (n : Name) : List Directive :=
  (n.lookupKeys.filterMap fun key => s.exclusive.get? (kind, key)) ++ s.matchingPatterns kind n

/-- What a query for an accumulating kind finds. -/
def found (s : Store) (kind : DirectiveKind) (n : Name) : List Directive :=
  (n.lookupKeys.filterMap fun key => s.accumulating.get? (kind, key)).flatten ++
    s.matchingPatterns kind n

/-- A query for an exclusive kind chooses the last candidate. -/
lemma query_eq (s : Store) (kind : DirectiveKind) (n : Name) :
    s.query kind n = Directive.latest? (s.candidates kind n) := rfl

/-- A query for an accumulating kind puts what it finds in order. -/
lemma queryAll_eq (h : kind.resolution = .accumulating) :
    s.queryAll kind n = Directive.dropRepeats (Directive.sort (s.found kind n)) := by
  simp only [queryAll, h]
  rfl

/-- The entries that a query tries. -/
lemma mem_matchingPatterns (hs : s.Holds ds) : d ∈ s.matchingPatterns kind n ↔
    d ∈ standing ds ∧ d.kind = kind ∧ ∃ rule, d.address = .pattern rule ∧ rule.covers n = true := by
  simp only [matchingPatterns, hs.patterns_eq, List.mem_map, List.mem_filter, mem_patternEntries,
    Bool.and_eq_true, beq_iff_eq]
  constructor
  · rintro ⟨p, ⟨⟨hstands, haddress⟩, hkind, hcovers⟩, rfl⟩
    exact ⟨hstands, hkind, p.name, haddress, hcovers⟩
  · rintro ⟨hstands, hkind, rule, haddress, hcovers⟩
    exact ⟨⟨rule, d⟩, ⟨⟨hstands, haddress⟩, hkind, hcovers⟩, rfl⟩

/-- Every candidate is in force. -/
lemma inForce_of_mem_candidates (hs : s.Reflects platform before)
    (hkind : kind.resolution = .exclusive) (h : d ∈ s.candidates kind n) :
    d ∈ before ∧ d.InForce platform kind n := by
  rw [inForce_iff]
  rcases List.mem_append.1 h with h | h
  · obtain ⟨key, hkey, hget⟩ := List.mem_filterMap.1 h
    rw [hs.holds.exclusive_eq kind key hkind] at hget
    obtain ⟨hd, hdkind, haddress⟩ := mem_keyed.1 (List.mem_of_getLast? hget)
    exact ⟨hd, hdkind, .inr ⟨key, haddress, hkey⟩⟩
  · obtain ⟨hstands, hdkind, habout⟩ := (mem_matchingPatterns hs.holds).1 h
    exact ⟨standing_subset _ hstands, hdkind, .inl habout⟩

/-- No directive in force comes behind all candidates: what is dropped is dropped for a later
candidate. -/
lemma exists_candidate (hs : s.Reflects platform before) (hkind : kind.resolution = .exclusive)
    (h : d ∈ before ∧ d.InForce platform kind n) :
    ∃ e ∈ s.candidates kind n, d.order ≤ e.order := by
  have hincreasing : (admitted platform before).Pairwise fun d e => d.order < e.order :=
    hs.increasing.filter _
  obtain ⟨hd, hdkind, ⟨rule, haddress, hcovers⟩ | ⟨key, haddress, hkey⟩⟩ := inForce_iff.1 h
  · obtain ⟨e, he, hle, heq⟩ := exists_standing hincreasing hd
    refine ⟨e, List.mem_append_right _ ((mem_matchingPatterns hs.holds).2 ⟨he, ?_⟩), hle⟩
    rcases heq with rfl | hyields
    · exact ⟨hdkind, rule, haddress, hcovers⟩
    · exact ⟨hyields.2.1 ▸ hdkind, rule, hyields.2.2 ▸ haddress, hcovers⟩
  · have hmem : d ∈ keyed kind key (admitted platform before) := mem_keyed.2 ⟨hd, hdkind, haddress⟩
    obtain ⟨e, he⟩ := Option.isSome_iff_exists.1 (List.getLast?_isSome.2 (List.ne_nil_of_mem hmem))
    refine ⟨e, List.mem_append_left _ (List.mem_filterMap.2 ⟨key, hkey, ?_⟩), ?_⟩
    · exact (hs.holds.exclusive_eq kind key hkind).trans he
    · exact Directive.le_of_getLast? (hincreasing.filter _) he hmem

/-- What a query for an accumulating kind finds by keys. -/
lemma mem_flatten_accumulating (hs : s.Holds ds) (hkind : kind.resolution = .accumulating) :
    d ∈ (n.lookupKeys.filterMap fun key => s.accumulating.get? (kind, key)).flatten ↔
      ∃ key ∈ n.lookupKeys, d ∈ keyed kind key ds := by
  simp only [List.mem_flatten, List.mem_filterMap, ← hs.accumulating_eq kind _ hkind]
  constructor
  · rintro ⟨held, ⟨key, hkey, hget⟩, hd⟩
    exact ⟨key, hkey, by rwa [hget]⟩
  · rintro ⟨key, hkey, hd⟩
    cases hget : s.accumulating.get? (kind, key) with
    | none => simp [hget] at hd
    | some held => exact ⟨held, ⟨key, hkey, hget⟩, by rwa [hget] at hd⟩

/-- A directive of an accumulating kind always stands. -/
lemma mem_standing_of_accumulating (h : ds.Pairwise fun d e => d.order < e.order)
    (hkind : d.kind.resolution = .accumulating) : d ∈ standing ds ↔ d ∈ ds := by
  refine ⟨fun hd => standing_subset ds hd, fun hd => ?_⟩
  obtain ⟨e, he, -, heq⟩ := exists_standing h hd
  rcases heq with rfl | hyields
  · exact he
  · rw [hyields.1] at hkind
    exact Resolution.noConfusion hkind

/-- What is found for an accumulating kind is what is in force: none of it was ever dropped. -/
lemma mem_found (hs : s.Reflects platform before) (hkind : kind.resolution = .accumulating) :
    d ∈ s.found kind n ↔ d ∈ before ∧ d.InForce platform kind n := by
  have hincreasing : (admitted platform before).Pairwise fun d e => d.order < e.order :=
    hs.increasing.filter _
  rw [found, List.mem_append, mem_flatten_accumulating hs.holds hkind,
    mem_matchingPatterns hs.holds, inForce_iff]
  constructor
  · rintro (⟨key, hkey, hd⟩ | ⟨hd, hdkind, habout⟩)
    · obtain ⟨hd, hdkind, haddress⟩ := mem_keyed.1 hd
      exact ⟨hd, hdkind, .inr ⟨key, haddress, hkey⟩⟩
    · exact ⟨standing_subset _ hd, hdkind, .inl habout⟩
  · rintro ⟨hd, hdkind, habout | ⟨key, haddress, hkey⟩⟩
    · exact .inr ⟨(mem_standing_of_accumulating hincreasing (hdkind ▸ hkind)).2 hd, hdkind, habout⟩
    · exact .inl ⟨key, hkey, mem_keyed.2 ⟨hd, hdkind, haddress⟩⟩

/-- Of an exclusive kind, a query gives the directive in force with the greatest position. -/
lemma query_eq_some_iff (hs : s.Reflects platform before) (hkind : kind.resolution = .exclusive) :
    s.query kind n = some d ↔ (d ∈ before ∧ d.InForce platform kind n) ∧
      ∀ e ∈ before, e.InForce platform kind n → e.order ≤ d.order := by
  have hgreatest : ∀ {d}, s.query kind n = some d → (d ∈ before ∧ d.InForce platform kind n) ∧
      ∀ e ∈ before, e.InForce platform kind n → e.order ≤ d.order := by
    intro d h
    obtain ⟨hd, hle⟩ := Directive.mem_and_le_of_latest? (query_eq s kind n ▸ h)
    refine ⟨inForce_of_mem_candidates hs hkind hd, fun e he hforce => ?_⟩
    obtain ⟨c, hc, hec⟩ := exists_candidate hs hkind ⟨he, hforce⟩
    exact Nat.le_trans hec (hle c hc)
  refine ⟨hgreatest, fun ⟨hd, hle⟩ => ?_⟩
  obtain ⟨c, hc, -⟩ := exists_candidate hs hkind hd
  cases h : s.query kind n with
  | none =>
    rw [query_eq, Directive.latest?_eq_none] at h
    exact absurd hc (h ▸ List.not_mem_nil)
  | some e =>
    obtain ⟨he, hle'⟩ := hgreatest h
    have horder := Nat.le_antisymm (hle e he.1 he.2) (hle' d hd.1 hd.2)
    rw [Directive.eq_of_order_eq hs.increasing he.1 hd.1 horder]

/-- Of an exclusive kind, a query gives nothing only if nothing is in force. -/
lemma query_eq_none_iff (hs : s.Reflects platform before) (hkind : kind.resolution = .exclusive) :
    s.query kind n = none ↔ ∀ d ∈ before, ¬ d.InForce platform kind n := by
  rw [query_eq, Directive.latest?_eq_none, List.eq_nil_iff_forall_not_mem]
  constructor
  · intro hnone d hd hforce
    obtain ⟨c, hc, -⟩ := exists_candidate hs hkind ⟨hd, hforce⟩
    exact hnone c hc
  · intro hnone c hc
    obtain ⟨hd, hforce⟩ := inForce_of_mem_candidates hs hkind hc
    exact hnone c hd hforce

/-- Of an accumulating kind, a query gives the directives in force. -/
lemma mem_queryAll (hs : s.Reflects platform before) (hkind : kind.resolution = .accumulating) :
    d ∈ s.queryAll kind n ↔ d ∈ before ∧ d.InForce platform kind n := by
  rw [queryAll_eq hkind, ← mem_found hs hkind]
  constructor
  · exact fun hd => Directive.mem_sort.1 (Directive.mem_of_mem_dropRepeats hd)
  · intro hd
    obtain ⟨e, he, horder⟩ := Directive.exists_mem_dropRepeats (Directive.mem_sort.2 hd)
    have hefound := Directive.mem_sort.1 (Directive.mem_of_mem_dropRepeats he)
    have heq := Directive.eq_of_order_eq hs.increasing ((mem_found hs hkind).1 hefound).1
      ((mem_found hs hkind).1 hd).1 horder
    exact heq ▸ he

/-- **The store answers as its whole history would.** Whatever directives are applied to a fresh
store for any platform, a query for an exclusive kind finds that directive in force for the name
which has the greatest position of all that were taken, and nothing only if none is in force; a
query for an accumulating kind finds each directive in force for the name once, in the order of
their positions. -/
theorem queries_scan_history (platform : Option String) (history : List Directive)
    (kind : DirectiveKind) (n : Name) :
    match kind.resolution with
    | .exclusive =>
      (∀ d, (applyAll { platform } history).1.query kind n = some d ↔
        (d ∈ taken { platform } history ∧ d.InForce platform kind n) ∧
          ∀ e ∈ taken { platform } history, e.InForce platform kind n → e.order ≤ d.order) ∧
      ((applyAll { platform } history).1.query kind n = none ↔
        ∀ d ∈ taken { platform } history, ¬ d.InForce platform kind n)
    | .accumulating =>
      (∀ d, d ∈ (applyAll { platform } history).1.queryAll kind n ↔
        d ∈ taken { platform } history ∧ d.InForce platform kind n) ∧
      ((applyAll { platform } history).1.queryAll kind n).Pairwise
        fun d e => d.order < e.order := by
  have hs := reflects_applyAll platform history
  split
  · rename_i hkind
    exact ⟨fun d => query_eq_some_iff hs hkind, query_eq_none_iff hs hkind⟩
  · rename_i hkind
    refine ⟨fun d => mem_queryAll hs hkind, ?_⟩
    rw [queryAll_eq hkind]
    exact Directive.pairwise_dropRepeats (Directive.pairwise_sort _)

end Store

end BindingRules
