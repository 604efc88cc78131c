import BindingRules.Proofs.KeyScan

set_option relaxedAutoImplicit false
set_option autoImplicit false

/-!
# No directive is lost

A directive that the store takes ends up in exactly one place: it is inert, it was overridden, or it
is live. Taking another directive moves at most one directive from one place to another, and this is
what an observer is told of.

## Main definitions

* `Override.IsNext` — an override by the next directive with the same kind and address.
* `Store.Conserves` — where the store keeps the directives that were placed in it.

## Main results

* `Store.overrides_place`, `Store.inert_place`, `Store.size_place` — what one directive changes.
* `Store.displaced?_eq_some_iff` — the directive in the way is the one that stands and yields.
* `Store.Conserves.place`, `Store.Accounts.applyAll` — one step, and a whole run.
* `ObservedStore.applyAll_conserves` — the store and the record of an observer after a run.
-/

namespace BindingRules

variable {platform : Option String} {kind : DirectiveKind} {d e : Directive}
  {before ds : List Directive} {s s' : Store} {v : Override} {observed : ObservedStore}

/-- A list without repetitions consists of its only element with a property and those without. -/
lemma perm_toList_append_filter {α : Type} {l : List α} {p : α → Prop} [DecidablePred p]
    {o : Option α} (hnodup : l.Nodup) (h : ∀ a, o = some a ↔ a ∈ l ∧ p a) :
    l.Perm (o.toList ++ l.filter fun a => ¬ p a) := by
  refine (List.perm_ext_iff_of_nodup hnodup ?_).2 fun a => ?_
  · refine List.nodup_append'.2 ⟨by cases o <;> simp, hnodup.filter _, fun a ha ha' => ?_⟩
    exact of_decide_eq_true (List.mem_filter.1 ha').2 ((h a).1 (Option.mem_toList.1 ha)).2
  · rw [List.mem_append, Option.mem_toList, h, List.mem_filter, decide_eq_true_iff,
      ← and_or_left, and_iff_left (Classical.em _)]

/-- Erasing the first element with a property takes away what a search for it finds. -/
lemma length_eraseP_add_find? {α : Type} (p : α → Bool) (l : List α) :
    (l.eraseP p).length + (l.find? p).toList.length = l.length := by
  induction l with
  | nil => rfl
  | cons a l ih =>
    cases h : p a with
    | true => simp [h]
    | false =>
      rw [List.eraseP_cons_of_neg (by simp [h]), List.find?_cons_of_neg (by simp [h]),
        List.length_cons, List.length_cons]
      omega

/-! ## What stands -/

/-- A directive stands if it is there and yields to none behind it. -/
lemma mem_standing_iff (h : ds.Pairwise fun d e => d.order < e.order) :
    d ∈ standing ds ↔ d ∈ ds ∧ ∀ e ∈ ds, d.order < e.order → ¬ d.YieldsTo e := by
  constructor
  · intro hd
    refine ⟨standing_subset ds hd, fun e he hlt hyields => ?_⟩
    -- what `d` yields to stands itself, or yields to something later that does
    obtain ⟨f, hf, hle, heq⟩ := exists_standing h he
    have hdf : d.YieldsTo f := by
      rcases heq with rfl | hef
      · exact hyields
      · exact ⟨hyields.1, hyields.2.1.trans hef.2.1, hyields.2.2.trans hef.2.2⟩
    rw [eq_of_mem_standing hd hf hdf] at hlt
    omega
  · rintro ⟨hd, hnone⟩
    obtain ⟨e, he, hle, rfl | hyields⟩ := exists_standing h hd
    · exact he
    · by_cases hlt : d.order < e.order
      · exact absurd hyields (hnone e (standing_subset ds he) hlt)
      · rwa [Directive.eq_of_order_eq h hd (standing_subset ds he) (by omega)]

/-- An override by the next directive: of those behind the loser with the same exclusive kind and
the same address, the winner is the first one. -/
structure Override.IsNext (ds : List Directive) (v : Override) : Prop where
  /-- The loser was placed. -/
  loser_mem : v.loser ∈ ds
  /-- The winner was placed. -/
  winner_mem : v.winner ∈ ds
  /-- The loser has the kind and the address of the winner, and the kind is exclusive. -/
  yields : v.loser.YieldsTo v.winner
  /-- The winner comes behind the loser. -/
  lt : v.loser.order < v.winner.order
  /-- None of those that the loser yields to comes between the two. -/
  least : ∀ e ∈ ds, v.loser.YieldsTo e → v.loser.order < e.order → v.winner.order ≤ e.order

/-- A directive behind all others changes nothing about earlier overrides. -/
lemma Override.IsNext.concat (h : v.IsNext ds) (hd : ∀ e ∈ ds, e.order < d.order) :
    v.IsNext (ds ++ [d]) where
  loser_mem := List.mem_append_left _ h.loser_mem
  winner_mem := List.mem_append_left _ h.winner_mem
  yields := h.yields
  lt := h.lt
  least e he hyields hlt := by
    rcases List.mem_append.1 he with he | he
    · exact h.least e he hyields hlt
    · rw [List.mem_singleton.1 he]
      exact Nat.le_of_lt (hd _ h.winner_mem)

/-- A directive behind all others is the next one for what stands and yields to it. -/
lemma Override.isNext_of_mem_standing (h : ds.Pairwise fun d e => d.order < e.order)
    (hd : ∀ e ∈ ds, e.order < d.order) (he : e ∈ standing ds) (hyields : e.YieldsTo d) :
    Override.IsNext (ds ++ [d]) ⟨e, d⟩ := by
  obtain ⟨hmem, hnone⟩ := (mem_standing_iff h).1 he
  refine ⟨List.mem_append_left _ hmem, List.mem_append_right _ List.mem_cons_self, hyields,
    hd e hmem, fun f hf hef hlt => ?_⟩
  rcases List.mem_append.1 hf with hf | hf
  · exact absurd hef (hnone f hf hlt)
  · exact Nat.le_of_eq (congrArg Directive.order (List.mem_singleton.1 hf)).symm

namespace Store

/-! ## One directive -/

/-- Whether a directive is admitted does not depend on the directives that were taken. -/
lemma admits_eq (s : Store) (d : Directive) :
    s.admits d = (d.active && d.appliesTo s.platform) := rfl

/-- What loses its place is added to the overrides. -/
lemma overrides_place (s : Store) (d : Directive) :
    (s.place d).overrides = s.overrides ++ ((s.displaced? d).map (⟨·, d⟩)).toList := by
  have hadmits : ({ s with lastOrder := some d.order } : Store).admits d = s.admits d := rfl
  rw [place, displaced?]
  simp only [hadmits, placeLive, placePattern, placeKey]
  cases s.admits d with
  | false => simp
  | true =>
    cases d.address with
    | pattern rule => simp [Function.comp_def]
    | key key => cases d.kind.resolution <;> simp

/-- What is not admitted is inert. -/
lemma inert_place (s : Store) (d : Directive) :
    (s.place d).inert = s.inert ++ if s.admits d then [] else [d] := by
  have hadmits : ({ s with lastOrder := some d.order } : Store).admits d = s.admits d := rfl
  rw [place]
  simp only [hadmits, placeLive, placePattern, placeKey]
  cases s.admits d with
  | false => simp
  | true =>
    cases d.address with
    | pattern rule => simp
    | key key => cases d.kind.resolution <;> simp

/-- **What is admitted counts**, in place of what it displaces.

**Proof sketch.** With wildcards, one entry is erased if one is found. In a table, what was held
under the key is replaced by the directive, or by a list that is one longer. -/
lemma size_place (h : s.admits d = true) :
    (s.place d).size + (s.displaced? d).toList.length = s.size + 1 := by
  have hadmits : ({ s with lastOrder := some d.order } : Store).admits d = true := h
  rw [place, displaced?]
  simp only [hadmits, h, if_true, placeLive]
  cases d.address with
  | pattern rule =>
    have hlength := length_eraseP_add_find? (isReplaced rule d) s.patterns
    simp only [size, placePattern, List.length_append, List.length_singleton, Option.length_toList,
      Option.isSome_map] at hlength ⊢
    omega
  | key key =>
    cases hkind : d.kind.resolution with
    | exclusive =>
      have hlength := (s.exclusive.perm_values_insert (d.kind, key) d).length_eq
      simp only [Table.values, List.length_append, List.length_cons, List.length_map] at hlength
      simp only [size, placeKey, hkind]
      omega
    | accumulating =>
      have hlength := (s.accumulating.perm_values_insert (d.kind, key)
        ((s.accumulating.get? (d.kind, key)).getD [] ++ [d])).flatten.length_eq
      have hheld : (s.accumulating.get? (d.kind, key)).toList.flatten =
          (s.accumulating.get? (d.kind, key)).getD [] := by
        cases s.accumulating.get? (d.kind, key) <;> simp
      simp only [List.flatten_append, List.flatten_cons, List.length_append, List.length_singleton,
        hheld] at hlength
      simp only [size, placeKey, hkind, Option.toList_none, List.length_nil]
      omega

/-- **The directive in the way** of one that is admitted is the one that stands and yields to it. -/
lemma displaced?_eq_some_iff (hs : s.Reflects platform before) (h : s.admits d = true) :
    s.displaced? d = some e ↔ e ∈ standing (admitted platform before) ∧ e.YieldsTo d := by
  have hincreasing : (admitted platform before).Pairwise fun d e => d.order < e.order :=
    hs.increasing.filter _
  rw [displaced?, if_pos h]
  cases haddress : d.address with
  | pattern rule =>
    simp only [hs.holds.patterns_eq, Option.map_eq_some_iff]
    constructor
    · rintro ⟨p, hp, rfl⟩
      have hmem := List.mem_of_find?_eq_some hp
      exact ⟨(mem_patternEntries.1 hmem).1,
        (isReplaced_iff hmem haddress).1 (List.find?_some hp)⟩
    · rintro ⟨he, hyields⟩
      have hmem : (⟨rule, e⟩ : PatternEntry) ∈ patternEntries (admitted platform before) :=
        mem_patternEntries.2 ⟨he, hyields.2.2.trans haddress⟩
      obtain ⟨p, hp⟩ := Option.isSome_iff_exists.1
        (List.find?_isSome.2 ⟨_, hmem, (isReplaced_iff hmem haddress).2 hyields⟩)
      -- only one standing directive yields to `d`
      have hpmem := List.mem_of_find?_eq_some hp
      have hpyields := (isReplaced_iff hpmem haddress).1 (List.find?_some hp)
      exact ⟨p, hp, eq_of_mem_standing (mem_patternEntries.1 hpmem).1 he
        ⟨hpyields.1, hpyields.2.1.trans hyields.2.1.symm, hpyields.2.2.trans hyields.2.2.symm⟩⟩
  | key key =>
    cases hkind : d.kind.resolution with
    | exclusive =>
      simp only [hs.holds.exclusive_eq d.kind key hkind]
      rw [getLast?_keyed_eq_some_iff hincreasing hkind]
      refine and_congr_right fun _ => ?_
      constructor
      · rintro ⟨hekind, headdress⟩
        exact ⟨hekind ▸ hkind, hekind, headdress.trans haddress.symm⟩
      · intro hyields
        exact ⟨hyields.2.1, hyields.2.2.trans haddress⟩
    | accumulating =>
      constructor
      · intro hnone
        cases hnone
      · rintro ⟨-, hyields⟩
        have hexclusive := hyields.2.1 ▸ hyields.1
        rw [hkind] at hexclusive
        cases hexclusive

/-! ## Where directives are kept -/

/-- Where a store keeps the directives that were placed in it: each of them stands or was
overridden, those that stand count, and every override was one by the next directive. -/
structure Conserves (s : Store) (ds : List Directive) : Prop where
  /-- No directive is lost, and none is kept twice. -/
  perm : (s.overridden ++ standing ds).Perm ds
  /-- Those that stand count. -/
  size_eq : s.size = (standing ds).length
  /-- Each one lost its place to the next one. -/
  isNext : ∀ v ∈ s.overrides, v.IsNext ds
  /-- The overrides are in the order in which they happened. -/
  winners_increase : s.overrides.Pairwise fun v w => v.winner.order < w.winner.order

/-- **One step**: an admitted directive behind all others stands, and what yielded to it is
overridden. -/
lemma Conserves.place (hc : s.Conserves (admitted platform before))
    (hs : s.Reflects platform before) (hd : ∀ e ∈ before, e.order < d.order)
    (h : s.admits d = true) : (s.place d).Conserves (admitted platform before ++ [d]) := by
  have hincreasing : (admitted platform before).Pairwise fun d e => d.order < e.order :=
    hs.increasing.filter _
  have hlast : ∀ e ∈ admitted platform before, e.order < d.order := fun e he =>
    hd e (List.mem_filter.1 he).1
  have hstanding : (standing (admitted platform before)).Perm ((s.displaced? d).toList ++
      (standing (admitted platform before)).filter fun e => ¬ e.YieldsTo d) :=
    perm_toList_append_filter ((Directive.nodup_of_increasing hincreasing).sublist
      (standing_sublist _)) fun e => displaced?_eq_some_iff hs h
  have hdisplaced : ∀ v ∈ ((s.displaced? d).map fun e => (⟨e, d⟩ : Override)).toList,
      v.winner = d ∧ v.IsNext (admitted platform before ++ [d]) := by
    intro v hv
    obtain ⟨e, he, rfl⟩ := Option.map_eq_some_iff.1 (Option.mem_toList.1 hv)
    obtain ⟨hstands, hyields⟩ := (displaced?_eq_some_iff hs h).1 he
    exact ⟨rfl, Override.isNext_of_mem_standing hincreasing hlast hstands hyields⟩
  refine ⟨?_, ?_, fun v hv => ?_, ?_⟩
  · have hoverridden : (s.place d).overridden = s.overridden ++ (s.displaced? d).toList := by
      rw [overridden, overrides_place, List.map_append, ← overridden]
      cases s.displaced? d <;> rfl
    rw [hoverridden, standing_concat, List.append_assoc, ← List.append_assoc _ _ [d],
      ← List.append_assoc]
    exact ((hstanding.symm.append_left _).trans hc.perm).append_right _
  · have hsize := size_place h
    have hlength := hstanding.length_eq
    have hc := hc.size_eq
    rw [List.length_append] at hlength
    rw [standing_concat, List.length_append, List.length_singleton]
    omega
  · rw [overrides_place] at hv
    rcases List.mem_append.1 hv with hv | hv
    · exact (hc.isNext v hv).concat hlast
    · exact (hdisplaced v hv).2
  · rw [overrides_place]
    refine List.pairwise_append.2 ⟨hc.winners_increase, ?_, fun v hv w hw => ?_⟩
    · cases s.displaced? d <;> simp
    · rw [(hdisplaced w hw).1]
      exact hlast _ (hc.isNext v hv).winner_mem

/-- A store behind a history: it reflects the history, keeps what is inert, conserves what is
admitted, and knows the last position. -/
structure Accounts (platform : Option String) (before : List Directive) (s : Store) : Prop where
  /-- The store holds what the history leaves. -/
  reflects : s.Reflects platform before
  /-- What is not admitted is inert. -/
  inert_eq : s.inert = before.filter fun d => !(d.active && d.appliesTo platform)
  /-- What is admitted stands or was overridden. -/
  conserves : s.Conserves (admitted platform before)
  /-- The last position is that of the last directive. -/
  lastOrder_eq : s.lastOrder = before.getLast?.map (·.order)

/-- **One step**: a directive that is taken is accounted for. -/
lemma Accounts.apply (hs : s.Accounts platform before) (h : s.apply d = .ok s') :
    s'.Accounts platform (before ++ [d]) := by
  have hreflects := hs.reflects.apply h
  obtain rfl := eq_place_of_apply h
  obtain rfl := hs.reflects.platform_eq
  have hd : ∀ e ∈ before, e.order < d.order := fun e he =>
    (List.pairwise_append.1 hreflects.increasing).2.2 e he d List.mem_cons_self
  refine ⟨hreflects, ?_, ?_, by simp [lastOrder_place]⟩
  · rw [inert_place, hs.inert_eq, List.filter_append, admits_eq, List.filter_cons, List.filter_nil]
    cases d.active && d.appliesTo s.platform <;> rfl
  · rw [admitted_concat, ← admits_eq]
    cases hadmits : s.admits d with
    | true => exact hs.conserves.place hs.reflects hd hadmits
    | false =>
      have hnone : s.displaced? d = none := by simp [displaced?, hadmits]
      have hoverrides : (s.place d).overrides = s.overrides := by simp [overrides_place, hnone]
      have hsize : (s.place d).size = s.size := by
        have hadmits' : ({ s with lastOrder := some d.order } : Store).admits d = false := hadmits
        simp [place, hadmits', size]
      simp only [Bool.false_eq_true, if_false, List.append_nil]
      obtain ⟨hperm, hcount, hnext, hwinners⟩ := hs.conserves
      exact ⟨by rwa [overridden, hoverrides], hsize.trans hcount, by rwa [hoverrides],
        by rwa [hoverrides]⟩

/-- **A whole run**: everything that is taken is accounted for. -/
lemma Accounts.applyAll (hs : s.Accounts platform before) (history : List Directive) :
    (s.applyAll history).1.Accounts platform (before ++ s.taken history) := by
  induction history generalizing s before with
  | nil => simpa [Store.applyAll, taken] using hs
  | cons d ds ih =>
    unfold Store.applyAll taken
    cases h : s.apply d with
    | ok s' => simpa using ih (hs.apply h)
    | error e => simpa using ih hs

/-- A fresh store accounts for what it takes of a history. -/
lemma accounts_applyAll (platform : Option String) (history : List Directive) :
    (Store.applyAll { platform } history).1.Accounts platform (taken { platform } history) := by
  have hfresh : Accounts platform [] { platform } :=
    ⟨⟨rfl, ⟨fun _ _ _ => rfl, fun _ _ _ => rfl, rfl⟩, List.Pairwise.nil, by simp⟩, rfl,
      ⟨List.Perm.refl _, rfl, by simp, List.Pairwise.nil⟩, rfl⟩
  simpa using hfresh.applyAll history

/-- A directive is refused if it does not come behind the last one. -/
lemma Accounts.apply_eq_error_iff (hs : s.Accounts platform before) :
    (∃ refusal, s.apply d = .error refusal) ↔
      ∃ last, before.getLast? = some last ∧ d.order ≤ last.order := by
  rw [Store.apply, hs.lastOrder_eq]
  cases before.getLast? with
  | none => simp
  | some last => by_cases hle : d.order ≤ last.order <;> simp [hle]

/-! ## The live directives -/

/-- All live directives, kind by kind. -/
def live (s : Store) : List Directive := DirectiveKind.all.flatMap s.directivesOf

/-- The live directives are those that stand. -/
lemma Reflects.live_perm (hs : s.Reflects platform before) :
    s.live.Perm (standing (admitted platform before)) := by
  have hnodup : (standing (admitted platform before)).Nodup :=
    Directive.nodup_of_increasing ((hs.increasing.filter _).sublist (standing_sublist _))
  rw [live, funext hs.directivesOf_eq]
  refine (List.perm_ext_iff_of_nodup (List.nodup_flatMap.2 ⟨fun kind _ => hnodup.filter _, ?_⟩)
    hnodup).2 fun d => ?_
  · have hkinds : DirectiveKind.all.Nodup := by decide
    refine hkinds.imp fun {kind kind'} hne d hd hd' => hne ?_
    exact (eq_of_beq (List.mem_filter.1 hd).2).symm.trans (eq_of_beq (List.mem_filter.1 hd').2)
  · rw [List.mem_flatMap]
    constructor
    · rintro ⟨kind, -, hd⟩
      exact (List.mem_filter.1 hd).1
    · exact fun hd => ⟨d.kind, d.kind.mem_all, List.mem_filter.2 ⟨hd, beq_self_eq_true _⟩⟩

/-- **Every directive is kept in one place, once.** -/
lemma Accounts.perm (hs : s.Accounts platform before) :
    (s.inert ++ s.overridden ++ s.live).Perm before := by
  have hplaced : (s.overridden ++ s.live).Perm (admitted platform before) :=
    (hs.reflects.live_perm.append_left _).trans hs.conserves.perm
  rw [List.append_assoc, hs.inert_eq]
  exact (hplaced.append_left _).trans
    (List.perm_append_comm.trans (List.filter_append_perm _ before))

/-- An admitted directive is overridden if a later one with the same exclusive kind and the same
address is admitted. -/
lemma Accounts.mem_overridden (hs : s.Accounts platform before) : d ∈ s.overridden ↔
    d ∈ admitted platform before ∧
      ∃ e ∈ admitted platform before, d.order < e.order ∧ d.YieldsTo e := by
  have hincreasing : (admitted platform before).Pairwise fun d e => d.order < e.order :=
    hs.reflects.increasing.filter _
  have hperm := hs.conserves.perm
  have hdisjoint := (List.nodup_append'.1
    (hperm.nodup_iff.2 (Directive.nodup_of_increasing hincreasing))).2.2
  have hstands : d ∈ s.overridden ↔
      d ∈ admitted platform before ∧ d ∉ standing (admitted platform before) := by
    rw [← hperm.mem_iff, List.mem_append]
    exact ⟨fun hd => ⟨.inl hd, hdisjoint hd⟩, fun ⟨hd, hnot⟩ => hd.resolve_right hnot⟩
  rw [hstands, mem_standing_iff hincreasing]
  refine and_congr_right fun hd => ?_
  simp [hd]

/-- What is taken is inert, overridden or live. -/
lemma Accounts.mem_standing_iff (hs : s.Accounts platform before) (hd : d ∈ before) :
    d ∈ standing (admitted platform before) ↔ d ∉ s.inert ∧ d ∉ s.overridden := by
  have hnodup := hs.perm.nodup_iff.2 (Directive.nodup_of_increasing hs.reflects.increasing)
  obtain ⟨-, -, hdisjoint⟩ := List.nodup_append'.1 hnodup
  rw [← hs.reflects.live_perm.mem_iff, ← not_or, ← List.mem_append]
  refine ⟨fun hlive hkept => hdisjoint hkept hlive, fun hnot => ?_⟩
  exact (List.mem_append.1 (hs.perm.mem_iff.2 hd)).resolve_left hnot

end Store

namespace ObservedStore

/-- An observer is told of a directive what the store notes of it. -/
lemma record_apply (h : observed.record = observed.store.overrides) (d : Directive) :
    (observed.apply d).1.record = (observed.apply d).1.store.overrides := by
  unfold ObservedStore.apply
  cases hd : observed.store.apply d with
  | error refusal => exact h
  | ok s =>
    obtain rfl := Store.eq_place_of_apply hd
    rw [Store.overrides_place, ← h]

/-- **A whole run**: the store is the one without an observer, and the record has its overrides. -/
lemma applyAll_spec (observed : ObservedStore) (h : observed.record = observed.store.overrides)
    (history : List Directive) :
    (observed.applyAll history).store = (observed.store.applyAll history).1 ∧
      (observed.applyAll history).record = (observed.applyAll history).store.overrides := by
  induction history generalizing observed with
  | nil => exact ⟨rfl, h⟩
  | cons d ds ih =>
    obtain ⟨hstore, hrecord⟩ := ih _ (record_apply h d)
    refine ⟨?_, hrecord⟩
    rw [applyAll, List.foldl_cons, ← applyAll, hstore, Store.applyAll, ObservedStore.apply]
    cases observed.store.apply d <;> rfl

/-- A directive is refused if the store refuses it, and then nothing changes. -/
lemma apply_eq_of_isSome (h : (observed.apply d).2.isSome) :
    (∃ refusal, observed.store.apply d = .error refusal) ∧ (observed.apply d).1 = observed := by
  unfold ObservedStore.apply at h ⊢
  cases hd : observed.store.apply d with
  | ok s => simp [hd] at h
  | error refusal => exact ⟨⟨refusal, rfl⟩, rfl⟩

/-- **No directive is lost.** Whatever directives are applied to a fresh store for any platform,
while an observer keeps a record, the next one is refused exactly if it does not come behind the
last one that was taken, and then neither the store nor the record changes.

All that was taken is kept once: it is inert if it is commented out or meant for another platform;
it was overridden if its kind is exclusive and a later one that counts has the same kind and the
same address; and otherwise it is listed once among the live ones of its kind, as a scan of the
tables finds them. The size of the store is the number of the live ones.

The observer was told of all that were overridden, in the order in which it happened, each of them
with the next one of the same kind and the same address. -/
theorem applyAll_conserves (platform : Option String) (history : List Directive) :
    let observed : ObservedStore := applyAll { store := { platform } } history
    let s := observed.store
    let taken := Store.taken { platform } history
    (∀ d, ((observed.apply d).2.isSome ↔
        ∃ last, taken.getLast? = some last ∧ d.order ≤ last.order) ∧
      ((observed.apply d).2.isSome → (observed.apply d).1 = observed)) ∧
    taken.Nodup ∧ (s.inert ++ s.overridden ++ s.live).Perm taken ∧
    (∀ d ∈ taken,
      (d ∈ s.inert ↔ d.active = false ∨ d.appliesTo platform = false) ∧
      (d ∈ s.overridden ↔ d ∈ admitted platform taken ∧
        ∃ e ∈ admitted platform taken, d.order < e.order ∧ d.YieldsTo e) ∧
      ∀ kind, (s.directivesOf kind).count d =
        if d.kind = kind ∧ d ∉ s.inert ∧ d ∉ s.overridden then 1 else 0) ∧
    (∀ kind, s.directivesOf kind = Directive.sort (s.scannedOf kind ++ s.patternsOf kind)) ∧
    s.size = s.live.length ∧
    observed.record.map Override.loser = s.overridden ∧
    (observed.record.Pairwise fun v w => v.winner.order < w.winner.order) ∧
    ∀ v ∈ observed.record, v.IsNext (admitted platform taken) := by
  intro observed s taken
  obtain ⟨hstore, hrecord⟩ := applyAll_spec { store := { platform } } rfl history
  have hs : s.Accounts platform taken := by
    have haccounts := Store.accounts_applyAll platform history
    rwa [← hstore] at haccounts
  have hnodup : taken.Nodup := Directive.nodup_of_increasing hs.reflects.increasing
  refine ⟨fun d => ⟨?_, fun h => (apply_eq_of_isSome h).2⟩, hnodup, hs.perm, fun d hd => ⟨?_,
    hs.mem_overridden, fun kind => ?_⟩, hs.reflects.directivesOf_eq_sort_scannedOf, ?_, ?_, ?_, ?_⟩
  · rw [← hs.apply_eq_error_iff]
    refine ⟨fun h => (apply_eq_of_isSome h).1, fun ⟨refusal, h⟩ => ?_⟩
    have hrefused : observed.store.apply d = .error refusal := h
    simp [ObservedStore.apply, hrefused]
  · rw [hs.inert_eq, List.mem_filter, and_iff_right hd, Bool.not_eq_true', Bool.and_eq_false_iff]
  · have hlisted : ((standing (admitted platform taken)).filter (·.kind == kind)).Nodup :=
      ((hnodup.filter _).sublist (standing_sublist _)).filter _
    rw [hs.reflects.directivesOf_eq, hlisted.count]
    simp only [List.mem_filter, beq_iff_eq, hs.mem_standing_iff hd, and_comm]
  · rw [hs.conserves.size_eq, hs.reflects.live_perm.length_eq]
  · rw [hrecord]
    rfl
  · exact hrecord ▸ hs.conserves.winners_increase
  · exact hrecord ▸ hs.conserves.isNext

end ObservedStore

end BindingRules
