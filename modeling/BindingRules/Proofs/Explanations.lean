import BindingRules.Policy.Explain
import BindingRules.Proofs.BaseNames
import Mathlib.Data.List.Flatten

set_option relaxedAutoImplicit false
set_option autoImplicit false

/-!
# What explanations list

An explanation lists the directives that bear on a name. Those that are listed as effective are
exactly the ones that win and are about the name. Directives with different targets can be about one
name, with wildcards or with and without a signature, and then several of one kind are effective;
the last one of these is the answer to a query.

A directive for the functions of all scopes is about last identifiers. It is listed only where its
target, read as a name, is about the whole name, so such a directive can exclude a function and not
be listed.

## Main definitions

* `Store.KindsApart` — each table of the store has its own sort of kinds.
* `Store.held` — all that the store holds.

## Main results

* `Store.Accounts.held_perm`, `Store.mem_heldAbout` — what the store holds, and what of it is about
  a name.
* `Policy.IsResolved.pairwise_explain` — explanations are in order.
* `Policy.IsResolved.mem_effective` — what is listed as effective.
* `Policy.query_last_effective` — explanations and queries.
* `Policy.exclusions_explained` — explanations and exclusions.
-/

namespace BindingRules

variable {platform : Option String} {kind : DirectiveKind} {n : Name} {d : Directive}
  {before ds : List Directive} {s s' : Store} {key : String} {p : Policy} {raw : String}

/-- An insertion adds no entries but the one for its key. -/
lemma Table.of_mem_entries_insert {κ α : Type} [DecidableEq κ] {t : Table κ α} {k : κ} {a : α}
    {e : κ × α} (h : e ∈ (t.insert k a).entries) : e.1 = k ∨ e ∈ t.entries := by
  rcases List.mem_cons.1 h with rfl | h
  · exact .inl rfl
  · exact .inr (List.mem_filter.1 h).1

namespace Store

/-! ## What the tables hold -/

/-- Each table has directives of its own sort of kinds alone. -/
structure KindsApart (s : Store) : Prop where
  /-- One table is for the exclusive kinds. -/
  exclusive : ∀ e ∈ s.exclusive.entries, e.1.1.resolution = .exclusive
  /-- The other one is for the accumulating kinds. -/
  accumulating : ∀ e ∈ s.accumulating.entries, e.1.1.resolution = .accumulating

/-- A directive goes into the table for its kind. -/
lemma KindsApart.placeKey (h : s.KindsApart) (key : String) (d : Directive) :
    (s.placeKey key d).KindsApart := by
  unfold Store.placeKey
  cases hkind : d.kind.resolution with
  | exclusive =>
    refine ⟨fun e he => ?_, h.accumulating⟩
    rcases Table.of_mem_entries_insert he with heq | he
    · rw [heq, hkind]
    · exact h.exclusive e he
  | accumulating =>
    refine ⟨h.exclusive, fun e he => ?_⟩
    rcases Table.of_mem_entries_insert he with heq | he
    · rw [heq, hkind]
    · exact h.accumulating e he

/-- **One step**: the tables stay apart. -/
lemma KindsApart.place (h : s.KindsApart) (d : Directive) : (s.place d).KindsApart := by
  have hstart : ({ s with lastOrder := some d.order } : Store).KindsApart :=
    ⟨h.exclusive, h.accumulating⟩
  simp only [Store.place, Store.placeLive]
  split
  · cases d.address with
    | key key => exact hstart.placeKey key d
    | pattern rule => exact ⟨h.exclusive, h.accumulating⟩
  · exact ⟨h.exclusive, h.accumulating⟩

/-- **A whole run**: the tables stay apart. -/
lemma KindsApart.applyAll (h : s.KindsApart) (history : List Directive) :
    (s.applyAll history).1.KindsApart := by
  induction history generalizing s with
  | nil => exact h
  | cons d ds ih =>
    rw [Store.applyAll]
    cases hd : s.apply d with
    | ok s' =>
      obtain rfl := eq_place_of_apply hd
      exact ih (h.place d)
    | error refusal => exact ih h

/-- The tables of a fresh store stay apart, whatever it takes. -/
lemma kindsApart_applyAll (platform : Option String) (history : List Directive) :
    (Store.applyAll { platform } history).1.KindsApart := by
  have hfresh : KindsApart { platform } :=
    ⟨fun _ he => absurd he List.not_mem_nil, fun _ he => absurd he List.not_mem_nil⟩
  exact hfresh.applyAll history

/-- What is held under a key of an exclusive kind is what stands there. -/
lemma mem_exclusive_entries (hs : s.Holds ds) (hkinds : s.KindsApart)
    (h : ds.Pairwise fun d e => d.order < e.order) :
    ((kind, key), d) ∈ s.exclusive.entries ↔
      d ∈ standing ds ∧ d.kind = kind ∧ d.address = .key key ∧ kind.resolution = .exclusive := by
  constructor
  · intro hmem
    have hkind : kind.resolution = .exclusive := hkinds.exclusive _ hmem
    rw [Table.mem_entries, hs.exclusive_eq kind key hkind,
      getLast?_keyed_eq_some_iff h hkind] at hmem
    exact ⟨hmem.1, hmem.2.1, hmem.2.2, hkind⟩
  · rintro ⟨hstands, hdkind, haddress, hkind⟩
    rw [Table.mem_entries, hs.exclusive_eq kind key hkind, getLast?_keyed_eq_some_iff h hkind]
    exact ⟨hstands, hdkind, haddress⟩

/-- What is held under a key of an accumulating kind is what stands there. -/
lemma mem_accumulating_entries (hs : s.Holds ds) (hkinds : s.KindsApart)
    (h : ds.Pairwise fun d e => d.order < e.order) :
    (∃ held, ((kind, key), held) ∈ s.accumulating.entries ∧ d ∈ held) ↔
      d ∈ standing ds ∧ d.kind = kind ∧ d.address = .key key ∧
        kind.resolution = .accumulating := by
  constructor
  · rintro ⟨held, hmem, hd⟩
    have hkind : kind.resolution = .accumulating := hkinds.accumulating _ hmem
    have hheld := hs.accumulating_eq kind key hkind
    rw [Table.mem_entries.1 hmem, Option.getD_some] at hheld
    obtain ⟨hmem, hdkind, haddress⟩ := mem_keyed.1 (hheld ▸ hd)
    exact ⟨(mem_standing_of_accumulating h (hdkind ▸ hkind)).2 hmem, hdkind, haddress, hkind⟩
  · rintro ⟨hstands, hdkind, haddress, hkind⟩
    have hheld := hs.accumulating_eq kind key hkind
    have hd : d ∈ keyed kind key ds := mem_keyed.2 ⟨standing_subset ds hstands, hdkind, haddress⟩
    cases hget : s.accumulating.get? (kind, key) with
    | none =>
      rw [hget, Option.getD_none] at hheld
      exact absurd (hheld ▸ hd) List.not_mem_nil
    | some held =>
      rw [hget, Option.getD_some] at hheld
      exact ⟨held, Table.mem_entries.2 hget, hheld ▸ hd⟩

/-- All that a store holds, table by table. -/
def held (s : Store) : List Directive :=
  s.exclusive.values ++ s.accumulating.values.flatten ++ s.patterns.map (·.directive)

/-- The live directives of a kind are held. -/
lemma directivesOf_subset_held (s : Store) (kind : DirectiveKind) :
    s.directivesOf kind ⊆ s.held := by
  intro d hd
  rw [directivesOf_eq_sort, Directive.mem_sort, List.mem_append] at hd
  rcases hd with hd | hd
  · refine List.mem_append_left _ ?_
    unfold keyedOf at hd
    split at hd
    · exact List.mem_append_left _ ((List.filter_sublist.map _).subset hd)
    · exact List.mem_append_right _ ((List.filter_sublist.map _).flatten.subset hd)
  · exact List.mem_append_right _ ((List.filter_sublist.map _).subset hd)

/-- **What the store holds** is what stands, each directive once: all that stands is held, and no
more than that number of directives. -/
lemma Accounts.held_perm (hs : s.Accounts platform before) :
    s.held.Perm (standing (admitted platform before)) := by
  have hincreasing : (admitted platform before).Pairwise fun d e => d.order < e.order :=
    hs.reflects.increasing.filter _
  have hsubset : standing (admitted platform before) ⊆ s.held := by
    intro d hd
    refine directivesOf_subset_held s d.kind ?_
    rw [hs.reflects.directivesOf_eq]
    exact List.mem_filter.2 ⟨hd, beq_self_eq_true _⟩
  have hlength : s.held.length = (standing (admitted platform before)).length := by
    rw [← hs.conserves.size_eq]
    simp only [held, size, Table.values, List.length_append, List.length_map]
  have hnodup : (standing (admitted platform before)).Nodup :=
    Directive.nodup_of_increasing (hincreasing.sublist (standing_sublist _))
  exact ((List.subperm_of_subset hnodup hsubset).perm_of_length_le (Nat.le_of_eq hlength)).symm

/-- What the store holds, what was overridden and what is inert are all that was taken. -/
lemma Accounts.perm_held (hs : s.Accounts platform before) :
    (s.held ++ s.overridden ++ s.inert).Perm before := by
  have hlive : s.held.Perm s.live := hs.held_perm.trans hs.reflects.live_perm.symm
  have hall : (s.inert ++ s.overridden ++ s.live).Perm before := hs.perm
  rw [List.append_assoc] at hall
  refine List.perm_append_comm.trans (.trans ?_ hall)
  exact (List.perm_append_comm.trans (hlive.append_left _)).append_left _

/-! ## What bears on a name -/

/-- What the store holds about a name. -/
def heldAbout (s : Store) (n : Name) : List Directive :=
  (s.exclusive.entries.filter fun e => n.lookupKeys.contains e.1.2).map (·.2) ++
    (s.accumulating.entries.filter fun e => n.lookupKeys.contains e.1.2).flatMap (·.2) ++
    (s.patterns.filter fun p => p.name.covers n).map (·.directive)

/-- What bears on a name is held, or was overridden. -/
lemma affecting_eq_sort (s : Store) (n : Name) :
    s.affecting n = Directive.sort (s.heldAbout n ++ s.overridden.filter (·.covers n)) := rfl

/-- What the store holds about a name is a part of what it holds. -/
lemma heldAbout_sublist (s : Store) (n : Name) : (s.heldAbout n).Sublist s.held :=
  ((List.filter_sublist.map _).append (List.filter_sublist.map _).flatten).append
    (List.filter_sublist.map _)

/-- **What the store holds about a name** is what stands and would be found by a query for its
kind.

**Proof sketch.** Under the keys by which the name is looked up, the tables hold what stands there,
and a directive stands in the table for its kind. The entries with wildcards are those that
stand. -/
lemma mem_heldAbout (hs : s.Accounts platform before) (hkinds : s.KindsApart) :
    d ∈ s.heldAbout n ↔ d ∈ standing (admitted platform before) ∧
      d.toStatement.concerns d.kind n = true := by
  have hincreasing : (admitted platform before).Pairwise fun d e => d.order < e.order :=
    hs.reflects.increasing.filter _
  have hholds := hs.reflects.holds
  simp only [heldAbout, List.mem_append, List.mem_map, List.mem_flatMap, List.mem_filter,
    List.contains_iff_mem, concerns_iff, true_and]
  constructor
  · rintro ((⟨⟨⟨kind, key⟩, d⟩, ⟨hmem, hkey⟩, rfl⟩ | ⟨⟨⟨kind, key⟩, held⟩, ⟨hmem, hkey⟩, hd⟩) |
      ⟨p, ⟨hmem, hcovers⟩, rfl⟩)
    · obtain ⟨hstands, -, haddress, -⟩ := (mem_exclusive_entries hholds hkinds hincreasing).1 hmem
      exact ⟨hstands, .inr ⟨key, haddress, hkey⟩⟩
    · obtain ⟨hstands, -, haddress, -⟩ :=
        (mem_accumulating_entries hholds hkinds hincreasing).1 ⟨held, hmem, hd⟩
      exact ⟨hstands, .inr ⟨key, haddress, hkey⟩⟩
    · obtain ⟨hstands, haddress⟩ := mem_patternEntries.1 (hholds.patterns_eq ▸ hmem)
      exact ⟨hstands, .inl ⟨p.name, haddress, hcovers⟩⟩
  · rintro ⟨hstands, ⟨rule, haddress, hcovers⟩ | ⟨key, haddress, hkey⟩⟩
    · refine .inr ⟨⟨rule, d⟩, ⟨?_, hcovers⟩, rfl⟩
      rw [hholds.patterns_eq]
      exact mem_patternEntries.2 ⟨hstands, haddress⟩
    · left
      cases hkind : d.kind.resolution with
      | exclusive =>
        exact .inl ⟨((d.kind, key), d), ⟨(mem_exclusive_entries hholds hkinds hincreasing).2
          ⟨hstands, rfl, haddress, hkind⟩, hkey⟩, rfl⟩
      | accumulating =>
        obtain ⟨held, hmem, hd⟩ := (mem_accumulating_entries hholds hkinds hincreasing).2
          ⟨hstands, rfl, haddress, hkind⟩
        exact .inr ⟨((d.kind, key), held), ⟨hmem, hkey⟩, hd⟩

end Store

/-- An admitted directive is in force for the names that it is about. -/
lemma Directive.inForce_iff_concerns (hd : d ∈ admitted platform before) :
    d.InForce platform d.kind n ↔ d.toStatement.concerns d.kind n = true := by
  have hmem : d ∈ before := (List.mem_filter.1 hd).1
  have hforce : d ∈ before ∧ d.InForce platform d.kind n ↔ _ := inForce_iff
  rw [and_iff_right hmem, and_iff_right hd] at hforce
  rw [hforce, concerns_iff]

/-- Different directives of a history are sorted into the order of their positions. -/
lemma Directive.pairwise_sort_of_subset (h : before.Pairwise fun d e => d.order < e.order)
    (hnodup : ds.Nodup) (hsubset : ds ⊆ before) :
    (sort ds).Pairwise fun d e => d.order < e.order := by
  have hnodup' : (sort ds).Nodup := (List.mergeSort_perm ds _).nodup_iff.2 hnodup
  refine ((pairwise_sort ds).and hnodup').imp_of_mem fun {d e} hd he ⟨hle, hne⟩ => ?_
  refine Nat.lt_of_le_of_ne hle fun heq => hne ?_
  exact eq_of_order_eq h (hsubset (mem_sort.1 hd)) (hsubset (mem_sort.1 he)) heq

namespace Policy

/-! ## What is listed -/

/-- The store of a policy accounts for its directives, under the platform of its settings. -/
lemma IsResolved.accounts (h : p.IsResolved) :
    p.store.Accounts (some p.config.platform) p.ruleset.directives ∧ p.store.KindsApart := by
  obtain ⟨c, r, inputs, hread, hresolve⟩ := h
  obtain rfl := Config.eq_policyOf_of_resolve hresolve
  have htaken : Store.taken { platform := some c.platform } r.directives = r.directives :=
    Store.taken_eq_self hread.increasing fun d _ last hlast => by cases hlast
  have hstore : (c.policyOf r inputs).store =
      (Store.applyAll { platform := some c.platform } r.directives).1 :=
    c.fillStoreFrom_fst _ _
  have haccounts := Store.accounts_applyAll (some c.platform) r.directives
  rw [htaken] at haccounts
  rw [hstore]
  exact ⟨haccounts, Store.kindsApart_applyAll (some c.platform) r.directives⟩

/-- The directives that are listed, in the order in which they are listed. -/
lemma map_directive_explain (p : Policy) (raw : String) :
    (p.explain raw).directives.map (·.directive) =
      Directive.sort ((p.explainStored raw ++ p.explainInert raw).map (·.directive)) :=
  List.map_mergeSort fun _ _ _ _ => rfl

/-- What is listed of the store is what it holds about the name and what was overridden there. -/
lemma map_directive_explainStored (hn : Name.normalize raw = .ok n) :
    ((p.explainStored raw).map (·.directive)).Perm
      (p.store.heldAbout n ++ p.store.overridden.filter (·.covers n)) := by
  simp only [explainStored, hn, List.map_map, Function.comp_def, List.map_id']
  exact List.mergeSort_perm _ _

/-- **Nothing is listed twice**, and all that is listed comes in the order of its positions.

**Proof sketch.** What is listed are parts of what the store holds, of what was overridden, and of
what is inert. Together these are all directives of the rules, each of them once. -/
lemma IsResolved.pairwise_explain (h : p.IsResolved) (raw : String) :
    (p.explain raw).directives.Pairwise fun a b => a.directive.order < b.directive.order := by
  have haccounts := h.accounts.1
  have hincreasing := haccounts.reflects.increasing
  have hinert : ((p.explainInert raw).map (·.directive)).Sublist p.store.inert := by
    simp only [explainInert, List.map_map, Function.comp_def, List.map_id']
    exact List.filter_sublist
  have hstored : ((p.explainStored raw).map (·.directive)).Subperm
      (p.store.held ++ p.store.overridden) := by
    cases hn : Name.normalize raw with
    | error e => simp [explainStored, hn]
    | ok n =>
      have hpart := (p.store.heldAbout_sublist n).append
        (List.filter_sublist (p := (·.covers n)) (l := p.store.overridden))
      exact (map_directive_explainStored hn).subperm.trans hpart.subperm
  have hall : ((p.explainStored raw ++ p.explainInert raw).map (·.directive)).Subperm
      p.ruleset.directives := by
    rw [List.map_append]
    exact (hstored.append hinert.subperm).trans haccounts.perm_held.subperm
  have hnodup : ((p.explainStored raw ++ p.explainInert raw).map (·.directive)).Nodup := by
    obtain ⟨ds, hperm, hpart⟩ := hall
    exact hperm.nodup_iff.1 ((Directive.nodup_of_increasing hincreasing).sublist hpart)
  have hsorted := Directive.pairwise_sort_of_subset hincreasing hnodup hall.subset
  rw [← map_directive_explain, List.pairwise_map] at hsorted
  exact hsorted

/-- The directives that win are those that stand. -/
lemma IsResolved.wins_iff (h : p.IsResolved) : p.ruleset.Wins (some p.config.platform) d ↔
    d ∈ standing (admitted (some p.config.platform) p.ruleset.directives) := by
  have hincreasing : (admitted (some p.config.platform) p.ruleset.directives).Pairwise
      fun d e => d.order < e.order := h.reflects.increasing.filter _
  rw [mem_standing_iff hincreasing, Ruleset.Wins]

/-- A directive that wins has the position of none that was overridden. -/
lemma IsResolved.any_overridden_iff (h : p.IsResolved) (hd : d ∈ p.ruleset.directives) :
    p.store.overridden.any (·.order == d.order) = true ↔ d ∈ p.store.overridden := by
  have haccounts := h.accounts.1
  rw [List.any_eq_true]
  constructor
  · rintro ⟨e, he, horder⟩
    have hmem : e ∈ p.ruleset.directives := by
      refine haccounts.perm_held.subset ?_
      exact List.mem_append_left _ (List.mem_append_right _ he)
    rwa [← Directive.eq_of_order_eq haccounts.reflects.increasing hmem hd (beq_iff_eq.1 horder)]
  · intro hover
    exact ⟨d, hover, beq_self_eq_true _⟩

/-- **What is listed as effective**: the directives that win and are about the name.

**Proof sketch.** What stands and is about the name is held by the store, and was not overridden.
Whatever else is listed was overridden or is inert, and is listed as such. -/
lemma IsResolved.mem_effective (h : p.IsResolved) {e : ExplainedDirective} :
    e ∈ (p.explain raw).effective ↔ e.status = .effective ∧ ∃ n, Name.normalize raw = .ok n ∧
      p.ruleset.Wins (some p.config.platform) e.directive ∧
      e.directive.InForce (some p.config.platform) e.directive.kind n := by
  obtain ⟨haccounts, hkinds⟩ := h.accounts
  have hlisted : e ∈ (p.explain raw).effective ↔
      (e ∈ p.explainStored raw ∨ e ∈ p.explainInert raw) ∧ e.status = .effective := by
    rw [Explanation.effective, List.mem_filter, beq_iff_eq, explain, List.mem_mergeSort,
      List.mem_append]
  rw [hlisted, and_comm]
  refine and_congr_right fun hstatus => ?_
  constructor
  · rintro (hstored | hinert)
    · unfold explainStored at hstored
      split at hstored
      · cases hstored
      · next n hn =>
        obtain ⟨d, hd, rfl⟩ := List.mem_map.1 hstored
        refine ⟨n, hn, ?_⟩
        rw [Store.affecting_eq_sort, Directive.mem_sort, List.mem_append] at hd
        rcases hd with hd | hd
        · obtain ⟨hstands, habout⟩ := (Store.mem_heldAbout haccounts hkinds).1 hd
          exact ⟨h.wins_iff.2 hstands,
            (Directive.inForce_iff_concerns (standing_subset _ hstands)).2 habout⟩
        · have hover := (List.mem_filter.1 hd).1
          have hany : p.store.overridden.any (·.order == d.order) = true :=
            List.any_eq_true.2 ⟨d, hover, beq_self_eq_true d.order⟩
          simp [hany] at hstatus
    · obtain ⟨d, -, rfl⟩ := List.mem_map.1 hinert
      simp only at hstatus
      split at hstatus <;> cases hstatus
  · rintro ⟨n, hn, hwins, hforce⟩
    obtain ⟨d, status⟩ := e
    obtain rfl : status = .effective := hstatus
    have hstands := h.wins_iff.1 hwins
    have hmem : d ∈ p.ruleset.directives := (List.mem_filter.1 (standing_subset _ hstands)).1
    have hlive : d ∉ p.store.overridden := ((haccounts.mem_standing_iff hmem).1 hstands).2
    have habout := (Directive.inForce_iff_concerns (standing_subset _ hstands)).1 hforce
    left
    rw [explainStored, hn]
    refine List.mem_map.2 ⟨d, ?_, ?_⟩
    · rw [Store.affecting_eq_sort, Directive.mem_sort]
      exact List.mem_append_left _ ((Store.mem_heldAbout haccounts hkinds).2 ⟨hstands, habout⟩)
    · rw [if_neg (mt (h.any_overridden_iff hmem).1 hlive)]

/-- Of a kind, those that win and are in force for the name are listed as effective. -/
lemma IsResolved.mem_effective_kind (h : p.IsResolved) (hn : Name.normalize raw = .ok n)
    {e : ExplainedDirective} :
    e ∈ (p.explain raw).effective.filter (·.directive.kind == kind) ↔
      e.status = .effective ∧ p.ruleset.Wins (some p.config.platform) e.directive ∧
        e.directive.InForce (some p.config.platform) kind n := by
  rw [List.mem_filter, h.mem_effective, beq_iff_eq]
  constructor
  · rintro ⟨⟨hstatus, n', hn', hwins, hforce⟩, rfl⟩
    obtain rfl := Except.ok.inj (hn.symm.trans hn')
    exact ⟨hstatus, hwins, hforce⟩
  · rintro ⟨hstatus, hwins, hforce⟩
    exact ⟨⟨hstatus, n, hn, hwins, hforce.kind_eq ▸ hforce⟩, hforce.kind_eq⟩

/-! ## Explanations and queries -/

/-- The answer to a query wins: what it would yield to would come later and be in force as well. -/
lemma IsResolved.wins_of_query (h : p.IsResolved) (hkind : kind.resolution = .exclusive)
    (hd : p.store.query kind n = some d) : p.ruleset.Wins (some p.config.platform) d := by
  obtain ⟨hforce, hlast⟩ := (Store.query_eq_some_iff h.reflects hkind).1 hd
  obtain ⟨hadmitted, hdkind, habout⟩ := inForce_iff.1 hforce
  refine ⟨hadmitted, fun e he hlt hyields => ?_⟩
  have heforce : e ∈ p.ruleset.directives ∧ e.InForce (some p.config.platform) kind n := by
    refine inForce_iff.2 ⟨he, hyields.2.1 ▸ hdkind, ?_⟩
    rwa [← hyields.2.2]
  have hle := hlast e heforce.1 heforce.2
  omega

/-- **Explanations and queries.** Whatever the settings, the rules and the inputs, an explanation
of a name lists as effective, of an exclusive kind, the directives that win and are in force for the
name. A query finds nothing exactly if there is none of them. What a query finds is listed once; all
others that are listed come before it, and have other targets. -/
theorem query_last_effective (p : Policy) (h : p.IsResolved) (hn : Name.normalize raw = .ok n)
    (hkind : kind.resolution = .exclusive) :
    let listed := (p.explain raw).effective.filter (·.directive.kind == kind)
    (∀ e, e ∈ listed ↔ e.status = .effective ∧
      p.ruleset.Wins (some p.config.platform) e.directive ∧
        e.directive.InForce (some p.config.platform) kind n) ∧
    (p.store.query kind n = none ↔ listed = []) ∧
    ∀ d, p.store.query kind n = some d → listed.count ⟨d, .effective⟩ = 1 ∧
      ∀ e ∈ listed, e.directive ≠ d →
        e.directive.order < d.order ∧ e.directive.address ≠ d.address := by
  intro listed
  have hmem : ∀ e, e ∈ listed ↔ e.status = .effective ∧
      p.ruleset.Wins (some p.config.platform) e.directive ∧
        e.directive.InForce (some p.config.platform) kind n := fun e => h.mem_effective_kind hn
  have hfound : ∀ d, p.store.query kind n = some d → ⟨d, .effective⟩ ∈ listed := by
    intro d hd
    have hforce := ((Store.query_eq_some_iff h.reflects hkind).1 hd).1.2
    exact (hmem _).2 ⟨rfl, h.wins_of_query hkind hd, hforce⟩
  refine ⟨hmem, ⟨fun hnone => ?_, fun hnil => ?_⟩, fun d hd => ⟨?_, fun e he hne => ?_⟩⟩
  · refine List.eq_nil_iff_forall_not_mem.2 fun e he => ?_
    obtain ⟨-, hwins, hforce⟩ := (hmem e).1 he
    have hdirective := (List.mem_filter.1 hwins.1).1
    exact (Store.query_eq_none_iff h.reflects hkind).1 hnone e.directive hdirective hforce
  · rw [Option.eq_none_iff_forall_ne_some]
    intro d hd
    exact absurd (hnil ▸ hfound d hd) List.not_mem_nil
  · have hnodup : listed.Nodup := by
      refine (((h.pairwise_explain raw).filter _).filter _).imp fun {a b} hlt heq => ?_
      exact Nat.lt_irrefl _ (heq ▸ hlt)
    exact List.count_eq_one_of_mem hnodup (hfound d hd)
  · obtain ⟨-, hwins, hforce⟩ := (hmem e).1 he
    obtain ⟨hdforce, hlast⟩ := (Store.query_eq_some_iff h.reflects hkind).1 hd
    have hdirective := (List.mem_filter.1 hwins.1).1
    have hlt : e.directive.order < d.order := by
      refine Nat.lt_of_le_of_ne (hlast e.directive hdirective hforce) fun heq => hne ?_
      exact Directive.eq_of_order_eq h.reflects.increasing hdirective hdforce.1 heq
    refine ⟨hlt, fun haddress => hwins.2 d (inForce_iff.1 hdforce).1 hlt ⟨?_, ?_, haddress⟩⟩
    · rw [hforce.kind_eq, hkind]
    · rw [hforce.kind_eq, hdforce.2.kind_eq]

/-- A directive with wildcards that comes last, another one for the name alone, and one that was
overridden. -/
theorem query_last_effective_overlap : ∃ p n d,
    Config.resolveText {} "rules"
      "+pname Geom_Curv?-->a\n+pname Geom_Curve-->b\n+pname Geom_Curv?-->c\n" {} = .ok p ∧
    Name.normalize "Geom_Curve" = .ok n ∧ DirectiveKind.nameOverride.resolution = .exclusive ∧
    p.store.query .nameOverride n = some d ∧ d.line = "+pname Geom_Curv?-->c" ∧
    ((p.explain "Geom_Curve").effective.filter (·.directive.kind == .nameOverride)).count
      ⟨d, .effective⟩ = 1 := by
  have hname : Name.normalize "Geom_Curve" = .ok (.path ⟨[.exact "Geom_Curve"], none⟩) := by
    decide +kernel
  have hkind : DirectiveKind.nameOverride.resolution = .exclusive := rfl
  have hok : (Config.resolveText {} "rules"
      "+pname Geom_Curv?-->a\n+pname Geom_Curve-->b\n+pname Geom_Curv?-->c\n" {}).toOption.any
        (fun p => (p.store.query .nameOverride (.path ⟨[.exact "Geom_Curve"], none⟩)).map
          Directive.line = some "+pname Geom_Curv?-->c") = true := by decide +kernel
  cases hp : Config.resolveText {} "rules"
      "+pname Geom_Curv?-->a\n+pname Geom_Curve-->b\n+pname Geom_Curv?-->c\n" {} with
  | error e =>
    rw [hp] at hok
    cases hok
  | ok p =>
    rw [hp] at hok
    obtain ⟨d, hd, hline⟩ := Option.map_eq_some_iff.1 (of_decide_eq_true hok)
    have hresolved : p.IsResolved := isResolved_of_resolve (.inl ⟨_, _, hp⟩)
    obtain ⟨-, -, hlisted⟩ := query_last_effective p hresolved hname hkind
    exact ⟨p, _, d, rfl, hname, rfl, hd, hline, (hlisted d hd).1⟩

/-- **Two directives for binding names that are listed as effective**: the one with wildcards did
not lose its place to the one for the name alone, which is the answer to the query. -/
theorem several_effective : ∃ p n d e,
    Config.resolveText {} "rules" "+pname Geom_Curv?-->glob\n+pname Geom_Curve-->exact\n" {} =
      .ok p ∧
    Name.normalize "Geom_Curve" = .ok n ∧ DirectiveKind.nameOverride.resolution = .exclusive ∧
    d.kind = .nameOverride ∧ e.kind = .nameOverride ∧ d ≠ e ∧
    ⟨d, .effective⟩ ∈ (p.explain "Geom_Curve").directives ∧
    ⟨e, .effective⟩ ∈ (p.explain "Geom_Curve").directives ∧
    p.store.query .nameOverride n = some e := by
  have hname : Name.normalize "Geom_Curve" = .ok (.path ⟨[.exact "Geom_Curve"], none⟩) := by
    decide +kernel
  have hok : (Config.resolveText {} "rules" "+pname Geom_Curv?-->glob\n+pname Geom_Curve-->exact\n"
      {}).toOption.any (fun p =>
        ∃ d ∈ p.ruleset.directives, ∃ e ∈ p.ruleset.directives, d ≠ e ∧
          d.toStatement.concerns .nameOverride (.path ⟨[.exact "Geom_Curve"], none⟩) = true ∧
          p.ruleset.Wins (some p.config.platform) d ∧
          p.store.query .nameOverride (.path ⟨[.exact "Geom_Curve"], none⟩) = some e) = true := by
    decide +kernel
  cases hp : Config.resolveText {} "rules"
      "+pname Geom_Curv?-->glob\n+pname Geom_Curve-->exact\n" {} with
  | error e =>
    rw [hp] at hok
    cases hok
  | ok p =>
    rw [hp] at hok
    obtain ⟨d, -, e, -, hne, habout, hwins, hquery⟩ := of_decide_eq_true hok
    have h : p.IsResolved := isResolved_of_resolve (.inl ⟨_, _, hp⟩)
    have hdkind : d.kind = .nameOverride := kind_eq_of_concerns habout
    have hdforce := (Directive.inForce_iff_concerns hwins.1).2 (hdkind ▸ habout)
    have heforce := ((Store.query_eq_some_iff h.reflects rfl).1 hquery).1.2
    refine ⟨p, _, d, e, rfl, hname, rfl, hdkind, heforce.kind_eq, hne, ?_, ?_, hquery⟩
    · exact (List.mem_filter.1 (h.mem_effective.2 ⟨rfl, _, hname, hwins, hdforce⟩)).1
    · have hewins : p.ruleset.Wins (some p.config.platform) e := h.wins_of_query rfl hquery
      exact (List.mem_filter.1 (h.mem_effective.2
        ⟨rfl, _, hname, hewins, heforce.kind_eq ▸ heforce⟩)).1

/-! ## Explanations and exclusions -/

/-- A directive for the functions of all scopes that wins is listed as effective for the names that
its target, read as a name, is about. -/
lemma IsResolved.mem_effective_of_wins (h : p.IsResolved)
    (hwins : p.ruleset.Wins (some p.config.platform) d) :
    ⟨d, .effective⟩ ∈ (p.explain raw).effective ↔
      ∃ n, Name.normalize raw = .ok n ∧ d.InForce (some p.config.platform) d.kind n := by
  rw [h.mem_effective]
  constructor
  · rintro ⟨-, n, hn, -, hforce⟩
    exact ⟨n, hn, hforce⟩
  · rintro ⟨n, hn, hforce⟩
    exact ⟨rfl, n, hn, hwins, hforce⟩

/-- A name is excluded by directives of a kind exactly if one of these is listed as effective. -/
lemma IsResolved.isExcluded_iff_effective (h : p.IsResolved) (hn : Name.normalize raw = .ok n)
    (hkind : kind.isExclusion = true) : p.store.isExcluded kind n = true ↔
      ∃ e ∈ (p.explain raw).effective, e.directive.kind = kind := by
  have hresolution := Store.resolution_of_isExclusion hkind
  rw [Store.isExcluded, hkind, Bool.true_and, Option.isSome_iff_exists]
  constructor
  · rintro ⟨d, hd⟩
    have hforce := ((Store.query_eq_some_iff h.reflects hresolution).1 hd).1.2
    have hwins := h.wins_of_query hresolution hd
    refine ⟨⟨d, .effective⟩, (h.mem_effective_of_wins hwins).2 ⟨n, hn, ?_⟩, hforce.kind_eq⟩
    exact hforce.kind_eq ▸ hforce
  · rintro ⟨e, he, rfl⟩
    obtain ⟨-, n', hn', hwins, hforce⟩ := h.mem_effective.1 he
    obtain rfl := Except.ok.inj (hn.symm.trans hn')
    have hdirective := (List.mem_filter.1 hwins.1).1
    rw [← Option.isSome_iff_exists, Option.isSome_iff_ne_none]
    exact fun hnone =>
      (Store.query_eq_none_iff h.reflects hresolution).1 hnone e.directive hdirective hforce

/-- **Explanations and exclusions.** Whatever the settings, the rules and the inputs, a class is
excluded exactly if some directive that excludes classes is listed as effective for it. A function
is excluded exactly if one that excludes functions is listed so, or the last identifier matches the
target of a directive for the functions of all scopes that wins. Such a directive is listed as
effective exactly for the names that its target is about if it is read as a name. -/
theorem exclusions_explained (p : Policy) (h : p.IsResolved) (raw : String) :
    (p.isClassExcluded raw = true ↔
      ∃ e ∈ (p.explain raw).effective, e.directive.kind = .classExclude) ∧
    (p.isFunctionExcluded raw = true ↔
      (∃ e ∈ (p.explain raw).effective, e.directive.kind = .functionExclude) ∨
      ∃ n, Name.normalize raw = .ok n ∧ ∃ d, p.ruleset.Wins (some p.config.platform) d ∧
        d.kind = .functionNameExclude ∧
          Text.wildcardMatch d.target.toList n.baseName.toList = true) ∧
    ∀ d, p.ruleset.Wins (some p.config.platform) d → d.kind = .functionNameExclude →
      (⟨d, .effective⟩ ∈ (p.explain raw).effective ↔
        ∃ n, Name.normalize raw = .ok n ∧
          d.InForce (some p.config.platform) .functionNameExclude n) := by
  refine ⟨?_, ?_, fun d hwins hkind => hkind ▸ h.mem_effective_of_wins hwins⟩
  · unfold isClassExcluded excludes
    cases hn : Name.normalize raw with
    | ok n => exact h.isExcluded_iff_effective hn rfl
    | error e => simp [h.mem_effective, hn]
  · cases hn : Name.normalize raw with
    | ok n =>
      rw [h.isFunctionExcluded_iff hn, ← h.isExcluded_iff rfl, h.isExcluded_iff_effective hn rfl]
      simp
    | error e => simp [isFunctionExcluded, h.mem_effective, hn]

/-- A class that is excluded by name, a function that is excluded in all scopes, and one for which
the directive is listed. -/
theorem exclusions_explained_dump : ∃ p,
    Config.resolveText {} "rules" "-class Foo\n-function* Dump\n" {} = .ok p ∧
      (∃ e ∈ (p.explain "Foo").effective, e.directive.kind = .classExclude) ∧
      p.isFunctionExcluded "Foo::Dump" = true ∧
      ∃ d, d.kind = .functionNameExclude ∧ ⟨d, .effective⟩ ∈ (p.explain "::Dump").effective := by
  have hname : Name.normalize "Foo::Dump" =
      .ok (.path ⟨[.exact "Foo", .exact "Dump"], none⟩) := by decide +kernel
  have hroot : Name.normalize "::Dump" = .ok (.path ⟨[.exact "Dump"], none⟩) := by decide +kernel
  have hok : (Config.resolveText {} "rules" "-class Foo\n-function* Dump\n" {}).toOption.any
      (fun p => p.isClassExcluded "Foo" = true ∧
        ∃ d ∈ p.ruleset.directives, p.ruleset.Wins (some p.config.platform) d ∧
          d.kind = .functionNameExclude ∧
          Text.wildcardMatch d.target.toList "Dump".toList = true ∧
          d.toStatement.concerns .functionNameExclude (.path ⟨[.exact "Dump"], none⟩) = true) =
        true := by
    decide +kernel
  cases hp : Config.resolveText {} "rules" "-class Foo\n-function* Dump\n" {} with
  | error e =>
    rw [hp] at hok
    cases hok
  | ok p =>
    rw [hp] at hok
    obtain ⟨hclass, d, -, hwins, hkind, hmatch, habout⟩ := of_decide_eq_true hok
    have hresolved : p.IsResolved := isResolved_of_resolve (.inl ⟨_, _, hp⟩)
    obtain ⟨hclasses, -, -⟩ := exclusions_explained p hresolved "Foo"
    obtain ⟨-, hfunctions, -⟩ := exclusions_explained p hresolved "Foo::Dump"
    obtain ⟨-, -, hlisted⟩ := exclusions_explained p hresolved "::Dump"
    have hforce := (Directive.inForce_iff_concerns hwins.1).2 (hkind ▸ habout)
    exact ⟨p, rfl, hclasses.1 hclass, hfunctions.2 (.inr ⟨_, hname, d, hwins, hkind, hmatch⟩),
      d, hkind, (hlisted d hwins hkind).2 ⟨_, hroot, hkind ▸ hforce⟩⟩

/-- **A function that is excluded without a directive being listed**: its last identifier matches
the target of a directive, and the target is not about the whole name. -/
theorem function_excluded_unexplained :
    (Config.resolveText {} "rules" "-function* Dump\n" {}).map (fun p =>
        (p.isFunctionExcluded "Foo::Dump", (p.explain "Foo::Dump").directives,
          p.describe "Foo::Dump")) =
      .ok (true, [], "Foo::Dump (module Foo)\n  no directives\n  function excluded\n") := by
  decide +kernel

end Policy

end BindingRules
