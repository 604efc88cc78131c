import BindingRules.Proofs.StoreAnswers

set_option relaxedAutoImplicit false
set_option autoImplicit false

/-!
# Scanning the tables by kind

The entries of a table come in the order of their keys, by kind and then by text. So those of one
kind stand together, and a scan finds all of them that begins at the least key of the kind and ends
at the first key of another one. The live directives of a kind can be listed in this way.

## Main definitions

* `keyLt`, `Table.inKeyOrder` — the order of the keys, and the entries of a table in it.
* `scanKind`, `Store.scannedOf` — a scan for the entries of a kind.

## Main results

* `scanKind_eq_filter` — the scan finds the entries of the kind.
* `Store.Reflects.directivesOf_eq_sort_scannedOf` — the live directives of a kind by a scan.
-/

namespace BindingRules

variable {α : Type} {platform : Option String} {kind : DirectiveKind} {before : List Directive}
  {s : Store}

/-! ## The order of the keys -/

/-- All kinds are listed. -/
lemma DirectiveKind.mem_all (kind : DirectiveKind) : kind ∈ DirectiveKind.all := by
  cases kind <;> decide

/-- The place of a kind among all kinds. -/
def DirectiveKind.rank (kind : DirectiveKind) : Nat := DirectiveKind.all.idxOf kind

/-- Different kinds have different places. -/
lemma DirectiveKind.rank_inj {kind kind' : DirectiveKind} :
    kind.rank = kind'.rank ↔ kind = kind' :=
  List.idxOf_inj kind.mem_all

/-- The order of the keys: by kind, then by text. -/
def keyLt (a b : DirectiveKind × String) : Bool :=
  decide (a.1.rank < b.1.rank) || (a.1 == b.1 && textLt a.2 b.2)

/-- The order of the keys is strict and total. -/
lemma strictTotal_keyLt : StrictTotal keyLt where
  irrefl a := by simp [keyLt, strictTotal_textLt.irrefl]
  trans {a b c} hab hbc := by
    simp only [keyLt, Bool.or_eq_true, Bool.and_eq_true, beq_iff_eq, decide_eq_true_eq] at *
    rcases hab with hab | ⟨hs, hab⟩ <;> rcases hbc with hbc | ⟨ht, hbc⟩
    · exact .inl (Nat.lt_trans hab hbc)
    · exact .inl (ht ▸ hab)
    · exact .inl (hs ▸ hbc)
    · exact .inr ⟨hs.trans ht, strictTotal_textLt.trans hab hbc⟩
  eq_of_not_lt {a b} hab hba := by
    simp only [keyLt, Bool.or_eq_false_iff, Bool.and_eq_false_iff, decide_eq_false_iff_not] at *
    have hs : a.1 = b.1 := DirectiveKind.rank_inj.1 (by omega)
    have ht : a.2 = b.2 :=
      strictTotal_textLt.eq_of_not_lt (hab.2.resolve_left (by simp [hs]))
        (hba.2.resolve_left (by simp [hs]))
    exact Prod.ext hs ht

/-- The least key of a kind has the empty text: what comes before it belongs to a kind before. -/
lemma keyLt_empty (a : DirectiveKind × String) :
    keyLt a (kind, "") = decide (a.1.rank < kind.rank) := by
  have hempty : textLt a.2 "" = false := decide_eq_false (List.not_lt_nil a.2.toList)
  simp [keyLt, hempty]

/-- The entries of a table in the order of their keys. -/
def Table.inKeyOrder (t : Table (DirectiveKind × String) α) :
    List ((DirectiveKind × String) × α) :=
  t.entries.mergeSort fun a b => !keyLt b.1 a.1

/-- The entries come in the order of their kinds. -/
lemma Table.pairwise_inKeyOrder (t : Table (DirectiveKind × String) α) :
    t.inKeyOrder.Pairwise fun a b => a.1.1.rank ≤ b.1.1.rank := by
  refine (List.pairwise_mergeSort (fun a b c hab hbc => ?_) (fun a b => ?_) t.entries).imp ?_
  · rw [Bool.not_eq_true'] at *
    exact strictTotal_keyLt.not_lt_trans hab hbc
  · cases hba : keyLt b.1 a.1 with
    | false => rfl
    | true => simp [strictTotal_keyLt.asymm hba]
  · intro a b hab
    simp only [keyLt, Bool.not_eq_true', Bool.or_eq_false_iff, decide_eq_false_iff_not] at hab
    omega

/-! ## The scan -/

/-- The entries that a scan finds for a kind: it begins at the least key of the kind, and ends at
the first key of another kind. -/
def scanKind (kind : DirectiveKind) (entries : List ((DirectiveKind × String) × α)) :
    List ((DirectiveKind × String) × α) :=
  (entries.dropWhile fun e => keyLt e.1 (kind, "")).takeWhile (·.1.1 == kind)

/-- **The scan finds the entries of the kind.**

**Proof sketch.** Entries of a kind before it are passed over. From the first other one on, all
those of the kind come first, since none of a kind before it can follow. -/
lemma scanKind_eq_filter {entries : List ((DirectiveKind × String) × α)}
    (h : entries.Pairwise fun a b => a.1.1.rank ≤ b.1.1.rank) :
    scanKind kind entries = entries.filter (·.1.1 == kind) := by
  simp only [scanKind, keyLt_empty]
  induction entries with
  | nil => rfl
  | cons e entries ih =>
    obtain ⟨he, hentries⟩ := List.pairwise_cons.1 h
    by_cases hbefore : e.1.1.rank < kind.rank
    · have hne : (e.1.1 == kind) = false :=
        beq_eq_false_iff_ne.2 fun heq => by simp [heq] at hbefore
      rw [List.dropWhile_cons_of_pos (by simpa using hbefore), ih hentries,
        List.filter_cons_of_neg (by simp [hne])]
    · rw [List.dropWhile_cons_of_neg (by simpa using hbefore)]
      by_cases hkind : e.1.1 = kind
      · have hstart : entries.dropWhile (fun e => decide (e.1.1.rank < kind.rank)) = entries := by
          cases entries with
          | nil => rfl
          | cons f entries =>
            have hle := he f List.mem_cons_self
            exact List.dropWhile_cons_of_neg (by rw [decide_eq_true_eq]; omega)
        have hrest := ih hentries
        rw [hstart] at hrest
        rw [List.takeWhile_cons_of_pos (by simpa using hkind), hrest,
          List.filter_cons_of_pos (by simpa using hkind)]
      · have hne : e.1.1.rank ≠ kind.rank := fun heq => hkind (DirectiveKind.rank_inj.1 heq)
        rw [List.takeWhile_cons_of_neg (by simpa using hkind)]
        refine (List.filter_eq_nil_iff.2 fun f hf hfkind => ?_).symm
        rcases List.mem_cons.1 hf with rfl | hf
        · exact hkind (eq_of_beq hfkind)
        · have hle := he f hf
          rw [eq_of_beq hfkind] at hle
          omega

/-- A scan of a table finds its entries of the kind. -/
lemma Table.scanKind_perm (t : Table (DirectiveKind × String) α) (kind : DirectiveKind) :
    (scanKind kind t.inKeyOrder).Perm (t.entries.filter (·.1.1 == kind)) := by
  rw [scanKind_eq_filter t.pairwise_inKeyOrder]
  exact (List.mergeSort_perm t.entries _).filter _

namespace Store

/-- The live directives of a kind that are looked up by a key, as a scan of their table finds
them. -/
def scannedOf (s : Store) (kind : DirectiveKind) : List Directive :=
  match kind.resolution with
  | .exclusive => (scanKind kind s.exclusive.inKeyOrder).map (·.2)
  | .accumulating => (scanKind kind s.accumulating.inKeyOrder).flatMap (·.2)

/-- The scan finds the live directives of the kind that are looked up by a key. -/
lemma scannedOf_perm (s : Store) (kind : DirectiveKind) :
    (s.scannedOf kind).Perm (s.keyedOf kind) := by
  unfold scannedOf keyedOf
  cases kind.resolution with
  | exclusive => exact (s.exclusive.scanKind_perm kind).map _
  | accumulating => exact (s.accumulating.scanKind_perm kind).flatMap_right _

/-- **The live directives of a kind** are those that a scan finds and those with wildcards, in the
order of their positions. -/
lemma Reflects.directivesOf_eq_sort_scannedOf (hs : s.Reflects platform before)
    (kind : DirectiveKind) :
    s.directivesOf kind = Directive.sort (s.scannedOf kind ++ s.patternsOf kind) := by
  have hincreasing : (s.directivesOf kind).Pairwise fun d e => d.order < e.order := by
    rw [hs.directivesOf_eq]
    exact ((hs.increasing.filter _).sublist (standing_sublist _)).filter _
  refine (Directive.eq_of_perm hincreasing (Directive.pairwise_sort _) ?_).symm
  rw [directivesOf_eq_sort]
  exact (List.mergeSort_perm _ _).trans
    (((s.scannedOf_perm kind).append_right _).trans (List.mergeSort_perm _ _).symm)

end Store

end BindingRules
