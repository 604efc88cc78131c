set_option autoImplicit false

/-!
# Tables

A table holds one value for each of finitely many keys.

## Main definitions

* `Table`, `Table.get?`, `Table.insert` — tables, what they hold for a key, and how they change.
* `Table.values` — all that a table holds.
-/

namespace BindingRules

/-- Values by keys, with one entry for each key. -/
structure Table (κ α : Type) where
  /-- The keys with their values. -/
  entries : List (κ × α)
  /-- Each key has one entry. -/
  nodup_keys : (entries.map Prod.fst).Nodup
  deriving DecidableEq, Repr

namespace Table

variable {κ α : Type}

/-- The table that holds nothing. -/
def empty : Table κ α where
  entries := []
  nodup_keys := List.nodup_nil

/-- All that a table holds. -/
def values (t : Table κ α) : List α := t.entries.map Prod.snd

variable [DecidableEq κ]

/-- What a table holds for a key. -/
def get? (t : Table κ α) (k : κ) : Option α := t.entries.lookup k

/-- Lets a table hold a value for a key, in place of the one it may have held. -/
def insert (t : Table κ α) (k : κ) (a : α) : Table κ α where
  entries := (k, a) :: t.entries.filter (·.1 != k)
  nodup_keys := by
    rw [List.map_cons, List.nodup_cons]
    refine ⟨fun hk => ?_, t.nodup_keys.sublist (List.filter_sublist.map Prod.fst)⟩
    obtain ⟨e, he, hek⟩ := List.mem_map.1 hk
    simp [hek] at he

/-- The empty table holds nothing for any key. -/
@[simp]
theorem get?_empty (k : κ) : (empty : Table κ α).get? k = none := rfl

/-- Without the entries of one key, those of the others are found as before. -/
theorem lookup_filter_ne {k k' : κ} (h : k' ≠ k) (entries : List (κ × α)) :
    (entries.filter (·.1 != k)).lookup k' = entries.lookup k' := by
  induction entries with
  | nil => rfl
  | cons e entries ih =>
    by_cases he : e.1 = k
    · rw [List.filter_cons_of_neg (by simp [he]), ih, List.lookup_cons, he,
        beq_eq_false_iff_ne.2 h]
    · rw [List.filter_cons_of_pos (by simp [he]), List.lookup_cons, List.lookup_cons, ih]

/-- An insertion changes what is held for its key, and nothing else. -/
theorem get?_insert (t : Table κ α) (k k' : κ) (a : α) :
    (t.insert k a).get? k' = if k' = k then some a else t.get? k' := by
  by_cases h : k' = k
  · simp [get?, insert, h]
  · simp only [get?, insert, List.lookup_cons, beq_eq_false_iff_ne.2 h, lookup_filter_ne h, h,
      if_false]

/-- Insertions for several keys change what is held for these keys. -/
theorem get?_foldl_insert (f : κ → α) (ks : List κ) (t : Table κ α) (k : κ) :
    (ks.foldl (fun t k => t.insert k (f k)) t).get? k =
      if k ∈ ks then some (f k) else t.get? k := by
  induction ks generalizing t with
  | nil => simp
  | cons k' ks ih =>
    rw [List.foldl_cons, ih, get?_insert]
    by_cases hks : k ∈ ks
    · simp [hks]
    · by_cases hk : k = k' <;> simp [hks, hk]

/-- The entries of a table are what it holds. -/
theorem mem_entries {t : Table κ α} {k : κ} {a : α} : (k, a) ∈ t.entries ↔ t.get? k = some a := by
  obtain ⟨entries, hnodup⟩ := t
  simp only [get?]
  induction entries with
  | nil => simp
  | cons e entries ih =>
    obtain ⟨hfresh, hnodup⟩ := List.nodup_cons.1 hnodup
    rw [List.mem_cons, List.lookup_cons]
    by_cases hk : k = e.1
    · subst hk
      have hnot : (e.1, a) ∉ entries := fun h => hfresh (List.mem_map.2 ⟨_, h, rfl⟩)
      simp [hnot, Prod.ext_iff, eq_comm]
    · have hne : (k, a) ≠ e := fun h => hk (congrArg Prod.fst h)
      simp [hne, beq_eq_false_iff_ne.2 hk, ih hnodup]

/-- What a table held for a key and what it holds after an insertion for that key are, together,
what it held before and the inserted value. -/
theorem perm_values_insert (t : Table κ α) (k : κ) (a : α) :
    ((t.get? k).toList ++ (t.insert k a).values).Perm (a :: t.values) := by
  obtain ⟨entries, hnodup⟩ := t
  simp only [get?, insert, values, List.map_cons]
  refine List.perm_middle.trans (List.Perm.cons a ?_)
  induction entries with
  | nil => exact List.Perm.refl _
  | cons e entries ih =>
    obtain ⟨hfresh, hnodup⟩ := List.nodup_cons.1 hnodup
    rw [List.lookup_cons]
    by_cases hk : e.1 = k
    · subst hk
      have hall : entries.filter (·.1 != e.1) = entries := by
        refine List.filter_eq_self.2 fun e' he' => bne_iff_ne.2 fun heq => hfresh ?_
        exact List.mem_map.2 ⟨e', he', heq⟩
      simp [hall]
    · rw [List.filter_cons_of_pos (by simpa using hk), beq_eq_false_iff_ne.2 (Ne.symm hk)]
      exact List.perm_middle.trans ((ih hnodup).cons _)

end Table

end BindingRules
