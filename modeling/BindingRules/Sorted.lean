set_option autoImplicit false

/-!
# Sorted lists without repetitions

Sets of modules and edges are kept as lists in increasing order, so that everything computed from
them comes in one order.

## Main definitions

* `StrictTotal` — what a comparison needs so that increasing lists are sets.
* `Increasing` — lists in increasing order.
* `Sorted.insert`, `Sorted.ofList` — sets as increasing lists.
* `leastBy?` — the least element of a list.
* `textLt`, `pairLt` — the orders of texts and of pairs of texts.
-/

namespace BindingRules

/-- What a comparison needs so that increasing lists are sets. -/
structure StrictTotal {α : Type} (lt : α → α → Bool) : Prop where
  /-- Nothing comes before itself. -/
  irrefl : ∀ a, lt a a = false
  /-- What comes before something also comes before all behind that. -/
  trans : ∀ {a b c}, lt a b = true → lt b c = true → lt a c = true
  /-- Of two different elements one comes before the other. -/
  eq_of_not_lt : ∀ {a b}, lt a b = false → lt b a = false → a = b

/-- Of two elements only one comes before the other. -/
theorem StrictTotal.asymm {α : Type} {lt : α → α → Bool} (h : StrictTotal lt) {a b : α}
    (hab : lt a b = true) : lt b a = false := by
  cases hba : lt b a with
  | false => rfl
  | true => simpa [h.irrefl] using h.trans hab hba

/-- What is not behind something is not behind anything that comes later. -/
theorem StrictTotal.not_lt_trans {α : Type} {lt : α → α → Bool} (h : StrictTotal lt) {a b c : α}
    (hab : lt b a = false) (hbc : lt c b = false) : lt c a = false := by
  cases hca : lt c a with
  | false => rfl
  | true =>
    cases hac : lt a b with
    | true => rw [h.trans hca hac] at hbc; exact hbc
    | false => rw [h.eq_of_not_lt hac hab, hbc] at hca; exact hca.symm

/-- A list of which every element comes before all behind it. -/
def Increasing {α : Type} (lt : α → α → Bool) (l : List α) : Prop :=
  l.Pairwise fun a b => lt a b = true

namespace Sorted

variable {α : Type} {lt : α → α → Bool}

/-- Inserts an element into an increasing list, unless it is there already. -/
def insert (lt : α → α → Bool) (a : α) : List α → List α
  | [] => [a]
  | b :: bs =>
    if lt a b then a :: b :: bs
    else if lt b a then b :: insert lt a bs
    else b :: bs

/-- The elements of a list in increasing order, each of them once. -/
def ofList (lt : α → α → Bool) (l : List α) : List α :=
  l.foldl (fun set a => insert lt a set) []

/-- An insertion adds nothing but the inserted element. -/
theorem mem_insert (h : StrictTotal lt) {a x : α} {l : List α} :
    x ∈ insert lt a l ↔ x = a ∨ x ∈ l := by
  induction l with
  | nil => simp [insert]
  | cons b bs ih =>
    rw [insert]
    split
    · simp
    · rename_i hab
      split
      · rw [List.mem_cons, List.mem_cons, ih]
        exact or_left_comm
      · rename_i hba
        have hb : a = b := h.eq_of_not_lt (by simpa using hab) (by simpa using hba)
        simp [hb]

/-- An insertion keeps a list increasing. -/
theorem increasing_insert (h : StrictTotal lt) (a : α) {l : List α} (hl : Increasing lt l) :
    Increasing lt (insert lt a l) := by
  induction l with
  | nil => simp [insert, Increasing]
  | cons b bs ih =>
    obtain ⟨hb, hbs⟩ := List.pairwise_cons.1 hl
    rw [insert]
    split
    · rename_i hab
      refine List.pairwise_cons.2 ⟨fun x hx => ?_, hl⟩
      rcases List.mem_cons.1 hx with rfl | hx
      · exact hab
      · exact h.trans hab (hb x hx)
    · split
      · rename_i hba
        refine List.pairwise_cons.2 ⟨fun x hx => ?_, ih hbs⟩
        rcases (mem_insert h).1 hx with rfl | hx
        · exact hba
        · exact hb x hx
      · exact hl

/-- Insertions one by one add exactly the inserted elements. -/
theorem mem_foldl_insert (h : StrictTotal lt) {x : α} {l set : List α} :
    x ∈ l.foldl (fun set a => insert lt a set) set ↔ x ∈ set ∨ x ∈ l := by
  induction l generalizing set with
  | nil => simp
  | cons a l ih =>
    rw [List.foldl_cons, ih, mem_insert h, List.mem_cons, or_comm (a := x = a), or_assoc]

/-- Insertions one by one keep a list increasing. -/
theorem increasing_foldl_insert (h : StrictTotal lt) (l : List α) {set : List α}
    (hset : Increasing lt set) : Increasing lt (l.foldl (fun set a => insert lt a set) set) := by
  induction l generalizing set with
  | nil => exact hset
  | cons a l ih => exact ih (increasing_insert h a hset)

/-- The set of the elements of a list has these elements. -/
theorem mem_ofList (h : StrictTotal lt) {x : α} {l : List α} : x ∈ ofList lt l ↔ x ∈ l := by
  rw [ofList, mem_foldl_insert h]
  simp

/-- The set of the elements of a list is increasing. -/
theorem increasing_ofList (h : StrictTotal lt) (l : List α) : Increasing lt (ofList lt l) :=
  increasing_foldl_insert h l List.Pairwise.nil

end Sorted

/-- Increasing lists with the same elements are equal. -/
theorem Increasing.eq_of_mem_iff {α : Type} {lt : α → α → Bool} (h : StrictTotal lt)
    {l l' : List α} (hl : Increasing lt l) (hl' : Increasing lt l') (hmem : ∀ x, x ∈ l ↔ x ∈ l') :
    l = l' := by
  have hnot : ∀ {a b}, lt a b = true → lt b a = true → False := fun {a b} hab hba => by
    simp [h.asymm hab] at hba
  induction l generalizing l' with
  | nil => exact (List.eq_nil_iff_forall_not_mem.2 fun x hx => by simpa using (hmem x).2 hx).symm
  | cons a l ih =>
    cases l' with
    | nil => simpa using (hmem a).1 List.mem_cons_self
    | cons b l' =>
      obtain ⟨ha, htail⟩ := List.pairwise_cons.1 hl
      obtain ⟨hb, htail'⟩ := List.pairwise_cons.1 hl'
      have hab : a = b := by
        rcases List.mem_cons.1 ((hmem a).1 List.mem_cons_self) with hab | hal'
        · exact hab
        · rcases List.mem_cons.1 ((hmem b).2 List.mem_cons_self) with hba | hbl
          · exact hba.symm
          · exact (hnot (hb a hal') (ha b hbl)).elim
      subst hab
      refine congrArg (a :: ·) (ih htail htail' fun x => ⟨fun hx => ?_, fun hx => ?_⟩)
      · refine (List.mem_cons.1 ((hmem x).1 (List.mem_cons_of_mem _ hx))).resolve_left fun heq => ?_
        exact hnot (heq ▸ ha x hx) (heq ▸ ha x hx)
      · refine (List.mem_cons.1 ((hmem x).2 (List.mem_cons_of_mem _ hx))).resolve_left fun heq => ?_
        exact hnot (heq ▸ hb x hx) (heq ▸ hb x hx)

/-- An increasing list has no repetitions. -/
theorem Increasing.nodup {α : Type} {lt : α → α → Bool} (h : StrictTotal lt) {l : List α}
    (hl : Increasing lt l) : l.Nodup :=
  hl.imp fun {a b} hab heq => by
    rw [heq, h.irrefl] at hab
    exact Bool.noConfusion hab

/-- The first of the least elements of a list. -/
def leastBy? {α : Type} (lt : α → α → Bool) : List α → Option α
  | [] => none
  | a :: as =>
    match leastBy? lt as with
    | none => some a
    | some b => if lt b a then some b else some a

/-- Only the empty list has no least element. -/
theorem leastBy?_eq_none {α : Type} {lt : α → α → Bool} {l : List α} :
    leastBy? lt l = none ↔ l = [] := by
  cases l with
  | nil => simp [leastBy?]
  | cons a as =>
    rw [leastBy?]
    split
    · simp
    · split <;> simp

/-- The least element of a list is one of its elements. -/
theorem mem_of_leastBy? {α : Type} {lt : α → α → Bool} {l : List α} {a : α}
    (h : leastBy? lt l = some a) : a ∈ l := by
  induction l generalizing a with
  | nil => simp [leastBy?] at h
  | cons b bs ih =>
    rw [leastBy?] at h
    split at h
    · simp_all
    · rename_i c hc
      split at h
      · exact List.mem_cons_of_mem b (Option.some.inj h ▸ ih hc)
      · simp_all

/-- Nothing in a list comes before its least element. -/
theorem not_lt_of_leastBy? {α : Type} {lt : α → α → Bool} (h : StrictTotal lt) {l : List α}
    {a : α} (ha : leastBy? lt l = some a) : ∀ b ∈ l, lt b a = false := by
  induction l generalizing a with
  | nil => exact fun b hb => absurd hb List.not_mem_nil
  | cons x l ih =>
    intro b hb
    rw [leastBy?] at ha
    split at ha
    · rename_i hnone
      obtain rfl := Option.some.inj ha
      rw [leastBy?_eq_none.1 hnone] at hb
      rw [List.mem_singleton.1 hb, h.irrefl]
    · rename_i c hc
      split at ha
      · rename_i hcx
        obtain rfl := Option.some.inj ha
        rcases List.mem_cons.1 hb with rfl | hb
        · exact h.asymm hcx
        · exact ih hc b hb
      · rename_i hcx
        obtain rfl := Option.some.inj ha
        rcases List.mem_cons.1 hb with rfl | hb
        · exact h.irrefl b
        · exact h.not_lt_trans (by simpa using hcx) (ih hc b hb)

/-- The least element of a list is the one before which none of the others comes. -/
theorem leastBy?_eq_some_iff {α : Type} {lt : α → α → Bool} (h : StrictTotal lt) {l : List α}
    {a : α} : leastBy? lt l = some a ↔ a ∈ l ∧ ∀ b ∈ l, lt b a = false := by
  refine ⟨fun ha => ⟨mem_of_leastBy? ha, not_lt_of_leastBy? h ha⟩, fun ⟨hmem, hleast⟩ => ?_⟩
  cases hb : leastBy? lt l with
  | none => exact absurd hmem (leastBy?_eq_none.1 hb ▸ List.not_mem_nil)
  | some b =>
    rw [h.eq_of_not_lt (not_lt_of_leastBy? h hb a hmem) (hleast b (mem_of_leastBy? hb))]

/-- The least element depends on how the elements of the list compare. -/
theorem leastBy?_congr {α : Type} {lt lt' : α → α → Bool} {l : List α}
    (h : ∀ a ∈ l, ∀ b ∈ l, lt a b = lt' a b) : leastBy? lt l = leastBy? lt' l := by
  induction l with
  | nil => rfl
  | cons a l ih =>
    have hrest := ih fun b hb c hc => h b (List.mem_cons_of_mem _ hb) c (List.mem_cons_of_mem _ hc)
    rw [leastBy?, leastBy?, hrest]
    split
    · rfl
    · next b hb =>
      rw [h b (List.mem_cons_of_mem _ (mem_of_leastBy? hb)) a List.mem_cons_self]

/-- The order of texts, as a truth value. -/
def textLt (a b : String) : Bool := decide (a < b)

/-- The order of texts is strict and total. -/
theorem strictTotal_textLt : StrictTotal textLt where
  irrefl a := by simp [textLt]
  trans hab hbc := by
    simp only [textLt, decide_eq_true_eq] at *
    exact String.lt_trans hab hbc
  eq_of_not_lt hab hba := by
    simp only [textLt, decide_eq_false_iff_not, String.not_lt] at *
    exact String.le_antisymm hba hab

/-- The order of pairs of texts: by the first one, then by the second one. -/
def pairLt (a b : String × String) : Bool :=
  textLt a.1 b.1 || (a.1 == b.1 && textLt a.2 b.2)

/-- The order of pairs of texts is strict and total. -/
theorem strictTotal_pairLt : StrictTotal pairLt where
  irrefl a := by simp [pairLt, strictTotal_textLt.irrefl]
  trans {a b c} hab hbc := by
    simp only [pairLt, Bool.or_eq_true, Bool.and_eq_true, beq_iff_eq] at *
    rcases hab with hab | ⟨hs, hab⟩ <;> rcases hbc with hbc | ⟨ht, hbc⟩
    · exact .inl (strictTotal_textLt.trans hab hbc)
    · exact .inl (ht ▸ hab)
    · exact .inl (hs ▸ hbc)
    · exact .inr ⟨hs.trans ht, strictTotal_textLt.trans hab hbc⟩
  eq_of_not_lt {a b} hab hba := by
    simp only [pairLt, Bool.or_eq_false_iff, Bool.and_eq_false_iff] at hab hba
    have hs : a.1 = b.1 := strictTotal_textLt.eq_of_not_lt hab.1 hba.1
    have ht : a.2 = b.2 :=
      strictTotal_textLt.eq_of_not_lt (hab.2.resolve_left (by simp [hs]))
        (hba.2.resolve_left (by simp [hs]))
    exact Prod.ext hs ht

/-- The order of lists by their first difference is strict and total if that of their elements
is. -/
theorem StrictTotal.lex {α : Type} [BEq α] [LawfulBEq α] {lt : α → α → Bool} (h : StrictTotal lt) :
    StrictTotal fun a b : List α => a.lex b lt where
  irrefl a := by
    induction a with
    | nil => rfl
    | cons x a ih => simp [List.lex, h.irrefl, ih]
  trans {a b c} hab hbc := by
    induction b generalizing a c with
    | nil => simp at hab
    | cons y b ih =>
      cases c with
      | nil => simp at hbc
      | cons z c =>
        cases a with
        | nil => rfl
        | cons x a =>
          simp only [List.lex, Bool.or_eq_true, Bool.and_eq_true, beq_iff_eq] at *
          rcases hab with hab | ⟨rfl, hab⟩ <;> rcases hbc with hbc | ⟨rfl, hbc⟩
          · exact .inl (h.trans hab hbc)
          · exact .inl hab
          · exact .inl hbc
          · exact .inr ⟨rfl, ih hab hbc⟩
  eq_of_not_lt {a b} hab hba := by
    induction a generalizing b with
    | nil =>
      cases b with
      | nil => rfl
      | cons y b => simp at hab
    | cons x a ih =>
      cases b with
      | nil => simp at hba
      | cons y b =>
        simp only [List.lex, Bool.or_eq_false_iff, Bool.and_eq_false_iff] at hab hba
        obtain rfl : x = y := h.eq_of_not_lt hab.1 hba.1
        rw [ih (hab.2.resolve_left (by simp)) (hba.2.resolve_left (by simp))]

end BindingRules
