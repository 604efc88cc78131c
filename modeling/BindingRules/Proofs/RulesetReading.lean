import BindingRules.Ruleset.Reader
import Mathlib.Data.List.Range

set_option relaxedAutoImplicit false
set_option autoImplicit false

/-!
# What is read from a text

The lines that are read from a text hold the directives that its rows state, numbered one after the
other, and the complaints about the rows that state none. Only the complaints depend on whether the
text is read strictly: then the first of them is all there is.

## Main definitions

* `malformedLines` — the complaints about the rows of a text.
* `activeStatement?` — the statement of a row that is not commented out.
* `ReadsAs` — what the lines read from some rows hold.

## Main results

* `readsAs_readLines` — lines hold what their rows state.
* `readLines_strict` — the reading of malformed rows under strict settings.
* `Ruleset.holdsText_of_ofText`, `Ruleset.ofText_strict` — the same for a whole text.
-/

namespace BindingRules

variable {mode : RuleMode} {name text : String} {number order : Nat} {raw : List Char}
  {ending : LineEnding} {rows : List (List Char × LineEnding)} {l : RuleLine}
  {lines : List RuleLine} {r : Ruleset}

/-- The complaint about a numbered row of a text, if it states no directive. -/
def malformedRow? (name : String) (row : (List Char × LineEnding) × Nat) : Option MalformedLine :=
  match classify row.1.1 with
  | .malformed reason => some ⟨⟨name, row.2⟩, String.ofList row.1.1, reason⟩
  | _ => none

/-- The complaints about the rows of a text, of which the first has the given number. -/
def malformedRows (name : String) (number : Nat) (rows : List (List Char × LineEnding)) :
    List MalformedLine :=
  (rows.zipIdx number).filterMap (malformedRow? name)

/-- The complaints about the lines of a text that are no directives. -/
def malformedLines (name text : String) : List MalformedLine :=
  malformedRows name 1 (splitLines text.toList)

/-- The statement of a row that is a directive and not commented out. -/
def activeStatement? (raw : List Char) : Option Statement :=
  match classify raw with
  | .statement s true => some s
  | _ => none

/-- A row states an active directive if it is classified as one. -/
lemma activeStatement?_eq_some {s : Statement} :
    activeStatement? raw = some s ↔ classify raw = .statement s true := by
  unfold activeStatement?
  split
  · next s' hclass => simp [hclass]
  · next hclass => simpa using hclass s

/-- An active directive is what its row says without the blanks around it. -/
lemma ofLine_of_classify {s : Statement} (h : classify raw = .statement s true) :
    Statement.ofLine (Text.trim raw) = .ok s := by
  unfold classify at h
  split at h
  · cases h
  · -- what is commented out is not active
    simp only [classifyComment] at h
    split at h
    · split at h <;> cases h
    · cases h
  · split at h
    · next s' hline =>
      obtain ⟨rfl, -⟩ := LineClass.statement.inj h
      exact hline
    · cases h

/-- What the lines hold that were read from the rows of a text. -/
structure ReadsAs (name : String) (number order : Nat) (rows : List (List Char × LineEnding))
    (lines : List RuleLine) : Prop where
  /-- The directives have consecutive positions. -/
  orders_eq : (lines.filterMap RuleLine.directive?).map Directive.order =
    List.range' order (lines.filterMap RuleLine.directive?).length
  /-- There are at most as many directives as rows. -/
  length_le : (lines.filterMap RuleLine.directive?).length ≤ rows.length
  /-- The directives that count are those that the rows state. -/
  statements_eq : ((lines.filterMap RuleLine.directive?).filter (·.active)).map
    Directive.toStatement = rows.filterMap fun row => activeStatement? row.1
  /-- The complaints are those about the rows. -/
  malformed_eq : lines.filterMap RuleLine.malformed? = malformedRows name number rows

/-- Lines behind a line that holds no directive are read as they would be without it. -/
lemma ReadsAs.cons (h : ReadsAs name (number + 1) order rows lines) (hnone : l.directive? = none)
    (hstatement : activeStatement? raw = none)
    (hmalformed : l.malformed? = malformedRow? name ((raw, ending), number)) :
    ReadsAs name number order ((raw, ending) :: rows) (l :: lines) where
  orders_eq := by simpa only [List.filterMap_cons_none hnone] using h.orders_eq
  length_le := by
    have := h.length_le
    rw [List.filterMap_cons_none hnone, List.length_cons]
    omega
  statements_eq := by
    rw [List.filterMap_cons_none hnone, List.filterMap_cons_none (by exact hstatement)]
    exact h.statements_eq
  malformed_eq := by
    rw [malformedRows, List.zipIdx_cons, List.filterMap_cons, List.filterMap_cons, hmalformed,
      h.malformed_eq]
    rfl

/-- Lines behind a directive begin at the next position. -/
lemma ReadsAs.cons_directive {d : Directive}
    (h : ReadsAs name (number + 1) (order + 1) rows lines) (hd : l.directive? = some d)
    (horder : d.order = order) (hmalformed : l.malformed? = none)
    (hclass : classify raw = .statement d.toStatement d.active) :
    ReadsAs name number order ((raw, ending) :: rows) (l :: lines) where
  orders_eq := by
    rw [List.filterMap_cons_some hd, List.map_cons, h.orders_eq, horder, List.length_cons,
      List.range'_succ]
  length_le := by
    have := h.length_le
    rw [List.filterMap_cons_some hd, List.length_cons, List.length_cons]
    omega
  statements_eq := by
    rw [List.filterMap_cons_some hd, List.filterMap_cons, activeStatement?, hclass,
      List.filter_cons, ← h.statements_eq]
    cases d.active <;> rfl
  malformed_eq := by
    have hrow : malformedRow? name ((raw, ending), number) = none := by
      simp [malformedRow?, hclass]
    rw [malformedRows, List.zipIdx_cons, List.filterMap_cons_none hmalformed,
      List.filterMap_cons_none hrow, h.malformed_eq]
    rfl

/-- A line is read in front of the lines behind it, if those are read. -/
lemma SourceReading.lines_cons {reading : SourceReading} :
    (reading.cons l).lines = .ok lines ↔ ∃ rest, reading.lines = .ok rest ∧ l :: rest = lines := by
  cases h : reading.lines <;> simp [SourceReading.cons, h, Except.map]

/-- **Lines hold what their rows state**, if they are read at all. -/
lemma readsAs_readLines (h : (readLines mode name number order rows).lines = .ok lines) :
    ReadsAs name number order rows lines := by
  induction rows generalizing number order lines with
  | nil =>
    obtain rfl := Except.ok.inj h
    exact ⟨rfl, Nat.le_refl _, rfl, rfl⟩
  | cons row rows ih =>
    obtain ⟨raw, ending⟩ := row
    simp only [readLines] at h
    split at h
    · next hclass =>
      obtain ⟨rest, hrest, rfl⟩ := SourceReading.lines_cons.1 h
      exact (ih hrest).cons rfl (by simp [activeStatement?, hclass])
        (by simp [malformedRow?, hclass, RuleLine.malformed?])
    · next hclass =>
      obtain ⟨rest, hrest, rfl⟩ := SourceReading.lines_cons.1 h
      exact (ih hrest).cons rfl (by simp [activeStatement?, hclass])
        (by simp [malformedRow?, hclass, RuleLine.malformed?])
    · next s active hclass =>
      obtain ⟨rest, hrest, rfl⟩ := SourceReading.lines_cons.1 h
      exact (ih hrest).cons_directive rfl rfl rfl hclass
    · next reason hclass =>
      cases mode with
      | strict => cases h
      | permissive =>
        obtain ⟨rest, hrest, rfl⟩ := SourceReading.lines_cons.1 h
        exact (ih hrest).cons rfl (by simp [activeStatement?, hclass])
          (by simp [malformedRow?, hclass, RuleLine.malformed?])

/-- Positions only go up, even where a malformed line stops the reading. -/
lemma le_nextOrder_readLines (mode : RuleMode) (name : String) (number order : Nat)
    (rows : List (List Char × LineEnding)) :
    order ≤ (readLines mode name number order rows).nextOrder := by
  induction rows generalizing number order with
  | nil => exact Nat.le_refl _
  | cons row rows ih =>
    obtain ⟨raw, ending⟩ := row
    rw [readLines]
    split
    · exact ih _ _
    · exact ih _ _
    · exact Nat.le_trans (Nat.le_succ _) (ih _ _)
    · cases mode with
      | strict => exact Nat.le_refl _
      | permissive => exact ih _ _

/-- Lines that are read take a position for each directive. -/
lemma nextOrder_readLines (h : (readLines mode name number order rows).lines = .ok lines) :
    (readLines mode name number order rows).nextOrder =
      order + (lines.filterMap RuleLine.directive?).length := by
  induction rows generalizing number order lines with
  | nil =>
    obtain rfl := Except.ok.inj h
    rfl
  | cons row rows ih =>
    obtain ⟨raw, ending⟩ := row
    rw [readLines] at h ⊢
    cases hclass : classify raw with
    | blank | remark =>
      simp only [hclass] at h ⊢
      obtain ⟨rest, hrest, rfl⟩ := SourceReading.lines_cons.1 h
      rw [List.filterMap_cons_none (by rfl)]
      exact ih hrest
    | statement s active =>
      simp only [hclass] at h ⊢
      obtain ⟨rest, hrest, rfl⟩ := SourceReading.lines_cons.1 h
      refine (ih hrest).trans ?_
      simp only [List.filterMap_cons, RuleLine.directive?, List.length_cons]
      omega
    | malformed reason =>
      simp only [hclass] at h ⊢
      cases mode with
      | strict => cases h
      | permissive =>
        obtain ⟨rest, hrest, rfl⟩ := SourceReading.lines_cons.1 h
        rw [List.filterMap_cons_none (by rfl)]
        exact ih hrest

/-- What is read of a line that is not malformed goes before the lines behind it. -/
lemma readLines_cons_of_ne (hclass : ∀ reason, classify raw ≠ .malformed reason) (name : String)
    (number order : Nat) (ending : LineEnding) (rows : List (List Char × LineEnding)) :
    ∃ l order', ∀ mode, readLines mode name number order ((raw, ending) :: rows) =
      (readLines mode name (number + 1) order' rows).cons l := by
  simp only [readLines]
  split
  · exact ⟨_, _, fun _ => rfl⟩
  · exact ⟨_, _, fun _ => rfl⟩
  · exact ⟨_, _, fun _ => rfl⟩
  · next reason h => exact absurd h (hclass reason)

/-- What is read of a line under permissive settings goes before the lines behind it, and has the
number of the line. -/
lemma exists_readLines_cons (name : String) (number order : Nat) (row : List Char × LineEnding) :
    ∃ l order', (∀ d, l.directive? = some d → d.location = ⟨name, number⟩) ∧
      ∀ rows, readLines .permissive name number order (row :: rows) =
        (readLines .permissive name (number + 1) order' rows).cons l := by
  obtain ⟨raw, ending⟩ := row
  simp only [readLines]
  split
  · exact ⟨_, _, by simp [RuleLine.directive?], fun _ => rfl⟩
  · exact ⟨_, _, by simp [RuleLine.directive?], fun _ => rfl⟩
  · exact ⟨_, _, by simp [RuleLine.directive?], fun _ => rfl⟩
  · exact ⟨_, _, by simp [RuleLine.directive?], fun _ => rfl⟩

/-- Nothing stops the permissive reading. -/
lemma exists_readLines_permissive (name : String) (number order : Nat)
    (rows : List (List Char × LineEnding)) :
    ∃ lines, (readLines .permissive name number order rows).lines = .ok lines := by
  induction rows generalizing number order with
  | nil => exact ⟨[], rfl⟩
  | cons row rows ih =>
    obtain ⟨l, order', -, hcons⟩ := exists_readLines_cons name number order row
    obtain ⟨rest, hrest⟩ := ih (number + 1) order'
    rw [hcons]
    exact ⟨_, SourceReading.lines_cons.2 ⟨rest, hrest, rfl⟩⟩

/-- Further rows do not change what was read of the rows in front of them. -/
lemma exists_readLines_append
    (h : (readLines .permissive name number order rows).lines = .ok lines)
    (more : List (List Char × LineEnding)) :
    ∃ rest,
      (readLines .permissive name number order (rows ++ more)).lines = .ok (lines ++ rest) := by
  induction rows generalizing number order lines with
  | nil =>
    obtain rfl := Except.ok.inj h
    exact exists_readLines_permissive name number order more
  | cons row rows ih =>
    obtain ⟨l, order', -, hcons⟩ := exists_readLines_cons name number order row
    rw [hcons] at h
    obtain ⟨tail, htail, rfl⟩ := SourceReading.lines_cons.1 h
    obtain ⟨rest, hrest⟩ := ih htail
    rw [List.cons_append, hcons]
    exact ⟨rest, SourceReading.lines_cons.2 ⟨_, hrest, rfl⟩⟩

/-- **A strict reading stops at the first malformed row**, and is the permissive one if there is
none. -/
lemma readLines_strict (name : String) (number order : Nat)
    (rows : List (List Char × LineEnding)) :
    (readLines .strict name number order rows).lines =
      match malformedRows name number rows with
      | [] => (readLines .permissive name number order rows).lines
      | m :: _ => .error m := by
  induction rows generalizing number order with
  | nil => rfl
  | cons row rows ih =>
    obtain ⟨raw, ending⟩ := row
    by_cases hclass : ∃ reason, classify raw = .malformed reason
    · obtain ⟨reason, hclass⟩ := hclass
      have hrow : malformedRow? name ((raw, ending), number) =
          some ⟨⟨name, number⟩, String.ofList raw, reason⟩ := by simp [malformedRow?, hclass]
      rw [malformedRows, List.zipIdx_cons, List.filterMap_cons_some hrow]
      simp only [readLines, hclass]
    · have hclass := not_exists.1 hclass
      obtain ⟨l, order', hcons⟩ := readLines_cons_of_ne hclass name number order ending rows
      have hrow : malformedRow? name ((raw, ending), number) = none := by
        unfold malformedRow?
        split
        · next reason h => exact absurd h (hclass reason)
        · rfl
      have hrows : malformedRows name number ((raw, ending) :: rows) =
          malformedRows name (number + 1) rows := by
        rw [malformedRows, List.zipIdx_cons, List.filterMap_cons_none hrow]
        rfl
      rw [hcons, hcons, hrows]
      simp only [SourceReading.cons, ih]
      cases malformedRows name (number + 1) rows <;> rfl

namespace Ruleset

/-- The ruleset of one source has the lines of that source. -/
lemma directives_mk (name : String) (lines : List RuleLine) :
    (⟨[⟨name, lines⟩]⟩ : Ruleset).directives = lines.filterMap RuleLine.directive? := by
  simp [directives, Ruleset.lines]

/-- The complaints of the ruleset of one source are those about its lines. -/
lemma malformed_mk (name : String) (lines : List RuleLine) :
    (⟨[⟨name, lines⟩]⟩ : Ruleset).malformed = lines.filterMap RuleLine.malformed? := by
  simp [malformed, Ruleset.lines]

/-- What a ruleset holds that was read from a text. -/
structure HoldsText (name text : String) (r : Ruleset) : Prop where
  /-- The directives have consecutive positions. -/
  orders_eq : r.directives.map Directive.order = List.range r.directives.length
  /-- There are at most as many directives as rows. -/
  length_le : r.directives.length ≤ (splitLines text.toList).length
  /-- The directives that count are those that the rows state. -/
  statements_eq : r.activeDirectives.map Directive.toStatement =
    (splitLines text.toList).filterMap fun row => activeStatement? row.1
  /-- The complaints are those about the rows. -/
  malformed_eq : r.malformed = malformedLines name text

/-- A text is read if its lines are. -/
lemma ofText_eq (mode : RuleMode) (name text : String) : ofText mode name text =
    match (readLines mode name 1 0 (splitLines text.toList)).lines with
    | .ok lines => .ok ⟨[⟨name, lines⟩]⟩
    | .error m => .error (.malformed m) := by
  simp only [ofText, RulesetReader.addSource]
  cases (readLines mode name 1 0 (splitLines text.toList)).lines <;> rfl

/-- **A ruleset holds what the rows of its text state.** -/
lemma holdsText_of_ofText (h : ofText mode name text = .ok r) : r.HoldsText name text := by
  rw [ofText_eq] at h
  split at h
  · next lines hlines =>
    obtain rfl := Except.ok.inj h
    have hreads := readsAs_readLines hlines
    have hdirectives := directives_mk name lines
    refine ⟨?_, ?_, ?_, (malformed_mk name lines).trans hreads.malformed_eq⟩
    · rw [hdirectives, hreads.orders_eq, List.range_eq_range']
    · rw [hdirectives]
      exact hreads.length_le
    · rw [activeDirectives, hdirectives]
      exact hreads.statements_eq
  · cases h

/-- Under permissive settings every text is read. -/
lemma exists_ofText_permissive (name text : String) :
    ∃ r, ofText .permissive name text = .ok r := by
  obtain ⟨lines, hlines⟩ := exists_readLines_permissive name 1 0 (splitLines text.toList)
  exact ⟨⟨[⟨name, lines⟩]⟩, by rw [ofText_eq, hlines]⟩

/-- Under strict settings a text is read as under permissive ones if it has no malformed row, and
otherwise the first of them is all that is reported. -/
lemma ofText_strict (name text : String) :
    ofText .strict name text =
      match malformedLines name text with
      | [] => ofText .permissive name text
      | m :: _ => .error (.malformed m) := by
  rw [ofText_eq, ofText_eq, readLines_strict, malformedLines]
  cases malformedRows name 1 (splitLines text.toList) <;> rfl

/-- The directives of a text have increasing positions. -/
lemma HoldsText.increasing (h : r.HoldsText name text) :
    r.directives.Pairwise fun d e => d.order < e.order := by
  have := List.pairwise_lt_range (n := r.directives.length)
  rwa [← h.orders_eq, List.pairwise_map] at this

/-- The position of a directive is less than the number of rows. -/
lemma HoldsText.order_lt {d : Directive} (h : r.HoldsText name text) (hd : d ∈ r.directives) :
    d.order < (splitLines text.toList).length := by
  have hmem : d.order ∈ r.directives.map Directive.order := List.mem_map_of_mem hd
  rw [h.orders_eq, List.mem_range] at hmem
  exact Nat.lt_of_lt_of_le hmem h.length_le

end Ruleset

end BindingRules
