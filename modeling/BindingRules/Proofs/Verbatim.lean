import BindingRules.Proofs.LineIdentity
import BindingRules.Proofs.Rows

set_option relaxedAutoImplicit false
set_option autoImplicit false

/-!
# Sources as they were read

A ruleset keeps every line with its ending, whatever the line holds. So each source that was added
can be written out again character by character, and a source that was refused half way leaves
nothing behind that could be written out.

## Main definitions

* `RulesetReader.accepted` — the sources that are added when they come one after the other.
* `RuleSource.written` — a source by its name and its text.

## Main results

* `flatMap_chars_readLines` — lines have the characters of the rows that they were read from.
* `RulesetReader.map_written_addSources` — the sources of a ruleset are those that were added.
* `RulesetReader.render_addSources` — a ruleset is written out as it was read.
-/

namespace BindingRules

variable {mode : RuleMode} {name text : String} {number order : Nat}
  {rows : List (List Char × LineEnding)} {lines : List RuleLine} {m : MalformedLine}
  {reader reader' : RulesetReader}

/-! ## Lines -/

/-- **Lines have the characters of their rows**, whatever the rows state. -/
lemma flatMap_chars_readLines (h : (readLines mode name number order rows).lines = .ok lines) :
    lines.flatMap RuleLine.chars = joinRows rows := by
  induction rows generalizing number order lines with
  | nil =>
    obtain rfl := Except.ok.inj h
    rfl
  | cons row rows ih =>
    obtain ⟨raw, ending⟩ := row
    -- each class of rows gives a line with the characters of the row
    have hcons : ∀ {l : RuleLine} {number order : Nat}, l.chars = raw ++ ending.chars →
        ((readLines mode name number order rows).cons l).lines = .ok lines →
          lines.flatMap RuleLine.chars = joinRows ((raw, ending) :: rows) := by
      intro l number order hl h
      obtain ⟨rest, hrest, rfl⟩ := SourceReading.lines_cons.1 h
      rw [List.flatMap_cons, hl, ih hrest, joinRows, joinRows, List.flatMap_cons]
    rw [readLines] at h
    cases hclass : classify raw with
    | blank | remark | statement =>
      simp only [hclass] at h
      exact hcons (by simp [RuleLine.chars]) h
    | malformed reason =>
      simp only [hclass] at h
      cases mode with
      | strict => cases h
      | permissive => exact hcons (by simp [RuleLine.chars]) h

/-- A source with the lines of a text is written out as the text. -/
lemma render_readLines
    (h : (readLines mode name number order (splitLines text.toList)).lines = .ok lines) :
    RuleSource.render ⟨name, lines⟩ = text := by
  rw [RuleSource.render, flatMap_chars_readLines h, joinRows_splitLines, String.ofList_toList]

/-- A text is read, or the first malformed line stops the reading; under permissive settings none
does. -/
lemma lines_readLines_eq_error_iff (mode : RuleMode) (name text : String) (order : Nat) :
    (∃ m, (readLines mode name 1 order (splitLines text.toList)).lines = .error m) ↔
      mode = .strict ∧ malformedLines name text ≠ [] := by
  obtain ⟨lines, hlines⟩ := exists_readLines_permissive name 1 order (splitLines text.toList)
  cases mode with
  | permissive => simp [hlines]
  | strict =>
    rw [readLines_strict, malformedLines]
    cases malformedRows name 1 (splitLines text.toList) <;> simp [hlines]

/-! ## Sources -/

/-- A source by its name and the text as which it is written out. -/
def RuleSource.written (s : RuleSource) : String × String := (s.name, s.render)

namespace Ruleset

/-- A ruleset is written out as the texts of its sources, one behind the other. -/
lemma render_eq_join (r : Ruleset) :
    r.render = String.join ((r.sources.map RuleSource.written).map Prod.snd) := by
  rw [render, List.map_map]
  rfl

/-- A source is written out as the first text under its name. -/
lemma renderSource?_eq_find? (r : Ruleset) (name : String) : r.renderSource? name =
    ((r.sources.map RuleSource.written).find? (·.1 == name)).map Prod.snd := by
  rw [renderSource?, List.find?_map, Option.map_map]
  rfl

end Ruleset

namespace RulesetReader

/-- The sources of a list, given by their names and texts, that are added when they are read one
after the other. -/
def accepted (reader : RulesetReader) : List (String × String) → List (String × String)
  | [] => []
  | source :: sources =>
    match reader.addSource source.1 source.2 with
    | (reader, none) => source :: reader.accepted sources
    | (reader, some _) => reader.accepted sources

/-- A source that is added stands behind the others, and is written out as its text. -/
lemma map_written_addSource (h : reader.addSource name text = (reader', none)) :
    reader'.ruleset.sources.map RuleSource.written =
      reader.ruleset.sources.map RuleSource.written ++ [(name, text)] := by
  simp only [addSource] at h
  split at h
  · next lines hlines =>
    obtain rfl := (Prod.mk.inj h).1
    simp [RuleSource.written, render_readLines hlines]
  · cases (Prod.mk.inj h).2

/-- A source that is refused leaves the ruleset as it was. -/
lemma ruleset_addSource (h : reader.addSource name text = (reader', some m)) :
    reader'.ruleset = reader.ruleset := by
  simp only [addSource] at h
  split at h
  · cases (Prod.mk.inj h).2
  · obtain rfl := (Prod.mk.inj h).1
    rfl

/-- Malformed lines are handled alike throughout. -/
lemma mode_addSource (reader : RulesetReader) (name text : String) :
    (reader.addSource name text).1.mode = reader.mode := by
  simp only [addSource]
  split <;> rfl

/-- **The sources of a ruleset** are those that it had and those that were added, in the order in
which they came. -/
lemma map_written_addSources (reader : RulesetReader) (sources : List (String × String)) :
    (reader.addSources sources).ruleset.sources.map RuleSource.written =
      reader.ruleset.sources.map RuleSource.written ++ reader.accepted sources := by
  induction sources generalizing reader with
  | nil => simp [addSources, accepted]
  | cons source sources ih =>
    obtain ⟨name, text⟩ := source
    rw [addSources, List.foldl_cons, ← addSources, accepted]
    cases h : reader.addSource name text with
    | mk reader' refusal =>
      cases refusal with
      | none => simp only [ih, map_written_addSource h, List.append_assoc, List.singleton_append]
      | some m => simp only [ih, ruleset_addSource h]

/-- A source is refused under strict settings if it has a malformed line, and not otherwise. -/
lemma addSource_snd_eq_none (reader : RulesetReader) (name text : String) :
    (reader.addSource name text).2 = none ↔
      reader.mode = .permissive ∨ malformedLines name text = [] := by
  have herror := lines_readLines_eq_error_iff reader.mode name text reader.nextOrder
  have hresult : (reader.addSource name text).2 = none ↔
      ¬ ∃ m, (readLines reader.mode name 1 reader.nextOrder (splitLines text.toList)).lines =
        .error m := by
    simp only [addSource]
    split
    · next lines hlines => simp [hlines]
    · next m hlines => simp [hlines]
  rw [hresult, herror]
  cases reader.mode <;> simp

/-- **Which sources are added**: under permissive settings all of them, and under strict settings
those that have no malformed line. -/
lemma accepted_eq_filter (reader : RulesetReader) (sources : List (String × String)) :
    reader.accepted sources = sources.filter fun source =>
      reader.mode == .permissive || (malformedLines source.1 source.2).isEmpty := by
  induction sources generalizing reader with
  | nil => rfl
  | cons source sources ih =>
    have hiff := reader.addSource_snd_eq_none source.1 source.2
    have hmode := reader.mode_addSource source.1 source.2
    rw [accepted]
    cases h : reader.addSource source.1 source.2 with
    | mk reader' refusal =>
      rw [h] at hiff hmode
      have hrest := hmode ▸ ih reader'
      cases refusal with
      | none => rw [List.filter_cons_of_pos (by simpa using hiff), ← hrest]
      | some m => rw [List.filter_cons_of_neg (by simpa using hiff), ← hrest]

/-- **A ruleset is written out as it was read.** Whatever sources are read, one after the other and
in either mode, the ruleset is written out as the texts of those that were added, one behind the
other, and under a name it is written out as the text of the first one of these with that name.
Under permissive settings all sources are added, and under strict settings those that have no
malformed line. -/
theorem render_addSources (mode : RuleMode) (sources : List (String × String)) :
    let reader : RulesetReader := { mode }
    let r := (reader.addSources sources).ruleset
    r.render = String.join ((reader.accepted sources).map Prod.snd) ∧
    (∀ name, r.renderSource? name =
      ((reader.accepted sources).find? (·.1 == name)).map Prod.snd) ∧
    reader.accepted sources =
      match mode with
      | .permissive => sources
      | .strict => sources.filter fun source => (malformedLines source.1 source.2).isEmpty := by
  intro reader r
  have hsources : r.sources.map RuleSource.written = reader.accepted sources :=
    reader.map_written_addSources sources
  refine ⟨?_, fun name => ?_, ?_⟩
  · rw [r.render_eq_join, hsources]
  · rw [r.renderSource?_eq_find?, hsources]
  · rw [accepted_eq_filter]
    cases mode with
    | permissive => exact List.filter_true sources
    | strict => rfl

end RulesetReader

/-- A strict reader adds the sources around one with a malformed line behind a directive, and keeps
their carriage returns and their last rows. -/
example : (RulesetReader.addSources { mode := .strict }
    [("a", "-class A\r\n\r \t\n# n"), ("b", "-class B\n-frob\n"), ("a", "")]).ruleset.render =
      "-class A\r\n\r \t\n# n" := by decide +kernel

end BindingRules
