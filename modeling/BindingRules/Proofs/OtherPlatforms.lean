import BindingRules.Proofs.RemarkInvariance
import BindingRules.Proofs.Rows
import BindingRules.Proofs.Separators
import BindingRules.Proofs.StrictOrder

set_option relaxedAutoImplicit false
set_option autoImplicit false

/-!
# Directives for other platforms

The store takes no notice of an active directive that is limited to another platform. So it could as
well be commented out: stores, dependency graphs, guards and conflicts are the same. Two parts of a
run look at the active directives by themselves, and not at their platforms: the look-up of targets
warns about such a directive as well, and where cycles force a module, the first directive that
mentions it counts, even if it is for another platform.

## Main definitions

* `commentedOut` — a text with some of its rows commented out.
* `Directive.silenced` — a directive after its row was commented out.
* `Config.EndSilenced` — what two such runs have in common.

## Main results

* `classify_commented` — a statement that is commented out is kept as an inactive one.
* `Ruleset.exists_ofText_commentedOut` — what is read of such a text.
* `admitted_map_silenced` — directives for other platforms are never admitted.
* `Config.resolveText_commentedOut` — the runs on a text with and without directives for other
  platforms.
-/

namespace BindingRules

variable {which : Nat → Bool} {name text : String} {number order : Nat} {raw : List Char}
  {s : Statement} {d : Directive} {ds : List Directive} {rows : List (List Char × LineEnding)}
  {lines : List RuleLine} {r r' : Ruleset}

/-! ## Commenting rows out -/

/-- Rows, of which the first has the given number, with some of them commented out. -/
def commentedRows (which : Nat → Bool) (number : Nat) (rows : List (List Char × LineEnding)) :
    List (List Char × LineEnding) :=
  (rows.zipIdx number).map fun row =>
    (if which row.2 then '#' :: ' ' :: row.1.1 else row.1.1, row.1.2)

/-- A text with some of its rows, given by their numbers, commented out. -/
def commentedOut (which : Nat → Bool) (text : String) : String :=
  String.ofList (joinRows (commentedRows which 1 (splitLines text.toList)))

/-- The first of the rows is commented out or not, and so are the others, with the next number. -/
lemma commentedRows_cons (which : Nat → Bool) (number : Nat) (row : List Char × LineEnding)
    (rows : List (List Char × LineEnding)) : commentedRows which number (row :: rows) =
      (if which number then '#' :: ' ' :: row.1 else row.1, row.2) ::
        commentedRows which (number + 1) rows := rfl

/-- Rows of a text stay such when some are commented out. -/
lemma AreRows.commentedRows (h : AreRows rows) (which : Nat → Bool) (number : Nat) :
    AreRows (commentedRows which number rows) := by
  induction rows generalizing number with
  | nil => trivial
  | cons row rows ih =>
    obtain ⟨raw, ending⟩ := row
    have hfeed : '\n' ∉ raw → '\n' ∉ if which number then '#' :: ' ' :: raw else raw := by
      split <;> simp
    rw [commentedRows_cons]
    cases ending with
    | lineFeed =>
      obtain ⟨hraw, hreturn, hrows⟩ := h
      refine ⟨hfeed hraw, ?_, ih hrows _⟩
      split
      · cases raw <;> simp_all
      · exact hreturn
    | carriageReturn => exact ⟨hfeed h.1, ih h.2 _⟩
    | endOfSource =>
      obtain ⟨hraw, hne, rfl⟩ := h
      refine ⟨hfeed hraw, ?_, rfl⟩
      split
      · exact List.cons_ne_nil _ _
      · exact hne

/-- The rows of a text with some commented out are its rows with those commented out. -/
lemma splitLines_commentedOut (which : Nat → Bool) (text : String) :
    splitLines (commentedOut which text).toList =
      commentedRows which 1 (splitLines text.toList) := by
  rw [commentedOut, String.toList_ofList]
  exact splitLines_joinRows ((areRows_splitLines text.toList).commentedRows which 1)

/-! ## Reading rows that are commented out -/

/-- What is found behind the comment mark of a row is the row. -/
lemma trim_dropAll_trimEnd (raw : List Char) :
    Text.trim (Text.dropAll ['#'] (Text.trimEnd (' ' :: raw))) = Text.trim raw := by
  have hdrop : Text.dropAll ['#'] (Text.trimEnd (' ' :: raw)) = Text.trimEnd (' ' :: raw) := by
    obtain ⟨tail, htail⟩ := Text.trimEnd_isPrefix (' ' :: raw)
    cases h : Text.trimEnd (' ' :: raw) with
    | nil => rw [Text.dropAll]; rfl
    | cons c rest =>
      rw [h, List.cons_append, List.cons.injEq] at htail
      rw [htail.1, Text.dropAll]
      rfl
  rw [hdrop, Text.trim_trimEnd]
  exact Text.trim_blank_append (b := [' ']) (by simp [Text.isBlank]) raw

/-- **A statement that is commented out** is the same statement, but inactive. -/
lemma classify_commented (h : classify raw = .statement s true) :
    classify ('#' :: ' ' :: raw) = .statement s false := by
  have hline := ofLine_of_classify h
  have hsign : Statement.hasSign (Text.trim raw) = true := by
    unfold Statement.ofLine at hline
    split at hline
    · next sign rest htrim =>
      split at hline
      · next hsign => simpa [Statement.hasSign, htrim] using hsign
      · cases hline
    · cases hline
  have htrim : Text.trim ('#' :: ' ' :: raw) = '#' :: Text.trimEnd (' ' :: raw) := by
    rw [Text.trim, Text.trimStart_cons_eq_self.2 (by rfl), Text.trimEnd_cons (by rfl)]
  simp only [classify, htrim, classifyComment, trim_dropAll_trimEnd, hsign, hline, if_true]

/-- A directive after its row was commented out, if it is one of the given ones. -/
def Directive.silenced (which : Nat → Bool) (d : Directive) : Directive :=
  if which d.location.line then { d with active := false } else d

/-- Every directive states what a row does, the number of which is that of its line. -/
lemma exists_row_of_mem (h : (readLines .permissive name number order rows).lines = .ok lines)
    (hd : d ∈ lines.filterMap RuleLine.directive?) : ∃ row ∈ rows.zipIdx number,
      row.2 = d.location.line ∧ classify row.1.1 = .statement d.toStatement d.active := by
  induction rows generalizing number order lines with
  | nil =>
    obtain rfl := Except.ok.inj h
    cases hd
  | cons row rows ih =>
    obtain ⟨raw, ending⟩ := row
    have hlater : ∀ {order lines},
        (readLines .permissive name (number + 1) order rows).lines = .ok lines →
        d ∈ lines.filterMap RuleLine.directive? → ∃ row ∈ ((raw, ending) :: rows).zipIdx number,
          row.2 = d.location.line ∧ classify row.1.1 = .statement d.toStatement d.active := by
      intro order lines hlines hd
      obtain ⟨row, hrow, hrest⟩ := ih hlines hd
      exact ⟨row, List.mem_cons_of_mem _ hrow, hrest⟩
    simp only [readLines] at h
    split at h
    · obtain ⟨rest, hrest, rfl⟩ := SourceReading.lines_cons.1 h
      exact hlater hrest hd
    · obtain ⟨rest, hrest, rfl⟩ := SourceReading.lines_cons.1 h
      exact hlater hrest hd
    · next s active hclass =>
      obtain ⟨rest, hrest, rfl⟩ := SourceReading.lines_cons.1 h
      rcases List.mem_cons.1 hd with rfl | hd
      · exact ⟨_, List.mem_cons_self, rfl, hclass⟩
      · exact hlater hrest hd
    · obtain ⟨rest, hrest, rfl⟩ := SourceReading.lines_cons.1 h
      exact hlater hrest hd

/-- **Rows of which some are commented out** have the same directives, of which those are inactive,
and the same malformed lines. -/
lemma exists_readLines_commentedRows
    (hwhich : ∀ row ∈ rows.zipIdx number, which row.2 = true →
      ∃ s, activeStatement? row.1.1 = some s)
    (h : (readLines .permissive name number order rows).lines = .ok lines) :
    ∃ lines', (readLines .permissive name number order (commentedRows which number rows)).lines =
        .ok lines' ∧
      lines'.filterMap RuleLine.directive? =
        (lines.filterMap RuleLine.directive?).map (Directive.silenced which) ∧
      lines'.filterMap RuleLine.malformed? = lines.filterMap RuleLine.malformed? := by
  induction rows generalizing number order lines with
  | nil =>
    obtain rfl := Except.ok.inj h
    exact ⟨[], rfl, rfl, rfl⟩
  | cons row rows ih =>
    obtain ⟨raw, ending⟩ := row
    have hlater := fun {order lines} => @ih (number + 1) order lines fun row hrow =>
      hwhich row (List.mem_cons_of_mem _ hrow)
    rw [commentedRows_cons]
    by_cases hcomment : which number = true
    · obtain ⟨s, hs⟩ := hwhich _ List.mem_cons_self hcomment
      have hclass := activeStatement?_eq_some.1 hs
      simp only [readLines, hclass] at h
      obtain ⟨rest, hrest, rfl⟩ := SourceReading.lines_cons.1 h
      obtain ⟨rest', hrest', hdirectives, hmalformed⟩ := hlater hrest
      simp only [hcomment, if_true, readLines, classify_commented hclass]
      refine ⟨_, SourceReading.lines_cons.2 ⟨rest', hrest', rfl⟩, ?_, ?_⟩
      · simp [RuleLine.directive?, hdirectives, Directive.silenced, hcomment]
      · rw [List.filterMap_cons_none rfl, List.filterMap_cons_none rfl, hmalformed]
    · obtain ⟨l, order', hlocation, hcons⟩ := exists_readLines_cons name number order (raw, ending)
      rw [hcons] at h
      obtain ⟨rest, hrest, rfl⟩ := SourceReading.lines_cons.1 h
      obtain ⟨rest', hrest', hdirectives, hmalformed⟩ := hlater hrest
      rw [if_neg hcomment, hcons]
      refine ⟨_, SourceReading.lines_cons.2 ⟨rest', hrest', rfl⟩, ?_, ?_⟩
      · cases hd : l.directive? with
        | none => rw [List.filterMap_cons_none hd, List.filterMap_cons_none hd, hdirectives]
        | some d =>
          have hsame : d.silenced which = d := by
            rw [Directive.silenced, hlocation d hd, if_neg hcomment]
          rw [List.filterMap_cons_some hd, List.filterMap_cons_some hd, List.map_cons, hsame,
            hdirectives]
      · rw [List.filterMap_cons, List.filterMap_cons, hmalformed]

namespace Ruleset

/-- **A text of which some statements are commented out** is read as well. Its ruleset has the same
directives, of which those are inactive, and the same malformed lines. -/
lemma exists_ofText_commentedOut
    (hwhich : ∀ row ∈ (splitLines text.toList).zipIdx 1, which row.2 = true →
      ∃ s, activeStatement? row.1.1 = some s)
    (h : ofText .permissive name text = .ok r) :
    ∃ r', ofText .permissive name (commentedOut which text) = .ok r' ∧
      r'.directives = r.directives.map (Directive.silenced which) ∧ r'.malformed = r.malformed := by
  rw [ofText_eq] at h
  split at h
  · next lines hlines =>
    obtain rfl := Except.ok.inj h
    obtain ⟨lines', hlines', hdirectives, hmalformed⟩ :=
      exists_readLines_commentedRows hwhich hlines
    refine ⟨⟨[⟨name, lines'⟩]⟩, ?_, ?_, ?_⟩
    · rw [ofText_eq, splitLines_commentedOut, hlines']
    · rw [directives_mk, directives_mk, hdirectives]
    · rw [malformed_mk, malformed_mk, hmalformed]
  · cases h

/-- Every directive of a text states what a row does, the number of which is that of its line. -/
lemma exists_row_of_mem_directives (h : ofText .permissive name text = .ok r)
    (hd : d ∈ r.directives) : ∃ row ∈ (splitLines text.toList).zipIdx 1,
      row.2 = d.location.line ∧ classify row.1.1 = .statement d.toStatement d.active := by
  rw [ofText_eq] at h
  split at h
  · next lines hlines =>
    obtain rfl := Except.ok.inj h
    rw [directives_mk] at hd
    exact exists_row_of_mem hlines hd
  · cases h

end Ruleset

/-! ## What inactive directives do -/

section Silenced

variable {platform : Option String}

/-- What is left of directives of which some are commented out, where inactive ones do not count. -/
lemma filter_map_silenced {p : Directive → Bool} (hp : ∀ d, d.active = false → p d = false) :
    (ds.map (Directive.silenced which)).filter p =
      (ds.filter p).filter fun d => !which d.location.line := by
  induction ds with
  | nil => rfl
  | cons d ds ih =>
    by_cases hcomment : which d.location.line = true
    · have hsilenced : p (d.silenced which) = false := by
        rw [Directive.silenced, if_pos hcomment]
        exact hp _ rfl
      rw [List.map_cons, List.filter_cons_of_neg (by simpa using hsilenced), ih, List.filter_filter,
        List.filter_filter, List.filter_cons_of_neg (by simp [hcomment])]
    · have hsame : d.silenced which = d := by rw [Directive.silenced, if_neg hcomment]
      rw [List.map_cons, hsame]
      by_cases hd : p d = true
      · rw [List.filter_cons_of_pos hd, List.filter_cons_of_pos hd,
          List.filter_cons_of_pos (by simpa using hcomment), ih]
      · rw [List.filter_cons_of_neg hd, List.filter_cons_of_neg hd, ih]

/-- **Directives for other platforms are never admitted**, so that nothing changes when they are
commented out. -/
lemma admitted_map_silenced
    (h : ∀ d ∈ ds, which d.location.line = true → d.appliesTo platform = false) :
    admitted platform (ds.map (Directive.silenced which)) = admitted platform ds := by
  rw [admitted, filter_map_silenced fun d hd => by simp [hd]]
  refine List.filter_eq_self.2 fun d hd => ?_
  obtain ⟨hmem, hadmitted⟩ := List.mem_filter.1 hd
  cases hcomment : which d.location.line with
  | false => rfl
  | true => simp [h d hmem hcomment] at hadmitted

end Silenced

/-- Whether a diagnostic is about an active directive on one of the given lines: that it is for
another platform, or that its target is not known. -/
def Diagnostic.isAboutDirective (which : Nat → Bool) (note : Diagnostic) : Bool :=
  (note.kind == .platformSkipped || note.kind == .unknownSymbol) &&
    note.location.any fun l => which l.line

/-- The diagnostics about directives that count are those that are left when some are commented
out. -/
lemma map_filter_map_silenced {p : Directive → Bool} {f : Directive → Diagnostic}
    (hp : ∀ d, d.active = false → p d = false)
    (hf : ∀ d, (f d).isAboutDirective which = which d.location.line) :
    ((ds.map (Directive.silenced which)).filter p).map f =
      ((ds.filter p).map f).filter fun note => !note.isAboutDirective which := by
  rw [filter_map_silenced hp, List.filter_map]
  simp only [Function.comp_def, hf]

/-- Other diagnostics are all left. -/
lemma filter_not_isAboutDirective {notes : List Diagnostic} (which : Nat → Bool)
    (h : ∀ note ∈ notes, note.kind ≠ .platformSkipped ∧ note.kind ≠ .unknownSymbol) :
    (notes.filter fun note => !note.isAboutDirective which) = notes :=
  List.filter_eq_self.2 fun note hnote => by simp [Diagnostic.isAboutDirective, h note hnote]

/-! ## Runs -/

/-- What the policy `p` of some rules has in common with the policy `p'` of these rules with
directives for other platforms commented out. -/
structure Policy.SilencedAlike (which : Nat → Bool) (inputs : Inputs) (p p' : Policy) : Prop where
  /-- The directives on the lines that were commented out are inactive, and nothing else is. -/
  directives_eq : p'.ruleset.directives = p.ruleset.directives.map (Directive.silenced which)
  /-- All questions about modules and symbols have the same answers. -/
  answers : p.AnswersAlike p'
  /-- The guards are the same. -/
  guards_eq : p.guards = p'.guards
  /-- What is decided for guarded edges is the same. -/
  placements_eq : p.placements = p'.placements
  /-- The diagnostics are the same, apart from those about the directives on these lines. -/
  diagnostics_eq : p'.diagnostics = p.diagnostics.filter fun note => !note.isAboutDirective which
  /-- The order is the same if modules on cycles without guards are forced in the same
  succession. -/
  order_eq :
    ((dependencyGraph p.store inputs).unguarded p.guards).ForcesAlike
      ⟨priorityOf p.store, p.ruleset.mentionOf⟩ ⟨priorityOf p.store, p'.ruleset.mentionOf⟩ →
    p.order = p'.order

namespace Config

section Stages

variable (c : Config) (inputs : Inputs)

/-- The notes about directives are those that are left when some are commented out. -/
lemma fillStore_snd_silenced (h : ds.Pairwise fun d e => d.order < e.order)
    (h' : (ds.map (Directive.silenced which)).Pairwise fun d e => d.order < e.order) :
    (c.fillStore (ds.map (Directive.silenced which))).2 =
      (c.fillStore ds).2.filter fun note => !note.isAboutDirective which := by
  rw [c.fillStore_snd h, c.fillStore_snd h']
  exact map_filter_map_silenced (fun d hd => by simp [hd]) fun d => rfl

/-- The warnings about targets are those that are left when some directives are commented out. -/
lemma validate_silenced
    (hdirectives : r'.directives = r.directives.map (Directive.silenced which)) :
    c.validate r' inputs =
      (c.validate r inputs).filter fun note => !note.isAboutDirective which := by
  simp only [validate]
  split
  · rw [hdirectives]
    exact map_filter_map_silenced (fun d hd => by simp [hd]) fun d => rfl
  · rfl

/-- **The store does not notice** when directives for other platforms are commented out. -/
lemma fillStore_fst_silenced (h : ds.Pairwise fun d e => d.order < e.order)
    (h' : (ds.map (Directive.silenced which)).Pairwise fun d e => d.order < e.order)
    (hother : ∀ d ∈ ds, which d.location.line = true → d.appliesTo (some c.platform) = false) :
    (c.fillStore ds).1.AnswersAlike (c.fillStore (ds.map (Directive.silenced which))).1 ∧
      ∀ g, guardsWithin (c.fillStore (ds.map (Directive.silenced which))).1 g =
        guardsWithin (c.fillStore ds).1 g := by
  have hs := c.reflects_fillStore h
  have hs' := c.reflects_fillStore h'
  have hadmitted := admitted_map_silenced hother
  refine ⟨hs.answersAlike_of_admitted hs' ?_, fun g => ?_⟩
  · rw [hadmitted]
    rfl
  · -- guards have places, so that it is not enough that the directives state the same
    simp only [guardsWithin, Guards.ofStore, hs.directivesOf_eq, hs'.directivesOf_eq, hadmitted]

end Stages

/-- **Directives for other platforms do not count in a policy**, apart from what is said about them
and from which module is forced first.

**Proof sketch.** The admitted directives are the same, with their positions and places, and graph,
guards and priorities are made of these. What is said about active directives stands there once for
each of them. Conflicts do not depend on which module is forced first, but the order may. -/
lemma silencedAlike_policyOf (c : Config) (inputs : Inputs)
    (h : r.directives.Pairwise fun d e => d.order < e.order)
    (h' : r'.directives.Pairwise fun d e => d.order < e.order)
    (hdirectives : r'.directives = r.directives.map (Directive.silenced which))
    (hmalformed : r'.malformed = r.malformed)
    (hother : ∀ d ∈ r.directives, which d.location.line = true →
      d.appliesTo (some c.platform) = false) :
    Policy.SilencedAlike which inputs (c.policyOf r inputs) (c.policyOf r' inputs) := by
  obtain ⟨hstore, hguards⟩ := c.fillStore_fst_silenced h (hdirectives ▸ h') hother
  have hnotes := c.fillStore_snd_silenced h (hdirectives ▸ h')
  have hvalidate := c.validate_silenced inputs hdirectives
  rw [← hdirectives] at hstore hguards hnotes
  have hgraph := hstore.dependencyGraph_eq inputs
  have hconflicts : ∀ (g : Graph) (guards : Guards) (priority : String → Option Int),
      (g.order guards ⟨priority, r.mentionOf⟩).conflicts =
        (g.order guards ⟨priority, r'.mentionOf⟩).conflicts :=
    fun g guards priority => Graph.conflicts_congr (by rfl)
  refine ⟨hdirectives, hstore.policy rfl, ?_, ?_, ?_, fun hforces => ?_⟩
  · simp only [policyOf, hgraph, hguards]
  · simp only [policyOf, hgraph, hguards]
  · have hkept : ∀ {α : Type} (l : List α) (f : α → Diagnostic),
        (∀ a ∈ l, (f a).kind ≠ .platformSkipped ∧ (f a).kind ≠ .unknownSymbol) →
        ((l.map f).filter fun note => !note.isAboutDirective which) = l.map f :=
      fun l f hf => filter_not_isAboutDirective which (List.forall_mem_map.2 hf)
    simp only [policyOf, hnotes, hvalidate, hmalformed, ← hgraph, hguards, ← hstore.priorityOf_eq,
      ← hconflicts, List.filter_append, Guards.redundancies]
    rw [hkept, hkept, hkept, hkept]
    all_goals
      intro a _
      simp [MalformedLine.diagnostic, UnbrokenCycle.diagnostic, OrderingConflict.diagnostic,
        Guards.redundancy]
  · have hforced := congrArg ModuleOrder.order (Graph.order_congr (by rfl) hforces)
    refine hforced.trans ?_
    simp only [policyOf, ← hgraph, hguards, ← hstore.priorityOf_eq]

/-- Two runs end alike, apart from what is said about directives on the given lines: both report
diagnostics, or both give a policy. -/
inductive EndSilenced (which : Nat → Bool) (inputs : Inputs) :
    Except ResolveError Policy → Except ResolveError Policy → Prop where
  /-- Both report diagnostics. -/
  | diagnostics (list : List Diagnostic) :
    EndSilenced which inputs (.error (.diagnostics list))
      (.error (.diagnostics (list.filter fun note => !note.isAboutDirective which)))
  /-- Both give a policy. -/
  | policies {p p' : Policy} (h : p.SilencedAlike which inputs p') :
    EndSilenced which inputs (.ok p) (.ok p')

/-- What is said about directives for other platforms, and about targets, is no error. -/
lemma not_isError_of_isAboutDirective (c : Config) (inputs : Inputs)
    (h : r.directives.Pairwise fun d e => d.order < e.order) {note : Diagnostic}
    (hnote : note ∈ (c.policyOf r inputs).diagnostics)
    (habout : note.isAboutDirective which = true) : note.isError = false := by
  simp only [policyOf, List.mem_append, List.mem_map, c.fillStore_snd h] at hnote
  rcases hnote with
    ((((⟨m, -, rfl⟩ | ⟨d, -, rfl⟩) | hnote) | ⟨cycle, -, rfl⟩) | hnote) | ⟨conflict, -, rfl⟩
  · cases habout
  · rfl
  · exact (of_mem_validate r inputs hnote).2
  · cases habout
  · exact (of_mem_redundancies hnote).2
  · cases habout

/-- Runs on rulesets end alike if one has directives for other platforms commented out. -/
lemma endSilenced_resolve (c : Config) (inputs : Inputs)
    (h : r.directives.Pairwise fun d e => d.order < e.order)
    (hpolicies : (c.policyOf r inputs).SilencedAlike which inputs (c.policyOf r' inputs)) :
    EndSilenced which inputs (c.resolve r inputs) (c.resolve r' inputs) := by
  have herrors : (c.policyOf r' inputs).diagnostics.any Diagnostic.isError =
      (c.policyOf r inputs).diagnostics.any Diagnostic.isError := by
    rw [hpolicies.diagnostics_eq, List.any_filter, Bool.eq_iff_iff, List.any_eq_true,
      List.any_eq_true]
    refine exists_congr fun note => and_congr_right fun hnote => ?_
    cases habout : note.isAboutDirective which with
    | true => simp [c.not_isError_of_isAboutDirective inputs h hnote habout]
    | false => simp
  simp only [resolve, herrors]
  split
  · rw [hpolicies.diagnostics_eq]
    exact .diagnostics _
  · exact .policies hpolicies

/-- **Directives for other platforms can be commented out.** If rows of a text are active statements
that are limited to other platforms, then the run on the text with these rows commented out ends
like the run on the text itself, whatever the settings and the inputs. All answers are the same, and
so are the guards, their places and the diagnostics, apart from those about these directives. The
order is the same if modules on cycles without guards are forced in the same succession. -/
theorem resolveText_commentedOut (c : Config) (name text : String) (inputs : Inputs)
    (which : Nat → Bool)
    (h : ∀ row ∈ (splitLines text.toList).zipIdx 1, which row.2 = true →
      (activeStatement? row.1.1).any (fun s => !s.appliesTo (some c.platform)) = true) :
    EndSilenced which inputs (c.resolveText name text inputs)
      (c.resolveText name (commentedOut which text) inputs) := by
  have hstated : ∀ row ∈ (splitLines text.toList).zipIdx 1, which row.2 = true →
      ∃ s, activeStatement? row.1.1 = some s := fun row hrow hcomment => by
    obtain ⟨s, hs, -⟩ := (Option.any_eq_true _ _).1 (h row hrow hcomment)
    exact ⟨s, hs⟩
  obtain ⟨r, hr⟩ := Ruleset.exists_ofText_permissive name text
  obtain ⟨r', hr', hdirectives, hmalformed⟩ := Ruleset.exists_ofText_commentedOut hstated hr
  have hholds := Ruleset.holdsText_of_ofText hr
  have hholds' := Ruleset.holdsText_of_ofText hr'
  have hother : ∀ d ∈ r.directives, which d.location.line = true →
      d.appliesTo (some c.platform) = false := by
    intro d hd hcomment
    obtain ⟨row, hrow, hnumber, hclass⟩ := Ruleset.exists_row_of_mem_directives hr hd
    obtain ⟨s, hs, happlies⟩ := (Option.any_eq_true _ _).1 (h row hrow (hnumber ▸ hcomment))
    rw [activeStatement?_eq_some, hclass] at hs
    obtain ⟨rfl, -⟩ := LineClass.statement.inj hs
    simpa using happlies
  have hruns := c.endSilenced_resolve inputs hholds.increasing (c.silencedAlike_policyOf inputs
    hholds.increasing hholds'.increasing hdirectives hmalformed hother)
  rw [resolveText, resolveText, ruleMode]
  cases c.strict with
  | false =>
    simp only [Bool.false_eq_true, if_false, hr, hr']
    exact hruns
  | true =>
    rw [hholds.malformed_eq, hholds'.malformed_eq] at hmalformed
    simp only [if_true, Ruleset.ofText_strict, hr, hr', hmalformed]
    cases malformedLines name text with
    | nil => exact hruns
    | cons m rest => exact .diagnostics [m.diagnostic .error]

/-- The first two of three rows are limited to another platform, and the guard behind them
counts. -/
theorem resolveText_commentedOut_before_guard :
    let text := "-class@win32 B_X\n -function@macos A_F\r\n+iguard A: B\n"
    let inputs : Inputs :=
      { modules := ["A", "B"], dependencies := [⟨"A", "B"⟩, ⟨"B", "A"⟩] }
    commentedOut (· < 3) text = "# -class@win32 B_X\n#  -function@macos A_F\r\n+iguard A: B\n" ∧
      EndSilenced (· < 3) inputs (resolveText {} "rules" text inputs)
        (resolveText {} "rules" (commentedOut (· < 3) text) inputs) := by
  intro text inputs
  exact ⟨by decide +kernel, resolveText_commentedOut {} "rules" text inputs (· < 3)
    (by decide +kernel)⟩

/-- Two modules need each other, and the second one is mentioned by a directive for another
platform. It is generated first, and the target of the directive is reported as unknown, but
neither when the directive is commented out. -/
theorem resolveText_commentedOut_order_changed :
    let text := "-class@win32 B_X\n"
    let inputs : Inputs :=
      { modules := ["A", "B"]
        dependencies := [⟨"A", "B"⟩, ⟨"B", "A"⟩]
        symbols := [{ kind := .plainClass, name := "A_X" }] }
    let isUnknown := fun note : Diagnostic => note.kind == .unknownSymbol
    commentedOut (· == 1) text = "# -class@win32 B_X\n" ∧
    (splitLines text.toList).map (fun row => activeStatement? row.1) =
      [some { kind := .classExclude, target := "B_X", payload := .absent,
              platform := some "win32" }] ∧
    ((resolveText {} "rules" text inputs).toOption.map fun p =>
      (p.order, p.diagnostics.any isUnknown)) = some (["B", "A"], true) ∧
    ((resolveText {} "rules" (commentedOut (· == 1) text) inputs).toOption.map fun p =>
      (p.order, p.diagnostics.any isUnknown)) = some (["A", "B"], false) := by
  decide +kernel

end Config

end BindingRules
