import BindingRules.Proofs.Alike
import BindingRules.Proofs.Rows
import BindingRules.Proofs.Strictness

set_option relaxedAutoImplicit false
set_option autoImplicit false

/-!
# Remarks do not count

Blank lines, remarks and directives that are commented out can be added to a text, taken away and
moved about without any effect on the modules and symbols: the order of generation, the places of
guarded references, the fingerprint and all answers of the policy stay as they are. Positions and
places of the other directives do change, so that what is shown is that nothing but their succession
matters.

## Main definitions

* `isSignificant`, `significantRows` — the rows of a text that count.
* `Policy.AnswersAlike` — policies that answer every question about modules and symbols alike.

## Main results

* `Ruleset.HoldsText.alike` — texts with the same rows that count state the same directives.
* `Store.AnswersAlike.policy` — policies answer alike if their stores do.
* `Config.policyOf_alike` — the policies of such texts.
* `Config.resolveText_ignores_remarks` — the runs on such texts.
-/

namespace BindingRules

variable {name text text' : String} {raw : List Char} {r r' : Ruleset}

/-! ## Rows that count -/

/-- Whether a row is neither blank nor commented out. -/
def isSignificant (raw : List Char) : Bool :=
  match Text.trim raw with
  | [] => false
  | '#' :: _ => false
  | _ => true

/-- The rows of a text that are neither blank nor commented out. -/
def significantRows (text : String) : List (List Char) :=
  ((splitLines text.toList).map Prod.fst).filter isSignificant

/-- A row that does not count is no active statement, and it is not malformed either. -/
lemma classify_of_not_significant (h : isSignificant raw = false) :
    classify raw = .blank ∨ classify raw = .remark ∨ ∃ s, classify raw = .statement s false := by
  cases htrim : Text.trim raw with
  | nil => exact .inl (by simp only [classify, htrim])
  | cons c rest =>
    by_cases hc : c = '#'
    · subst hc
      refine .inr ?_
      simp only [classify, htrim, classifyComment]
      cases Statement.hasSign (Text.trim (Text.dropAll ['#'] rest)) with
      | false => exact .inl rfl
      | true =>
        cases Statement.ofLine (Text.trim (Text.dropAll ['#'] rest)) with
        | ok s => exact .inr ⟨s, rfl⟩
        | error e => exact .inl rfl
    · simp [isSignificant, htrim, hc] at h

/-- What the rows of a text state is stated by those that count. -/
lemma filterMap_rows {α : Type} {f : List Char → Option α}
    (hf : ∀ raw, isSignificant raw = false → f raw = none) (text : String) :
    (splitLines text.toList).filterMap (fun row => f row.1) =
      (significantRows text).filterMap f := by
  rw [significantRows, List.filterMap_filter, List.filterMap_map]
  refine List.filterMap_congr fun row _ => ?_
  cases h : isSignificant row.1 with
  | true => simp [h]
  | false => simp [h, hf row.1 h]

/-- Why a row is malformed. -/
def malformedReason? (raw : List Char) : Option StatementError :=
  match classify raw with
  | .malformed reason => some reason
  | _ => none

/-- The reasons of the complaints about rows are those of the rows. -/
lemma map_reason_malformedRows (name : String) (number : Nat)
    (rows : List (List Char × LineEnding)) :
    (malformedRows name number rows).map MalformedLine.reason =
      rows.filterMap fun row => malformedReason? row.1 := by
  induction rows generalizing number with
  | nil => rfl
  | cons row rows ih =>
    have hrow : (malformedRow? name (row, number)).map MalformedLine.reason =
        malformedReason? row.1 := by
      unfold malformedRow? malformedReason?
      cases classify row.1 <;> rfl
    rw [malformedRows, List.zipIdx_cons, List.filterMap_cons, List.filterMap_cons, ← hrow, ← ih]
    cases malformedRow? name (row, number) <;> rfl

/-- **Texts with the same rows that count** have complaints for the same reasons. -/
lemma alike_malformedLines (name : String) (h : significantRows text = significantRows text') :
    Alike MalformedLine.reason (malformedLines name text) (malformedLines name text') := by
  have hnone : ∀ raw, isSignificant raw = false → malformedReason? raw = none := by
    intro raw hraw
    rcases classify_of_not_significant hraw with h | h | ⟨s, h⟩ <;> simp [malformedReason?, h]
  rw [Alike, malformedLines, malformedLines, map_reason_malformedRows, map_reason_malformedRows,
    filterMap_rows hnone, filterMap_rows hnone, h]

/-- **Texts with the same rows that count** state the same active directives. -/
lemma Ruleset.HoldsText.alike (hr : r.HoldsText name text) (hr' : r'.HoldsText name text')
    (h : significantRows text = significantRows text') :
    Alike Directive.toStatement r.activeDirectives r'.activeDirectives := by
  have hnone : ∀ raw, isSignificant raw = false → activeStatement? raw = none := by
    intro raw hraw
    rcases classify_of_not_significant hraw with h | h | ⟨s, h⟩ <;> simp [activeStatement?, h]
  rw [Alike, hr.statements_eq, hr'.statements_eq, filterMap_rows hnone, filterMap_rows hnone, h]

/-! ## Policies -/

namespace Policy

/-- Policies answer alike if they answer every question about modules and symbols alike. -/
structure AnswersAlike (p p' : Policy) : Prop where
  -- what is excluded
  isModuleExcluded : p.isModuleExcluded = p'.isModuleExcluded
  isClassExcluded : p.isClassExcluded = p'.isClassExcluded
  isFunctionExcluded : p.isFunctionExcluded = p'.isFunctionExcluded
  excludedReturnTypes : p.excludedReturnTypes = p'.excludedReturnTypes
  isReturnTypeExcluded : p.isReturnTypeExcluded = p'.isReturnTypeExcluded
  isEnumExcluded : p.isEnumExcluded = p'.isEnumExcluded
  isTypedefExcluded : p.isTypedefExcluded = p'.isTypedefExcluded
  isFieldExcluded : p.isFieldExcluded = p'.isFieldExcluded
  isSymbolExcluded : p.isSymbolExcluded = p'.isSymbolExcluded
  -- headers
  extraHeaders : p.extraHeaders = p'.extraHeaders
  excludedHeaders : p.excludedHeaders = p'.excludedHeaders
  bannedHeaders : p.bannedHeaders = p'.bannedHeaders
  -- how types are treated
  immutableTypes : p.immutableTypes = p'.immutableTypes
  isImmutable : p.isImmutable = p'.isImmutable
  noDeleteTypes : p.noDeleteTypes = p'.noDeleteTypes
  isNoDelete : p.isNoDelete = p'.isNoDelete
  isOpaque : p.isOpaque = p'.isOpaque
  isNested : p.isNested = p'.isNested
  isDowncast : p.isDowncast = p'.isDowncast
  excludedBases : p.excludedBases = p'.excludedBases
  -- names and annotations
  bindingName? : p.bindingName? = p'.bindingName?
  returnPolicy? : p.returnPolicy? = p'.returnPolicy?
  keepAlive? : p.keepAlive? = p'.keepAlive?
  -- texts that are inserted, and replacements
  topComment? : p.topComment? = p'.topComment?
  beforeModule : p.beforeModule = p'.beforeModule
  beforeType : p.beforeType = p'.beforeType
  afterType : p.afterType = p'.afterType
  patches : p.patches = p'.patches
  patchSource : p.patchSource = p'.patchSource
  -- what is generated where, and in which order
  isSplit : p.isSplit = p'.isSplit
  isSkipped : p.isSkipped = p'.isSkipped
  symbolOrder : p.symbolOrder = p'.symbolOrder
  -- settings for the compiler
  includeDirs : p.includeDirs = p'.includeDirs
  compilerArgs : p.compilerArgs = p'.compilerArgs

variable {p p' : Policy} {kind : DirectiveKind}

/-- The values of a kind for names are known from the answers to its queries. -/
lemma value?_congr (h : ∀ n, (p.store.query kind n).map Directive.toStatement =
    (p'.store.query kind n).map Directive.toStatement) : p.value? kind = p'.value? kind := by
  funext raw
  unfold value?
  split
  · next n _ =>
    simpa only [Option.map_map, Function.comp_def] using
      congrArg (Option.map fun d : Statement => d.payload.shown) (h n)
  · rfl

/-- The priorities for the symbols of modules are known from what the directives for them state. -/
lemma symbolRules_congr (h : Alike Directive.toStatement (p.store.directivesOf .symbolPriority)
    (p'.store.directivesOf .symbolPriority)) : p.symbolRules = p'.symbolRules := by
  funext module
  have hmodule := h.filter fun d => Text.trimmed d.target == module
  refine hmodule.filterMap_congr _ fun d d' hd => ?_
  have hpayload : d.payload = d'.payload := congrArg Statement.payload hd
  rw [hpayload]

end Policy

namespace Store.AnswersAlike

variable {p p' : Policy}

/-- The same names are excluded. -/
lemma excludes_eq (h : p.store.AnswersAlike p'.store) (kind : DirectiveKind) :
    p.excludes kind = p'.excludes kind := by
  funext raw
  simp only [Policy.excludes, h.isExcluded_eq]

/-- The same texts are marked. -/
lemma marks_eq (h : p.store.AnswersAlike p'.store) (kind : DirectiveKind) :
    p.marks kind = p'.marks kind := by
  funext raw
  rw [Policy.marks, Policy.marks, (h.queryText kind raw).isEmpty_eq]

/-- The values for a text are the same. -/
lemma values_eq (h : p.store.AnswersAlike p'.store) (kind : DirectiveKind) :
    p.values kind = p'.values kind := by
  funext raw
  exact (h.queryText kind raw).map_eq fun d => d.payload.shown

/-- The value of an exclusive kind for a name is the same. -/
lemma value?_eq (h : p.store.AnswersAlike p'.store) (kind : DirectiveKind)
    (hkind : kind.resolution = .exclusive) : p.value? kind = p'.value? kind :=
  Policy.value?_congr fun n => h.query kind n hkind

/-- The targets of a kind are the same. -/
lemma targets_eq (h : p.store.AnswersAlike p'.store) (kind : DirectiveKind) :
    p.targets kind = p'.targets kind :=
  congrArg List.eraseDups ((h.directivesOf kind).map_eq fun d => d.target)

/-- The same functions are excluded in all scopes. -/
lemma isBaseNameExcluded_eq (h : p.store.AnswersAlike p'.store) :
    p.isBaseNameExcluded = p'.isBaseNameExcluded := by
  funext n
  exact (h.directivesOf .functionNameExclude).any_eq fun d =>
    Text.wildcardMatch (Text.trim d.target.toList) n.baseName.toList

/-- The replacements are the same. -/
lemma patches_eq (h : p.store.AnswersAlike p'.store) : p.patches = p'.patches := by
  funext module
  refine (h.queryText .patch module).filterMap_congr _ fun d d' hd => ?_
  have hpayload : d.payload = d'.payload := congrArg Statement.payload hd
  rw [hpayload]

/-- The priorities for the symbols of a module are the same. -/
lemma symbolRules_eq (h : p.store.AnswersAlike p'.store) : p.symbolRules = p'.symbolRules :=
  Policy.symbolRules_congr (h.directivesOf .symbolPriority)

/-- The arguments for the compiler are the same. -/
lemma compilerArgs_eq (h : p.store.AnswersAlike p'.store) : p.compilerArgs = p'.compilerArgs := by
  have hargs : ∀ wanted : String,
      ((p.store.directivesOf .compilerArg).filter fun d => Text.trimmed d.target == wanted).map
          (·.payload.shown) =
        ((p'.store.directivesOf .compilerArg).filter fun d => Text.trimmed d.target == wanted).map
          (·.payload.shown) := fun wanted =>
    ((h.directivesOf .compilerArg).filter fun d => Text.trimmed d.target == wanted).map_eq
      fun d => d.payload.shown
  funext platform
  simp only [Policy.compilerArgs, hargs]

/-- The same symbols are left out. -/
lemma isSymbolExcluded_eq (h : p.store.AnswersAlike p'.store) :
    p.isSymbolExcluded = p'.isSymbolExcluded := by
  funext s
  have hreturn : p.isReturnTypeExcluded = p'.isReturnTypeExcluded := by
    funext returnType
    simp only [Policy.isReturnTypeExcluded, Policy.excludedReturnTypes, h.targets_eq]
  have hclass : p.isClassExcluded = p'.isClassExcluded := h.excludes_eq .classExclude
  simp only [Policy.isSymbolExcluded, Policy.isModuleExcluded, h.excludes_eq, hreturn, hclass,
    h.isBaseNameExcluded_eq, h.isExcluded_eq]

/-- **Policies answer alike** if their stores do, under the same settings. -/
lemma policy (h : p.store.AnswersAlike p'.store) (hconfig : p.config = p'.config) :
    p.AnswersAlike p' where
  isModuleExcluded := h.excludes_eq .moduleExclude
  isClassExcluded := h.excludes_eq .classExclude
  isFunctionExcluded := by
    funext name
    simp only [Policy.isFunctionExcluded, h.isExcluded_eq, h.isBaseNameExcluded_eq]
  excludedReturnTypes := h.targets_eq .returnTypeExclude
  isReturnTypeExcluded := by
    funext returnType
    simp only [Policy.isReturnTypeExcluded, Policy.excludedReturnTypes, h.targets_eq]
  isEnumExcluded := h.excludes_eq .enumExclude
  isTypedefExcluded := h.excludes_eq .typedefExclude
  isFieldExcluded := h.excludes_eq .fieldExclude
  isSymbolExcluded := h.isSymbolExcluded_eq
  extraHeaders := by
    funext module
    simp only [Policy.extraHeaders, Policy.excludedHeaders, Policy.bannedHeaders, h.values_eq,
      h.targets_eq]
  excludedHeaders := h.values_eq .headerRemove
  bannedHeaders := h.targets_eq .headerBan
  immutableTypes := h.targets_eq .immutable
  isImmutable := h.marks_eq .immutable
  noDeleteTypes := h.targets_eq .noDelete
  isNoDelete := h.marks_eq .noDelete
  isOpaque := h.marks_eq .opaqueType
  isNested := h.marks_eq .nested
  isDowncast := h.marks_eq .downcast
  excludedBases := h.values_eq .baseExclude
  bindingName? := h.value?_eq .nameOverride rfl
  returnPolicy? := h.value?_eq .returnPolicy rfl
  keepAlive? := h.value?_eq .keepAlive rfl
  topComment? := by
    funext module
    simp only [Policy.topComment?, h.values_eq]
  beforeModule := h.values_eq .beforeModule
  beforeType := h.values_eq .beforeType
  afterType := h.values_eq .afterType
  patches := h.patches_eq
  patchSource := by
    funext module source
    simp only [Policy.patchSource, h.patches_eq]
  isSplit := h.marks_eq .split
  isSkipped := h.marks_eq .skip
  symbolOrder := by
    funext module symbols
    simp only [Policy.symbolOrder, h.symbolRules_eq, hconfig]
  includeDirs := h.targets_eq .includeDir
  compilerArgs := h.compilerArgs_eq

end Store.AnswersAlike

namespace Config

/-! ## Runs -/

/-- Whether an error is reported is known from the malformed lines, the unbroken cycles and the
conflicts. -/
lemma any_isError_policyOf (c : Config) (inputs : Inputs)
    (h : r.directives.Pairwise fun d e => d.order < e.order) :
    (c.policyOf r inputs).diagnostics.any Diagnostic.isError =
      let store := (c.fillStore r.directives).1
      let graph := dependencyGraph store inputs
      let guards := guardsWithin store graph
      r.malformed.any (fun _ => c.severity == .error) ||
        (graph.unbrokenCycles guards c.coverage).any (fun _ => c.severity == .error) ||
        (graph.order guards ⟨priorityOf store, r.mentionOf⟩).conflicts.any
          (fun _ => c.severity == .error) := by
  have hnotes : (c.fillStore r.directives).2.any Diagnostic.isError = false := by
    rw [c.fillStore_snd h, List.any_map]
    exact List.any_eq_false.2 fun d _ => by simp [platformNote, Diagnostic.isError]
  have hvalidate : (c.validate r inputs).any Diagnostic.isError = false :=
    List.any_eq_false.2 fun note hnote => by simp [(of_mem_validate r inputs hnote).2]
  have hredundancies : ∀ guards : Guards, guards.redundancies.any Diagnostic.isError = false :=
    fun guards => List.any_eq_false.2 fun note hnote => by simp [(of_mem_redundancies hnote).2]
  simp only [policyOf, List.any_append, List.any_map, hnotes, hvalidate, hredundancies,
    Bool.or_false]
  rfl

/-- The same module is forced first, whatever the positions of the directives are. -/
lemma forcedBefore_eq {priority : String → Option Int} (hr : r.HoldsText name text)
    (hr' : r'.HoldsText name text') (h : significantRows text = significantRows text')
    (hlength : text.length ≤ Graph.unmentioned) (hlength' : text'.length ≤ Graph.unmentioned) :
    Graph.forcedBefore ⟨priority, r.mentionOf⟩ = Graph.forcedBefore ⟨priority, r'.mentionOf⟩ := by
  have hfits : ∀ {r : Ruleset} {text : String}, r.HoldsText name text →
      text.length ≤ Graph.unmentioned → ∀ d ∈ r.activeDirectives, d.order < Graph.unmentioned :=
    fun hr hlength d hd => Nat.lt_of_lt_of_le (hr.order_lt (List.mem_filter.1 hd).1)
      ((length_splitLines_le _).trans hlength)
  have hfirst : ∀ m, r.activeDirectives.findIdx (·.mentions m) =
      r'.activeDirectives.findIdx (·.mentions m) := fun m =>
    (hr.alike hr' h).findIdx_eq fun d : Statement =>
      (m != "" && Name.moduleOf d.target == m) || d.payload.module? == some m
  funext a b
  rw [Ruleset.forcedBefore_mentionOf (hr.increasing.filter _) (hfits hr hlength),
    Ruleset.forcedBefore_mentionOf (hr'.increasing.filter _) (hfits hr' hlength'), hfirst, hfirst]

/-- The canonical lines of active directives do not show where they stand. -/
lemma map_line_eq (h : Alike Directive.toStatement r.activeDirectives r'.activeDirectives) :
    r.activeDirectives.map Directive.line = r'.activeDirectives.map Directive.line := by
  have hline : ∀ r : Ruleset, r.activeDirectives.map Directive.line =
      r.activeDirectives.map fun d => d.toStatement.line := fun r =>
    List.map_congr_left fun d hd => by rw [Directive.line, if_pos (List.mem_filter.1 hd).2]
  rw [hline, hline]
  exact h.map_eq Statement.line

/-- **The policies of texts with the same rows that count** have the same order, placements and
fingerprint, their stores answer alike, and errors are reported by both or by neither.

**Proof sketch.** The active directives state the same in the same succession, so that the stores
answer alike. Graph, guards and priorities are made of their answers. Positions are compared only
where a module is forced, and there only their succession counts. -/
lemma policyOf_alike (c : Config) (inputs : Inputs) (hr : r.HoldsText name text)
    (hr' : r'.HoldsText name text') (h : significantRows text = significantRows text')
    (hlength : text.length ≤ Graph.unmentioned) (hlength' : text'.length ≤ Graph.unmentioned) :
    (c.policyOf r inputs).store.AnswersAlike (c.policyOf r' inputs).store ∧
      (c.policyOf r inputs).order = (c.policyOf r' inputs).order ∧
      (c.policyOf r inputs).placements = (c.policyOf r' inputs).placements ∧
      (c.policyOf r inputs).fingerprint = (c.policyOf r' inputs).fingerprint ∧
      (c.policyOf r inputs).diagnostics.any Diagnostic.isError =
        (c.policyOf r' inputs).diagnostics.any Diagnostic.isError := by
  have hstore : (c.fillStore r.directives).1.AnswersAlike (c.fillStore r'.directives).1 :=
    (c.reflects_fillStore hr.increasing).answersAlike (c.reflects_fillStore hr'.increasing)
      (hr.alike hr' h)
  have hgraph := hstore.dependencyGraph_eq inputs
  have hguards := hstore.guardsWithin (dependencyGraph (c.fillStore r'.directives).1 inputs)
  have hmoduleOrder := calc
    (dependencyGraph (c.fillStore r.directives).1 inputs).order
        (guardsWithin (c.fillStore r.directives).1
          (dependencyGraph (c.fillStore r.directives).1 inputs))
        ⟨priorityOf (c.fillStore r.directives).1, r.mentionOf⟩
      = (dependencyGraph (c.fillStore r'.directives).1 inputs).order
        (guardsWithin (c.fillStore r'.directives).1
          (dependencyGraph (c.fillStore r'.directives).1 inputs))
        ⟨priorityOf (c.fillStore r'.directives).1, r.mentionOf⟩ := by
          rw [hgraph, hstore.priorityOf_eq, hguards.order_eq]
    _ = (dependencyGraph (c.fillStore r'.directives).1 inputs).order
        (guardsWithin (c.fillStore r'.directives).1
          (dependencyGraph (c.fillStore r'.directives).1 inputs))
        ⟨priorityOf (c.fillStore r'.directives).1, r'.mentionOf⟩ :=
          Graph.order_congr (by rfl) fun a b _ _ =>
            congrFun (congrFun (forcedBefore_eq hr hr' h hlength hlength') a) b
  have horder : (c.policyOf r inputs).order = (c.policyOf r' inputs).order :=
    congrArg ModuleOrder.order hmoduleOrder
  have hplacements : (c.policyOf r inputs).placements = (c.policyOf r' inputs).placements := by
    simp only [policyOf, hgraph, hguards.placements_eq]
  refine ⟨hstore, horder, hplacements, ?_, ?_⟩
  · have hlines : (c.policyOf r inputs).ruleset.activeDirectives.map Directive.line =
        (c.policyOf r' inputs).ruleset.activeDirectives.map Directive.line :=
      map_line_eq (hr.alike hr' h)
    simp only [Policy.fingerprint, Policy.summary, horder, hplacements, hlines]
  · have hmalformed : r.malformed.any (fun _ => c.severity == .error) =
        r'.malformed.any fun _ => c.severity == .error := by
      rw [hr.malformed_eq, hr'.malformed_eq]
      exact (alike_malformedLines name h).any_eq fun _ => c.severity == .error
    rw [c.any_isError_policyOf inputs hr.increasing, c.any_isError_policyOf inputs hr'.increasing]
    simp only [hmoduleOrder, hmalformed]
    simp only [hgraph, hguards.unbrokenCycles_eq]

/-- Two runs end alike: both report diagnostics, or both give a policy. -/
inductive EndAlike : Except ResolveError Policy → Except ResolveError Policy → Prop where
  /-- Both report diagnostics. -/
  | diagnostics (list list' : List Diagnostic) :
    EndAlike (.error (.diagnostics list)) (.error (.diagnostics list'))
  /-- Both give a policy, with the same order, placements and fingerprint, and the same answers. -/
  | policies {p p' : Policy} (order_eq : p.order = p'.order)
    (placements_eq : p.placements = p'.placements) (fingerprint_eq : p.fingerprint = p'.fingerprint)
    (answers : p.AnswersAlike p') : EndAlike (.ok p) (.ok p')

/-- Runs on rulesets of texts with the same rows that count end alike. -/
lemma endAlike_resolve (c : Config) (inputs : Inputs) (hr : r.HoldsText name text)
    (hr' : r'.HoldsText name text') (h : significantRows text = significantRows text')
    (hlength : text.length ≤ Graph.unmentioned) (hlength' : text'.length ≤ Graph.unmentioned) :
    EndAlike (c.resolve r inputs) (c.resolve r' inputs) := by
  obtain ⟨hstore, horder, hplacements, hfingerprint, herrors⟩ :=
    c.policyOf_alike inputs hr hr' h hlength hlength'
  simp only [resolve, herrors]
  split
  · exact .diagnostics _ _
  · exact .policies horder hplacements hfingerprint (hstore.policy rfl)

/-- **Remarks do not count.** If two texts have the same rows, without those that are blank or
commented out, the runs on them end alike, whatever the settings and the inputs. Positions must be
less than the one that stands for modules that are not mentioned, which no text in memory is long
enough to reach. -/
theorem resolveText_ignores_remarks (c : Config) (name text text' : String) (inputs : Inputs)
    (h : significantRows text = significantRows text')
    (hlength : text.length ≤ Graph.unmentioned) (hlength' : text'.length ≤ Graph.unmentioned) :
    EndAlike (c.resolveText name text inputs) (c.resolveText name text' inputs) := by
  obtain ⟨r, hr⟩ := Ruleset.exists_ofText_permissive name text
  obtain ⟨r', hr'⟩ := Ruleset.exists_ofText_permissive name text'
  have hruns := c.endAlike_resolve inputs (Ruleset.holdsText_of_ofText hr)
    (Ruleset.holdsText_of_ofText hr') h hlength hlength'
  rw [resolveText, resolveText, ruleMode]
  cases c.strict with
  | false =>
    simp only [Bool.false_eq_true, if_false, hr, hr']
    exact hruns
  | true =>
    have hempty := (alike_malformedLines name h).isEmpty_eq
    simp only [if_true, Ruleset.ofText_strict, hr, hr']
    cases hm : malformedLines name text <;> cases hm' : malformedLines name text' <;>
      rw [hm, hm'] at hempty
    · exact hruns
    · cases hempty
    · cases hempty
    · exact .diagnostics _ _

/-- A remark, a directive that is commented out and a blank line around two guards. -/
theorem resolveText_ignores_remarks_around_guards :
    EndAlike
      (release.resolveText "rules" "+iguard A: B\n+iguard B: A\n"
        { modules := ["A", "B"], dependencies := [⟨"A", "B"⟩, ⟨"B", "A"⟩] })
      (release.resolveText "rules" "# two guards\n# -module A\n+iguard A: B\n\n+iguard B: A"
        { modules := ["A", "B"], dependencies := [⟨"A", "B"⟩, ⟨"B", "A"⟩] }) := by
  refine resolveText_ignores_remarks release "rules" _ _ _ ?_ ?_ ?_
  · decide +kernel
  · decide +kernel
  · decide +kernel

end Config

end BindingRules
