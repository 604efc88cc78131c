import BindingRules.Policy.Resolve
import BindingRules.Proofs.Alike
import BindingRules.Proofs.CanonicalLine
import BindingRules.Proofs.RulesetReading
import BindingRules.Proofs.StrictOrder

set_option relaxedAutoImplicit false
set_option autoImplicit false

/-!
# What a canonical line identifies

Two statements that were read have the same canonical line only if they are the same statement. The
canonical line of an import guard need not be a line of that guard, but it still tells the target
from the module: a module holds no blank, so that the last blank of the line stands in front of it.

The fingerprint of a policy is therefore taken of the active directives themselves, apart from their
places: no other rules have the same lines.

## Main definitions

* `RulesetReader.addSources` — several sources, read one after the other.
* `Ruleset.IsRead`, `Directive.IsRead` — rulesets that were read from sources, and directives of
  which the statement was read from a line.
* `Policy.IsResolved` — policies that were resolved from rules that were read.

## Main results

* `Statement.eq_of_line_eq` — a statement that was read is known from its canonical line.
* `Ruleset.IsRead.increasing` — the directives of a ruleset that was read are in order.
* `Ruleset.IsRead.alike_of_map_line_eq` — so are the active directives of a ruleset.
* `Policy.summary_identifies_directives` — both, with the summary of which a fingerprint is taken.
-/

namespace BindingRules

namespace Statement

open Text

variable {s s' : Statement} {text text' : List Char} {sign sign' : Char} {word word' : List Char}
  {kind kind' : DirectiveKind} {body body' value value' : List Char}

/-! ## Statements -/

/-- Equal canonical lines have the same first word, and the same body behind it. -/
lemma LineParts.word_eq (h : s.LineParts sign word kind body value)
    (h' : s'.LineParts sign' word' kind' body' value') (heq : s.line = s'.line) :
    sign = sign' ∧ word = word' ∧ s.bodyText = s'.bodyText := by
  have hline := congrArg String.toList heq
  rw [h.toList_line, h'.toList_line, List.cons.injEq] at hline
  obtain ⟨hsign, hrest⟩ := hline
  obtain ⟨htake, hdrop⟩ := takeWhile_dropWhile_word h.not_isBlank s.bodyText
  obtain ⟨htake', hdrop'⟩ := takeWhile_dropWhile_word h'.not_isBlank s'.bodyText
  rw [hrest] at htake hdrop
  exact ⟨hsign, htake.symm.trans htake', (List.cons.inj (hdrop.symm.trans hdrop')).2⟩

/-- Statements with equal canonical lines begin with the same verb and platform. -/
lemma LineParts.kind_eq_of_line_eq (h : s.LineParts sign word kind body value)
    (h' : s'.LineParts sign' word' kind' body' value') (heq : s.line = s'.line) :
    kind = kind' ∧ s.platform = s'.platform := by
  obtain ⟨rfl, rfl, -⟩ := h.word_eq h' heq
  obtain ⟨verb, hverb, hkind⟩ := h.kind_eq
  obtain ⟨verb', hverb', hkind'⟩ := h'.kind_eq
  obtain ⟨rfl, hplatform⟩ := Prod.mk.inj (Except.ok.inj (hverb.symm.trans hverb'))
  exact ⟨Option.some.inj (hkind.symm.trans hkind'), hplatform⟩

/-- Import guards with the same body have the same target and module.

**Proof sketch.** The module holds no blank. So the last blank of the body is the one between the
colon and the module, and the body can be split there. -/
lemma LineParts.eq_of_importGuard (h : s.LineParts sign word .importGuard body value)
    (h' : s'.LineParts sign' word' .importGuard body' value')
    (hbody : s.bodyText = s'.bodyText) :
    s.kind = s'.kind ∧ s.target = s'.target ∧ s.payload = s'.payload := by
  have hsplit : ∀ {s : Statement} {sign word body value},
      s.LineParts sign word .importGuard body value →
        s.kind = .importGuard ∧ s.payload = .module (String.ofList value) ∧
        splitOnceLast? [' '] s.bodyText = some (s.target.toList ++ [':'], value) := by
    intro s sign word body value h
    obtain ⟨hpayload, hblank⟩ := of_readPayload_importGuard h.readPayload_eq
    have hkind : s.kind = .importGuard := (written_of_readPayload h.readPayload_eq).2.2.2.2 rfl
    have hspace : ' ' ∉ value := fun hmem => absurd (hblank ' ' hmem) (by decide)
    have htext : s.bodyText = (s.target.toList ++ [':']) ++ ' ' :: value := by
      simp [bodyText, hkind, DirectiveKind.shape, hpayload, Payload.shown]
    exact ⟨hkind, hpayload, htext ▸ splitOnceLast?_append hspace _⟩
  obtain ⟨hkind, hpayload, hlast⟩ := hsplit h
  obtain ⟨hkind', hpayload', hlast'⟩ := hsplit h'
  rw [hbody, hlast', Option.some.injEq, Prod.mk.injEq, List.append_cancel_right_eq] at hlast
  obtain ⟨htarget, hvalue⟩ := hlast
  exact ⟨hkind.trans hkind'.symm, (String.toList_inj.1 htarget).symm,
    by rw [hpayload, hpayload', hvalue]⟩

/-- **A statement that was read is known from its canonical line.**

**Proof sketch.** The first words of equal lines tell that both statements are import guards, or
that neither is. Of import guards, target and module are found at the last blank. All others are
read back from their canonical lines. -/
lemma eq_of_line_eq (h : ofLine text = .ok s) (h' : ofLine text' = .ok s')
    (heq : s.line = s'.line) : s = s' := by
  obtain ⟨sign, word, kind, body, value, parts⟩ := exists_lineParts h
  obtain ⟨sign', word', kind', body', value', parts'⟩ := exists_lineParts h'
  obtain ⟨rfl, hplatform⟩ := parts.kind_eq_of_line_eq parts' heq
  by_cases hguard : kind = .importGuard
  · subst hguard
    have hbody := (parts.word_eq parts' heq).2.2
    obtain ⟨hkind, htarget, hpayload⟩ := parts.eq_of_importGuard parts' hbody
    cases s
    cases s'
    simp_all
  · have hrecoverable : s.Recoverable := fun hs =>
      absurd ((written_of_readPayload parts.readPayload_eq).2.2.2.1 hs) hguard
    have hrecoverable' : s'.Recoverable := fun hs =>
      absurd ((written_of_readPayload parts'.readPayload_eq).2.2.2.1 hs) hguard
    have hread := (ofLine_line_iff_recoverable h).2 hrecoverable
    have hread' := (ofLine_line_iff_recoverable h').2 hrecoverable'
    rw [heq, hread'] at hread
    exact (Except.ok.inj hread).symm

end Statement

/-! ## Rulesets that were read -/

variable {mode : RuleMode} {name text : String} {raw : List Char} {s : Statement}
  {r r' : Ruleset} {reader : RulesetReader} {files : Files} {paths : List String}

/-- Reads sources, given by their names and texts, one after the other. Under strict settings those
with a malformed line are left out. -/
def RulesetReader.addSources (reader : RulesetReader) (sources : List (String × String)) :
    RulesetReader :=
  sources.foldl (fun reader source => (reader.addSource source.1 source.2).1) reader

/-- Whether a ruleset was read from sources. -/
def Ruleset.IsRead (r : Ruleset) : Prop :=
  ∃ mode sources, r = (RulesetReader.addSources { mode } sources).ruleset

/-- Whether a directive states what some line does. -/
def Directive.IsRead (d : Directive) : Prop :=
  ∃ text, Statement.ofLine text = .ok d.toStatement

/-- **One source**: its active directives are read from lines. -/
lemma RulesetReader.isRead_addSource
    (h : ∀ d ∈ reader.ruleset.activeDirectives, d.IsRead) (name text : String) :
    ∀ d ∈ (reader.addSource name text).1.ruleset.activeDirectives, d.IsRead := by
  intro d hd
  simp only [addSource] at hd
  split at hd
  · next lines hlines =>
    simp only [Ruleset.activeDirectives, Ruleset.directives, Ruleset.lines, List.flatMap_append,
      List.filterMap_append, List.filter_append, List.mem_append] at hd
    rcases hd with hd | hd
    · exact h d hd
    · have hmem : d.toStatement ∈ ((lines.filterMap RuleLine.directive?).filter (·.active)).map
          Directive.toStatement := List.mem_map_of_mem (by simpa using hd)
      rw [(readsAs_readLines hlines).statements_eq] at hmem
      obtain ⟨row, -, hrow⟩ := List.mem_filterMap.1 hmem
      exact ⟨_, ofLine_of_classify (activeStatement?_eq_some.1 hrow)⟩
  · exact h d hd

/-- **All sources**: the active directives of a ruleset that was read are read from lines. -/
lemma Ruleset.IsRead.isRead_of_mem (h : r.IsRead) : ∀ d ∈ r.activeDirectives, d.IsRead := by
  obtain ⟨mode, sources, rfl⟩ := h
  have hrun : ∀ (sources : List (String × String)) (reader : RulesetReader),
      (∀ d ∈ reader.ruleset.activeDirectives, d.IsRead) →
      ∀ d ∈ (reader.addSources sources).ruleset.activeDirectives, d.IsRead := by
    intro sources
    induction sources with
    | nil => exact fun reader h => h
    | cons source sources ih =>
      exact fun reader h => ih _ (reader.isRead_addSource h source.1 source.2)
  exact hrun sources { mode } fun d hd => absurd hd List.not_mem_nil

/-- Whether the directives that were read have increasing positions, and the next one comes behind
them. -/
def RulesetReader.InOrder (reader : RulesetReader) : Prop :=
  (reader.ruleset.directives.Pairwise fun d e => d.order < e.order) ∧
    ∀ d ∈ reader.ruleset.directives, d.order < reader.nextOrder

/-- **One source**: its directives come behind those that were read before. -/
lemma RulesetReader.InOrder.addSource (h : reader.InOrder) (name text : String) :
    (reader.addSource name text).1.InOrder := by
  obtain ⟨hincreasing, hnext⟩ := h
  simp only [RulesetReader.addSource]
  split
  · next lines hlines =>
    have horders := (readsAs_readLines hlines).orders_eq
    have hnew : ∀ e ∈ lines.filterMap RuleLine.directive?, reader.nextOrder ≤ e.order ∧
        e.order < reader.nextOrder + (lines.filterMap RuleLine.directive?).length := by
      intro e he
      have hmem := List.mem_map_of_mem (f := Directive.order) he
      rw [horders, List.mem_range'_1] at hmem
      exact hmem
    have hlast := nextOrder_readLines hlines
    simp only [InOrder, Ruleset.directives, Ruleset.lines, List.flatMap_append, List.flatMap_cons,
      List.flatMap_nil, List.append_nil, List.filterMap_append, List.pairwise_append,
      List.mem_append]
    refine ⟨⟨hincreasing, ?_, fun d hd e he => ?_⟩, fun d hd => ?_⟩
    · rw [← List.pairwise_map (f := Directive.order) (R := (· < ·)), horders]
      exact List.pairwise_lt_range'
    · exact Nat.lt_of_lt_of_le (hnext d hd) (hnew e he).1
    · rcases hd with hd | hd
      · exact Nat.lt_of_lt_of_le (hnext d hd) (le_nextOrder_readLines ..)
      · exact hlast ▸ (hnew d hd).2
  · exact ⟨hincreasing, fun d hd => Nat.lt_of_lt_of_le (hnext d hd) (le_nextOrder_readLines ..)⟩

/-- **All sources**: the directives of a ruleset that was read have increasing positions. -/
lemma Ruleset.IsRead.increasing (h : r.IsRead) :
    r.directives.Pairwise fun d e => d.order < e.order := by
  obtain ⟨mode, sources, rfl⟩ := h
  have hrun : ∀ (sources : List (String × String)) (reader : RulesetReader), reader.InOrder →
      (reader.addSources sources).InOrder := by
    intro sources
    induction sources with
    | nil => exact fun reader h => h
    | cons source sources ih => exact fun reader h => ih _ (h.addSource source.1 source.2)
  exact (hrun sources { mode } ⟨List.Pairwise.nil, fun d hd => absurd hd List.not_mem_nil⟩).1

/-- The ruleset of a text was read from one source. -/
lemma Ruleset.isRead_of_ofText (h : Ruleset.ofText mode name text = .ok r) : r.IsRead := by
  refine ⟨mode, [(name, text)], ?_⟩
  unfold Ruleset.ofText at h
  split at h
  · next reader hreader =>
    obtain rfl := Except.ok.inj h
    simp [RulesetReader.addSources, hreader]
  · cases h

/-- The ruleset of files was read from their texts. -/
lemma Ruleset.isRead_of_ofFiles (h : Ruleset.ofFiles mode files paths = .ok r) : r.IsRead := by
  have hrun : ∀ (paths : List String) (reader : RulesetReader),
      Ruleset.addFiles files reader paths = .ok r →
        ∃ sources, r = (reader.addSources sources).ruleset := by
    intro paths
    induction paths with
    | nil => exact fun reader h => ⟨[], (Except.ok.inj h).symm⟩
    | cons path paths ih =>
      intro reader h
      unfold Ruleset.addFiles at h
      split at h
      · cases h
      · next text _ =>
        split at h
        · next reader' hreader =>
          obtain ⟨sources, hsources⟩ := ih reader' h
          refine ⟨(path, text) :: sources, ?_⟩
          simpa [RulesetReader.addSources, hreader] using hsources
        · cases h
  obtain ⟨sources, hsources⟩ := hrun paths { mode } h
  exact ⟨mode, sources, hsources⟩

/-! ## Policies that were resolved -/

variable {c : Config} {inputs : Inputs} {p : Policy}

/-- Whether a policy was resolved from rules that were read, whatever the settings and inputs. -/
def Policy.IsResolved (p : Policy) : Prop :=
  ∃ (c : Config) (r : Ruleset) (inputs : Inputs), r.IsRead ∧ c.resolve r inputs = .ok p

/-- The policy of a text is that of rules that were read. -/
lemma Config.exists_isRead_of_resolveText (h : c.resolveText name text inputs = .ok p) :
    ∃ r : Ruleset, r.IsRead ∧ c.resolve r inputs = .ok p := by
  unfold resolveText at h
  split at h
  · next r hr => exact ⟨r, Ruleset.isRead_of_ofText hr, h⟩
  · cases h

/-- The policy of files is that of rules that were read. -/
lemma Config.exists_isRead_of_resolveFiles (h : c.resolveFiles files paths inputs = .ok p) :
    ∃ r : Ruleset, r.IsRead ∧ c.resolve r inputs = .ok p := by
  unfold resolveFiles at h
  split at h
  · next r hr => exact ⟨r, Ruleset.isRead_of_ofFiles hr, h⟩
  · cases h

/-- **The policies of texts and of files** were resolved from rules that were read. -/
lemma Policy.isResolved_of_resolve
    (h : (∃ name text, c.resolveText name text inputs = .ok p) ∨
      ∃ files paths, c.resolveFiles files paths inputs = .ok p) : p.IsResolved := by
  rcases h with ⟨name, text, h⟩ | ⟨files, paths, h⟩
  · obtain ⟨r, hread, hresolve⟩ := Config.exists_isRead_of_resolveText h
    exact ⟨c, r, inputs, hread, hresolve⟩
  · obtain ⟨r, hread, hresolve⟩ := Config.exists_isRead_of_resolveFiles h
    exact ⟨c, r, inputs, hread, hresolve⟩

/-- The rules of a policy that was resolved were read. -/
lemma Policy.IsResolved.isRead {p : Policy} (h : p.IsResolved) : p.ruleset.IsRead := by
  obtain ⟨c, r, inputs, hread, hresolve⟩ := h
  obtain rfl := Config.eq_policyOf_of_resolve hresolve
  exact hread

/-- **Every policy has rules that were read**, from a text or from files. -/
theorem Config.isRead_ruleset (c : Config) (inputs : Inputs) (p : Policy)
    (h : c.resolveText name text inputs = .ok p ∨ c.resolveFiles files paths inputs = .ok p) :
    p.ruleset.IsRead :=
  (Policy.isResolved_of_resolve (h.imp (⟨_, _, ·⟩) (⟨_, _, ·⟩))).isRead

/-! ## Rules with the same lines -/

/-- **The active directives are known from their lines**, apart from their places. -/
lemma Ruleset.IsRead.alike_of_map_line_eq (h : r.IsRead) (h' : r'.IsRead)
    (heq : r.activeDirectives.map Directive.line = r'.activeDirectives.map Directive.line) :
    Alike Directive.toStatement r.activeDirectives r'.activeDirectives := by
  have hlist : ∀ ds ds' : List Directive,
      (∀ d ∈ ds, d.active = true ∧ d.IsRead) → (∀ d ∈ ds', d.active = true ∧ d.IsRead) →
      ds.map Directive.line = ds'.map Directive.line → Alike Directive.toStatement ds ds' := by
    intro ds
    induction ds with
    | nil =>
      intro ds' _ _ heq
      rw [List.map_eq_nil_iff.1 heq.symm]
      rfl
    | cons d ds ih =>
      intro ds' hds hds' heq
      obtain ⟨d', ds', rfl, hline, hlines⟩ := List.map_eq_cons_iff.1 heq.symm
      obtain ⟨hactive, text, hread⟩ := hds d List.mem_cons_self
      obtain ⟨hactive', text', hread'⟩ := hds' d' List.mem_cons_self
      rw [Directive.line, Directive.line, if_pos hactive, if_pos hactive'] at hline
      exact Alike.cons_iff.2 ⟨d', ds', rfl, Statement.eq_of_line_eq hread hread' hline.symm,
        ih ds' (fun d hd => hds d (List.mem_cons_of_mem _ hd))
          (fun d hd => hds' d (List.mem_cons_of_mem _ hd)) hlines.symm⟩
  exact hlist _ _ (fun d hd => ⟨(List.mem_filter.1 hd).2, h.isRead_of_mem d hd⟩)
    (fun d hd => ⟨(List.mem_filter.1 hd).2, h'.isRead_of_mem d hd⟩) heq

namespace Policy

/-- The member `directives` of a summary holds the lines of the active directives. -/
lemma map_line_eq_of_summary {p p' : Policy}
    (h : p.summary.get? "directives" = p'.summary.get? "directives") :
    p.ruleset.activeDirectives.map Directive.line =
      p'.ruleset.activeDirectives.map Directive.line := by
  have hmember : ∀ p : Policy, p.summary.get? "directives" =
      some (.strings (p.ruleset.activeDirectives.map Directive.line)) := fun p => rfl
  rw [hmember, hmember, Option.some.injEq, Json.strings, Json.strings, Json.arr.injEq] at h
  exact List.map_injective_iff.2 (fun a b hab => Json.str.inj hab) h

/-- **The summary of a policy identifies its active directives.** Active directives that were read,
from whatever lines, are the same in kind, target, payload and platform if they have the same
canonical line. So two policies of which the summaries agree in their directives have rules with the
same succession of active directives, apart from positions and places. -/
theorem summary_identifies_directives :
    (∀ (d d' : Directive) (text text' : String), d.active = true → d'.active = true →
      Statement.ofLine text.toList = .ok d.toStatement →
      Statement.ofLine text'.toList = .ok d'.toStatement →
      d.line = d'.line → d.toStatement = d'.toStatement) ∧
    ∀ p p' : Policy, p.ruleset.IsRead → p'.ruleset.IsRead →
      p.summary.get? "directives" = p'.summary.get? "directives" →
      Alike Directive.toStatement p.ruleset.activeDirectives p'.ruleset.activeDirectives := by
  refine ⟨fun d d' text text' hactive hactive' h h' heq => ?_, fun p p' h h' heq => ?_⟩
  · rw [Directive.line, Directive.line, if_pos hactive, if_pos hactive'] at heq
    exact Statement.eq_of_line_eq h h' heq
  · exact h.alike_of_map_line_eq h' (map_line_eq_of_summary heq)

/-- Rules of one source, and of two, with the same lines of active directives: an import guard that
was read with an arrow has the line of the one that was read with a colon. -/
theorem summary_identifies_directives_importGuard :
    let d : Directive :=
      { kind := .importGuard, target := "A: B", payload := .module "C", order := 0, active := true,
        location := ⟨"rules", 1⟩ }
    let d' : Directive := { d with order := 4, location := ⟨"more", 2⟩ }
    let p := Config.release.policyOf (RulesetReader.addSources { mode := .strict }
      [("rules", "+iguard A: B-->C\n-class@linux X\n")]).ruleset {}
    let p' := Config.release.policyOf (RulesetReader.addSources { mode := .permissive }
      [("rules", "# -module M\n+iguard  A: B --> C"),
        ("more", "-function\n -class@linux\tX")]).ruleset {}
    d.line = d'.line ∧ d.toStatement = d'.toStatement ∧
      p.summary.get? "directives" = p'.summary.get? "directives" ∧
      Alike Directive.toStatement p.ruleset.activeDirectives p'.ruleset.activeDirectives := by
  intro d d' p p'
  have hread : Statement.ofLine "+iguard A: B-->C".toList = .ok d.toStatement := by decide +kernel
  have hread' : Statement.ofLine "+iguard A: B --> C".toList = .ok d'.toStatement := by
    decide +kernel
  have hlines : p.ruleset.activeDirectives.map Directive.line =
      p'.ruleset.activeDirectives.map Directive.line := by decide +kernel
  have hsummary : p.summary.get? "directives" = p'.summary.get? "directives" :=
    congrArg (fun lines => some (Json.strings lines)) hlines
  exact ⟨rfl, summary_identifies_directives.1 d d' _ _ rfl rfl hread hread' rfl, hsummary,
    summary_identifies_directives.2 p p' ⟨_, _, rfl⟩ ⟨_, _, rfl⟩ hsummary⟩

end Policy

end BindingRules
