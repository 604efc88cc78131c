import BindingRules.Proofs.SingleDirective
import BindingRules.Proofs.Spelling

set_option relaxedAutoImplicit false
set_option autoImplicit false

/-!
# Methods with the same name

A class can have several methods with one name, which differ in their parameters, and static methods
beside the others. A rule that names a method without parameters is about all of these. A rule with
parameters is about the methods that have the same ones, however these are laid out. A rule with an
underscore behind the name is about the static methods alone: such a target is taken literally, and
it is the second name of these methods.

All three targets begin with the path of the method. What stands behind it, without blanks, decides
which methods are left out.

## Main definitions

* `MethodPath`, `ParameterList` — how a method is addressed.
* `MethodPath.symbol` — a method in a symbol table.

## Main results

* `MethodPath.ofTarget_literal`, `MethodPath.ofTarget_text`, `MethodPath.ofTarget_overload` — what
  the three targets are about.
* `MethodPath.onlyRule` — which methods are left out by a single rule.
* `Config.overloads_leftOut` — the three rules.
-/

namespace BindingRules

open Text

variable {t u : List Char} {c : Char}

/-! ## How methods are addressed -/

/-- The path of a method: words, the last of which does not end in an underscore. -/
structure MethodPath where
  /-- The scopes around the method, outermost first. -/
  scopes : List String
  /-- The identifier of the method. -/
  method : Identifier
  /-- The scopes are words. -/
  isWord : ∀ scope ∈ scopes, IsWord scope.toList
  /-- The path is not taken literally. -/
  not_literal : method.text.toList.getLast? ≠ some '_'

/-- A parameter list in its parentheses. -/
structure ParameterList extends ParameterText where
  /-- It ends with a parenthesis. -/
  closed : text.toList.getLast? = some ')'

/-- The parameter list without its blanks. -/
def ParameterList.withoutBlanks (q : ParameterList) : String :=
  String.ofList (q.text.toList.filter fun c => !isBlank c)

namespace MethodPath

/-- The words of the path. -/
def words (m : MethodPath) : List (List Char) :=
  m.scopes.map String.toList ++ [m.method.text.toList]

/-- The path as a text. -/
def text (m : MethodPath) : String := String.ofList (joinScope m.words)

/-- A method with the path and a parameter list. -/
def symbol (m : MethodPath) (kind : SymbolKind) (q : ParameterList) (returnType : Option String) :
    Symbol :=
  { kind, name := m.text, signature := some q.text, returnType }

/-- The name that the path stands for, with a signature or without. -/
def name (m : MethodPath) (signature : Option String) : Name :=
  .path ⟨m.words.map fun t => .exact (String.ofList t), signature⟩

variable (m : MethodPath) (q rule : ParameterList)

/-! ## The text of a path -/

/-- The text of a path is its words with separators between them. -/
lemma toList_text : m.text.toList = joinScope m.words := String.toList_ofList

/-- All parts of a path are words, that for the method included. -/
lemma isWord_of_mem (ht : t ∈ m.words) : IsWord t := by
  rcases List.mem_append.1 ht with ht | ht
  · obtain ⟨scope, hscope, rfl⟩ := List.mem_map.1 ht
    exact m.isWord scope hscope
  · obtain rfl := List.mem_singleton.1 ht
    exact ⟨m.method.ne_nil, m.method.chars⟩

/-- A path has a first word, and all of its parts are words. -/
lemma exists_words : ∃ w ws, m.words = w :: ws ∧ ∀ t ∈ w :: ws, IsWord t := by
  obtain ⟨w, ws, hwords⟩ := List.exists_cons_of_ne_nil (l := m.words) (by simp [words])
  exact ⟨w, ws, hwords, fun t ht => m.isWord_of_mem (hwords ▸ ht)⟩

/-- There are no blanks around a path. -/
lemma tight_text : Tight m.text.toList := by
  obtain ⟨w, ws, hwords, hword⟩ := m.exists_words
  rw [toList_text, hwords]
  exact tight_joinScope fun t ht => (hword t ht).tight

/-- A path does not begin with a colon. -/
lemma head?_text : m.text.toList.head? ≠ some ':' := by
  obtain ⟨w, ws, hwords, hword⟩ := m.exists_words
  have hw : IsWord w := hword w List.mem_cons_self
  obtain ⟨c, hc⟩ := Option.ne_none_iff_exists'.1 (mt List.head?_eq_none_iff.1 hw.ne_nil)
  rw [toList_text, hwords, head?_joinScope hc]
  intro hcolon
  obtain rfl := Option.some.inj hcolon
  exact hw.notMem (by decide) (List.mem_of_mem_head? hc)

/-- The text of a path ends in the identifier of the method. -/
lemma exists_text_eq : ∃ front, m.text.toList = front ++ m.method.text.toList ∧
    ∀ c, front.getLast? = some c → c = ':' := by
  rw [toList_text]
  exact exists_joinScope_concat (m.scopes.map String.toList) m.method.text.toList

/-- A path does not end in an underscore. -/
lemma getLast?_text : m.text.toList.getLast? ≠ some '_' := by
  obtain ⟨front, htext, -⟩ := m.exists_text_eq
  rw [htext, List.getLast?_append_of_ne_nil _ m.method.ne_nil]
  exact m.not_literal

/-- Parentheses behind a path do not belong to the call operator. -/
lemma not_operatorWord_isSuffix : ¬ operatorWord <:+ m.text.toList := by
  obtain ⟨front, htext, hfront⟩ := m.exists_text_eq
  rw [htext]
  intro h
  refine m.method.not_operator (operatorWord_isSuffix_of_append ?_ h).isInfix
  intro c hc
  rw [hfront c hc]
  decide

/-- There is no line feed in a path. -/
lemma notMem_text : '\n' ∉ m.text.toList := by
  intro h
  rw [toList_text] at h
  rcases of_mem_joinScope h with hcolon | ⟨t, ht, hmem⟩
  · exact absurd hcolon (by decide)
  · exact absurd ((m.isWord_of_mem ht).spec hmem).1 (by decide)

/-- The words of a path are cut nowhere. -/
lemma uncut_words (first : Bool) : ∀ t ∈ m.words, Uncut first t := fun _ ht =>
  (m.isWord_of_mem ht).uncut

/-- The text of a path is cut into its words. -/
lemma splitScope_text : Name.splitScope m.text.toList = some m.words := by
  rw [toList_text]
  exact Name.splitScope_joinScope (by simp [words]) m.uncut_words fun t ht =>
    (m.isWord_of_mem (List.dropLast_subset _ ht)).getLast?_ne_colon

/-- What stands behind a path is cut off if it begins with a parenthesis. -/
lemma splitSignature_append (hu : u = [] ∨ u.head? = some '(') :
    Name.splitSignature (m.text.toList ++ u) =
      (m.text.toList, if u = [] then none else some u) := by
  have htight := m.tight_text
  have hword := m.not_operatorWord_isSuffix
  rw [toList_text] at htight hword ⊢
  exact Name.splitSignature_joinScope (by simp [words]) m.uncut_words htight hword hu

/-! ## The names that are read -/

/-- Nothing is taken off a path with something tight behind it. -/
lemma strip_append (htight : Tight (m.text.toList ++ u)) :
    Name.strip (m.text.toList ++ u) = m.text.toList ++ u := by
  have hcolon : (m.text.toList ++ u).head? ≠ some ':' := by
    rw [List.head?_append_of_ne_nil _ m.tight_text.ne_nil]
    exact m.head?_text
  have hblank : ∀ c ∈ ([] : List Char), isBlank c = true := List.forall_mem_nil _
  simpa using Name.strip_blank_append htight hcolon false hblank hblank

/-- A path is read as its words, and what stands behind it as a signature. -/
lemma normalize_append (htail : u = [] ∨ u.head? = some '(')
    (htight : Tight (m.text.toList ++ u))
    (hlast : (m.text.toList ++ u).getLast? ≠ some '_') :
    Name.normalize (String.ofList (m.text.toList ++ u)) = .ok (m.name
      ((if u = [] then none else some u).map fun t =>
        String.ofList (t.filter fun c => !isBlank c))) := by
  have hsegments : m.words.map Segment.ofChars =
      m.words.map fun t => .exact (String.ofList t) :=
    List.map_congr_left fun t ht => (m.isWord_of_mem ht).ofChars_eq
  rw [Name.normalize, String.toList_ofList, m.strip_append htight, name,
    Name.ofStripped_eq_path_iff]
  refine ⟨htight.ne_nil, hlast, m.text.toList, _, m.words, m.splitSignature_append htail,
    m.splitScope_text, fun t ht => ?_, by rw [hsegments]⟩
  have hword := (m.isWord_of_mem ht).tight
  rw [hword.trim_eq]
  exact hword.ne_nil

/-- A path alone is read as a name without signature. -/
lemma normalize_text : Name.normalize m.text = .ok (m.name none) := by
  have hread := m.normalize_append (u := []) (.inl rfl) (by simpa using m.tight_text)
    (by simpa using m.getLast?_text)
  simpa using hread

end MethodPath

/-- There are no blanks around a parameter list. -/
lemma ParameterList.tight (q : ParameterList) : Tight q.text.toList := by
  obtain ⟨cs, hcs⟩ := List.head?_eq_some_iff.1 q.parenthesis
  obtain ⟨ds, hds⟩ := List.getLast?_eq_some_iff.1 q.closed
  have hclose : Tight [')'] := ⟨by decide, by decide⟩
  have hstart : trimStart q.text.toList = q.text.toList := by
    rw [hcs]
    exact trimStart_cons_eq_self.2 (by decide)
  refine ⟨by simp [hcs], ?_⟩
  rw [trim, hstart, hds]
  exact hclose.trimEnd_append ds

namespace MethodPath

variable (m : MethodPath) (q rule : ParameterList)

/-- There are no blanks around a path with a parameter list behind it. -/
lemma tight_overload : Tight (m.text.toList ++ q.text.toList) := by
  simpa using m.tight_text.append q.tight []

/-- A path with a parameter list is read as a name with a signature. -/
lemma normalize_overload :
    Name.normalize (m.text ++ q.text) = .ok (m.name (some q.withoutBlanks)) := by
  have hne : q.text.toList ≠ [] := q.tight.ne_nil
  have hlast : (m.text.toList ++ q.text.toList).getLast? ≠ some '_' := by
    rw [List.getLast?_append_of_ne_nil _ hne, q.closed]
    decide
  have hread := m.normalize_append (.inr q.parenthesis) (m.tight_overload q) hlast
  rw [if_neg hne, String.ofList_append, String.ofList_toList, String.ofList_toList] at hread
  exact hread

/-- There are no blanks around a path with an underscore behind it. -/
lemma tight_literal : Tight (m.text.toList ++ ['_']) := by
  have hunderscore : Tight ['_'] := ⟨by decide, by decide⟩
  simpa using m.tight_text.append hunderscore []

/-- A path with an underscore behind it is taken literally. -/
lemma normalize_literal : Name.normalize (m.text ++ "_") = .ok (.literal (m.text ++ "_")) := by
  have hchars : (m.text ++ "_").toList = m.text.toList ++ ['_'] := String.toList_append
  rw [Name.normalize, hchars, m.strip_append m.tight_literal, Name.ofStripped_eq_literal_iff]
  exact ⟨List.getLast?_concat, by rw [← hchars, String.ofList_toList]⟩

/-! ## Keys -/

/-- There are no wildcards in the name of a path. -/
lemma isPattern_name (signature : Option String) : (m.name signature).isPattern = false := by
  simp [name, Name.isPattern, Segment.isGlob]

/-- The key of a path's name is the text of the path, with the signature behind it. -/
lemma key_name (signature : Option String) :
    (m.name signature).key = m.text ++ signature.getD "" := by
  have hwords : (m.words.map fun t => Segment.exact (String.ofList t)).map Segment.chars =
      m.words := by
    simp [Function.comp_def, Segment.chars]
  rw [Name.key, name, Name.keyChars, hwords]
  cases signature <;> simp [text, String.ofList_append]

/-- A method is looked up with its parameters and without them. -/
lemma lookupKeys_name (signature : String) :
    (m.name (some signature)).lookupKeys = [m.text ++ signature, m.text] := by
  have hbare : (m.name (some signature)).withoutSignature = some (m.name none) := rfl
  rw [Name.lookupKeys, hbare, key_name, Option.map_some, key_name]
  simp

/-- The second name of a static method has an underscore behind the path. -/
lemma staticVariant_name (signature : String) :
    (m.name (some signature)).staticVariant = .literal (m.text ++ "_") := by
  have hbare : (m.name (some signature)).withoutSignature = some (m.name none) := rfl
  have hkey : (m.name none).keyChars = m.text.toList := by
    have hkey := m.key_name none
    rw [Name.key, Option.getD_none, String.append_empty] at hkey
    rw [← hkey, String.toList_ofList]
  rw [Name.staticVariant, hbare, Option.getD_some, hkey, String.ofList_append,
    String.ofList_toList]

/-- A target with an underscore behind the path is about the second name of a static method. -/
lemma ofTarget_literal : Address.ofTarget (m.text ++ "_") = .key (m.text ++ "_") := by
  simp [Address.ofTarget, normalize_literal, Name.isPattern, Name.key, Name.keyChars]

/-- A target that is a path is about all methods with the path. -/
lemma ofTarget_text : Address.ofTarget m.text = .key (m.text ++ "") := by
  simp [Address.ofTarget, normalize_text, isPattern_name, key_name]

/-- A target with a parameter list is about the methods with the same parameters. -/
lemma ofTarget_overload :
    Address.ofTarget (m.text ++ q.text) = .key (m.text ++ q.withoutBlanks) := by
  simp [Address.ofTarget, normalize_overload, isPattern_name, key_name]

end MethodPath

/-! ## Rules for functions -/

/-- The statement that excludes a function. -/
def Statement.functionExclude (target : String) : Statement :=
  { kind := .functionExclude, target, payload := .absent }

/-- A line for a function is read as the statement that excludes it. -/
lemma Statement.ofLine_function {target : String} {n : Name} (htight : Tight target.toList)
    (hn : Name.normalize target = .ok n) :
    ofLine ("-function " ++ target).toList = .ok (functionExclude target) := by
  have hline : ("-function " ++ target).toList =
      '-' :: ("function".toList ++ ' ' :: target.toList) := by
    simp [String.toList_append]
  have hletters : ("function".toList.all fun c => !isBlank c) = true := by decide
  have hword : ∀ c ∈ "function".toList, isBlank c = false := fun c hc => by
    simpa using List.all_eq_true.1 hletters c hc
  obtain ⟨htake, hdrop⟩ := takeWhile_dropWhile_word hword target.toList
  have hverb : splitVerb '-' "function".toList = .ok ("function".toList, none) := by decide +kernel
  rw [hline, ofLine, if_pos (by decide), ofSigned_eq_ok_iff, htake, hdrop, trim_space_cons htight]
  refine ⟨"function".toList, .functionExclude, [], hverb, by decide +kernel, rfl,
    htight.ne_nil, by simp [splitBody, splitTarget?, DirectiveKind.shape, functionExclude], rfl, ?_⟩
  simp [checkTarget, functionExclude, takesAnyTarget, hn]

/-- Symbols that can be called are excluded as functions. -/
lemma exclusionOf_of_isCallable {kind : SymbolKind} (h : kind.isCallable = true) :
    Policy.exclusionOf kind = .functionExclude := by
  cases kind with
  | function | method | staticMethod | constructor => rfl
  | _ => cases h

namespace MethodPath

variable (m : MethodPath) (q rule : ParameterList)

/-- **Which methods with a path are left out by a single rule** depends on what stands behind the
path in the key of its target: all of them, those with some parameters, or the static ones. -/
lemma onlyRule {target tail : String} {n : Name} (htight : Tight target.toList)
    (hbreak : '\n' ∉ target.toList) (hn : Name.normalize target = .ok n)
    (htarget : Address.ofTarget target = .key (m.text ++ tail)) (returnType : Option String) :
    Config.OnlyRule ("-function " ++ target) fun p => ∀ kind : SymbolKind, kind.isCallable = true →
      (p.isSymbolExcluded (m.symbol kind q returnType) = true ↔
        tail = q.withoutBlanks ∨ tail = "" ∨ kind = .staticMethod ∧ tail = "_") := by
  have hread := Statement.ofLine_function htight hn
  constructor
  · have hline : ("-function " ++ target).toList =
        "-function".toList ++ [' '] ++ target.toList := by
      simp [String.toList_append]
    have hopening : Tight "-function".toList := ⟨by decide, by decide⟩
    refine fun c source inputs hpermissive =>
      c.exists_restsOn source inputs hpermissive ?_ ?_ hread
    · rw [hline]
      simp [hbreak]
    · rw [hline]
      exact hopening.append htight [' ']
  · intro p hp kind hcallable
    obtain ⟨d, hd, halone⟩ := hp.exists_admitted hread rfl
    have hkind : d.kind = .functionExclude := congrArg Statement.kind hd
    have hconcerns : ∀ n : Name, d.toStatement.concerns .functionExclude n =
        n.lookupKeys.contains (m.text ++ tail) := by
      intro n
      have hdtarget : d.target = target := congrArg Statement.target hd
      simp [Statement.concerns, hkind, hdtarget, htarget]
    have hname : (m.symbol kind q returnType).qualifiedName =
        .ok (m.name (some q.withoutBlanks)) := m.normalize_overload q
    have hnames : (m.symbol kind q returnType).candidates = .ok (m.name (some q.withoutBlanks) ::
        if kind = .staticMethod then [(m.name (some q.withoutBlanks)).staticVariant] else []) :=
      (Symbol.candidates_eq_ok_iff hcallable).2 ⟨_, hname, rfl⟩
    have htext : d.fitsText d.kind (m.symbol kind q returnType) = false := by
      simp [Directive.fitsText, hkind]
    have hexclusion : Policy.exclusionOf (m.symbol kind q returnType).kind = .functionExclude :=
      exclusionOf_of_isCallable hcallable
    have hliteral : (Name.literal (m.text ++ "_")).lookupKeys = [m.text ++ "_"] := by
      simp [Name.lookupKeys, Name.withoutSignature, Name.key, Name.keyChars]
    rw [Policy.isSymbolExcluded_alone hp.1.reflects halone (by simp [hkind]) (by simp [hkind]),
      hexclusion, htext]
    simp only [hnames, Except.ok.injEq, exists_eq_left', hconcerns, Bool.false_eq_true, or_false,
      List.exists_mem_cons_iff, lookupKeys_name, staticVariant_name, List.contains_iff_mem]
    by_cases hstatic : kind = .staticMethod
    · simp [hstatic, hliteral, or_assoc]
    · simp [hstatic]

end MethodPath

/-- A parameter list begins with its parenthesis, also without its blanks. -/
lemma ParameterList.head?_withoutBlanks (q : ParameterList) :
    q.withoutBlanks.toList.head? = some '(' := by
  obtain ⟨cs, hcs⟩ := List.head?_eq_some_iff.1 q.parenthesis
  have hparen : isBlank '(' = false := by decide
  simp [withoutBlanks, hcs, hparen]

/-- A parameter list is neither nothing nor an underscore. -/
lemma ParameterList.withoutBlanks_ne (q : ParameterList) :
    q.withoutBlanks ≠ "" ∧ q.withoutBlanks ≠ "_" := by
  constructor <;> intro h <;> exact absurd (h ▸ q.head?_withoutBlanks) (by decide)

namespace Config

/-- **How methods with one name are told apart.** Let a path of words end in one that does not end
in an underscore, and let `q` be a parameter list. Under permissive settings, each of three lines is
resolved to a policy that rests on it. Whatever the settings and inputs are, a rule with an
underscore behind the path leaves out the static method with the parameters `q` and not the instance
method, a rule with the path alone leaves out both, and a rule with a parameter list behind the path
leaves out both if its parameters are `q`, apart from blanks, and neither of them otherwise.

**Proof sketch.** The path is cut nowhere, and the parameter list is cut off behind it. So all
targets and names have keys that begin with the path, and a target is about a name if what stands
behind the path is the same, or nothing. -/
theorem overloads_leftOut (m : MethodPath) (q : ParameterList) (returnType : Option String) :
    OnlyRule ("-function " ++ (m.text ++ "_")) (fun p =>
      p.isSymbolExcluded (m.symbol .staticMethod q returnType) = true ∧
        p.isSymbolExcluded (m.symbol .method q returnType) = false) ∧
    OnlyRule ("-function " ++ m.text) (fun p =>
      p.isSymbolExcluded (m.symbol .staticMethod q returnType) = true ∧
        p.isSymbolExcluded (m.symbol .method q returnType) = true) ∧
    ∀ rule : ParameterList, '\n' ∉ rule.text.toList →
      OnlyRule ("-function " ++ (m.text ++ rule.text)) fun p =>
        (p.isSymbolExcluded (m.symbol .staticMethod q returnType) = true ↔
          q.withoutBlanks = rule.withoutBlanks) ∧
        (p.isSymbolExcluded (m.symbol .method q returnType) = true ↔
          q.withoutBlanks = rule.withoutBlanks) := by
  have hstatic : SymbolKind.staticMethod.isCallable = true := rfl
  have hmethod : SymbolKind.method.isCallable = true := rfl
  refine ⟨?_, ?_, fun rule hbreak => ?_⟩
  · refine (m.onlyRule q (by simpa [String.toList_append] using m.tight_literal) ?_
      m.normalize_literal m.ofTarget_literal returnType).imp fun p hp => ⟨?_, ?_⟩
    · simp [String.toList_append, m.notMem_text]
    · exact (hp _ hstatic).2 (.inr (.inr ⟨rfl, rfl⟩))
    · rw [Bool.eq_false_iff]
      intro hexcluded
      rcases (hp _ hmethod).1 hexcluded with htail | htail | ⟨hkind, -⟩
      · exact q.withoutBlanks_ne.2 htail.symm
      · exact absurd htail (by decide)
      · cases hkind
  · refine (m.onlyRule q m.tight_text m.notMem_text m.normalize_text m.ofTarget_text
      returnType).imp fun p hp => ⟨?_, ?_⟩
    · exact (hp _ hstatic).2 (.inr (.inl rfl))
    · exact (hp _ hmethod).2 (.inr (.inl rfl))
  · have hnot : ∀ kind : SymbolKind, (rule.withoutBlanks = q.withoutBlanks ∨
        rule.withoutBlanks = "" ∨ kind = .staticMethod ∧ rule.withoutBlanks = "_") ↔
          q.withoutBlanks = rule.withoutBlanks := by
      intro kind
      simp [rule.withoutBlanks_ne, eq_comm]
    refine (m.onlyRule q (by simpa [String.toList_append] using m.tight_overload rule) ?_
      (m.normalize_overload rule) (m.ofTarget_overload rule) returnType).imp fun p hp => ⟨?_, ?_⟩
    · simp [String.toList_append, m.notMem_text, hbreak]
    · rw [hp _ hstatic, hnot]
    · rw [hp _ hmethod, hnot]

/-- A rule for one of two overloads of a static method, which has its parameters in another
layout. -/
theorem overloads_leftOut_intLinLin :
    let m : MethodPath :=
      { scopes := ["BRepMesh_GeomTool"]
        method := ⟨"IntLinLin", by decide, by decide, by decide +kernel⟩
        isWord := List.forall_mem_singleton.2 ⟨by decide, by decide⟩
        not_literal := by decide }
    let q : ParameterList := ⟨⟨"(gp_XY, gp_XY)", by decide⟩, by decide⟩
    let q' : ParameterList := ⟨⟨"(gp_XY)", by decide⟩, by decide⟩
    let rule : ParameterList := ⟨⟨"(gp_XY,gp_XY )", by decide⟩, by decide⟩
    '\n' ∉ rule.text.toList ∧
      "-function " ++ (m.text ++ rule.text) =
        "-function BRepMesh_GeomTool::IntLinLin(gp_XY,gp_XY )" ∧
      ∃ p, resolveText {} "rules" "-function BRepMesh_GeomTool::IntLinLin(gp_XY,gp_XY )" {} =
          .ok p ∧
        p.isSymbolExcluded (m.symbol .staticMethod q none) = true ∧
        p.isSymbolExcluded (m.symbol .staticMethod q' none) = false := by
  intro m q q' rule
  have hbreak : '\n' ∉ rule.text.toList := by decide +kernel
  have hline : "-function " ++ (m.text ++ rule.text) =
      "-function BRepMesh_GeomTool::IntLinLin(gp_XY,gp_XY )" := by decide +kernel
  have hsame : q.withoutBlanks = rule.withoutBlanks := by decide +kernel
  have hother : q'.withoutBlanks ≠ rule.withoutBlanks := by decide +kernel
  obtain ⟨hrun, hall⟩ := (overloads_leftOut m q none).2.2 rule hbreak
  obtain ⟨p, hp, hrests⟩ := hrun {} "rules" {} rfl
  have hnot := (((overloads_leftOut m q' none).2.2 rule hbreak).2 p hrests).1
  refine ⟨hbreak, hline, p, hline ▸ hp, (hall p hrests).1.2 hsame, ?_⟩
  rw [Bool.eq_false_iff]
  exact fun hexcluded => hother (hnot.1 hexcluded)

end Config

end BindingRules
