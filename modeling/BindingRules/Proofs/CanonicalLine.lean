import BindingRules.Directive.Basic
import BindingRules.Proofs.Separators

set_option relaxedAutoImplicit false
set_option autoImplicit false

/-!
# Canonical lines

The canonical line of a statement that was read from a line is the line of the same statement, with
one exception: an import guard may be written with an arrow behind its target, its canonical line
has a colon there. A target with a colon of its own, or a module that holds an arrow, is then cut at
another place.

A line is cut into sign, verb with platform, and body. Of the canonical line the first parts are
those that were read, so that only the body has to be followed: the value is the same when it is
read again, and it is found again behind the separator.

## Main definitions

* `Statement.bodyText` — the body of the canonical line.
* `Statement.Recoverable` — statements of which target and value can be told apart in the canonical
  line.

## Main results

* `Text.readSigned64?_toString` — integers are read back from their decimal form.
* `Statement.readPayload_shown` — values are read back from the text that shows them.
* `Statement.splitBody_bodyText_iff` — which bodies are cut into the same target and value.
* `Directive.ofLine_line_iff`, `Statement.recoverable_of_not_isInfix` — which canonical lines are
  lines of the same statement.
-/

namespace BindingRules.Text

/-! ## Integers -/

variable {n : Int} {c : Char}

/-- The characters of a decimal number are digits. -/
lemma isDecimalDigit_of_mem_toDigits {m : Nat} (h : c ∈ Nat.toDigits 10 m) :
    isDecimalDigit c = true := by
  have := Char.isDigit_iff_toNat.1 (Nat.isDigit_of_mem_toDigits (by decide) (by decide) h)
  simpa [isDecimalDigit] using this

/-- A number is read back from its digits. -/
lemma readNat?_toDigits (m : Nat) : readNat? (Nat.toDigits 10 m) = some m := by
  have hdigits : (Nat.toDigits 10 m).all isDecimalDigit = true :=
    List.all_eq_true.2 fun c hc => isDecimalDigit_of_mem_toDigits hc
  have hvalue : digitsValue (Nat.toDigits 10 m) = m := Nat.ofDigitChars_ten_toDigits
  simp [readNat?, hdigits, hvalue, Nat.toDigits_ne_nil]

/-- The decimal form of an integer is made of its digits, perhaps behind a minus sign. -/
lemma toList_toString (n : Int) : (toString n).toList =
    if 0 ≤ n then Nat.toDigits 10 n.toNat else '-' :: Nat.toDigits 10 (-n).toNat := by
  rw [Int.toString_eq_repr, Int.repr_eq_if]
  split <;> simp [String.toList_append]

/-- Digits are read as a number, not as an integer with a sign. -/
lemma readInt?_eq_readNat? {s : List Char} (h : ∀ c ∈ s, isDecimalDigit c = true) :
    readInt? s = (readNat? s).map Int.ofNat := by
  rw [readInt?.eq_def]
  split
  · exact absurd (h '+' List.mem_cons_self) (by decide)
  · exact absurd (h '-' List.mem_cons_self) (by decide)
  · rfl

/-- An integer is read back from its decimal form. -/
lemma readInt?_toString (n : Int) : readInt? (toString n).toList = some n := by
  rw [toList_toString]
  split
  · next hn =>
    rw [readInt?_eq_readNat? fun c hc => isDecimalDigit_of_mem_toDigits hc, readNat?_toDigits]
    simp [Int.toNat_of_nonneg hn]
  · next hn =>
    rw [readInt?, readNat?_toDigits]
    simp [Int.toNat_of_nonneg (show 0 ≤ -n by omega)]

/-- **A machine integer is read back from its decimal form.** -/
lemma readSigned64?_toString (h : fitsSigned64 n = true) :
    readSigned64? (toString n).toList = some n := by
  rw [readSigned64?, readInt?_toString, Option.filter_some, if_pos h]

/-- The characters of an integer are digits and the minus sign. -/
lemma of_mem_toString (h : c ∈ (toString n).toList) : c = '-' ∨ isDecimalDigit c = true := by
  rw [toList_toString] at h
  split at h
  · exact .inr (isDecimalDigit_of_mem_toDigits h)
  · exact (List.mem_cons.1 h).imp_right isDecimalDigit_of_mem_toDigits

/-- A digit is no blank. -/
lemma isBlank_of_isDecimalDigit (h : isDecimalDigit c = true) : isBlank c = false := by
  simp only [isDecimalDigit, Bool.and_eq_true, decide_eq_true_eq] at h
  have hlow : 0x30 ≤ c.toNat := h.1
  have hhigh : c.toNat ≤ 0x39 := h.2
  simp [isBlank]
  omega

/-- There are no blanks in or around an integer. -/
lemma tight_toString (n : Int) : Tight (toString n).toList := by
  refine tight_of_not_isBlank ?_ fun c hc => ?_
  · rw [toList_toString]
    split <;> simp [Nat.toDigits_ne_nil]
  · rcases of_mem_toString hc with rfl | hdigit
    · rfl
    · exact isBlank_of_isDecimalDigit hdigit

/-- There is no equals sign in an integer. -/
lemma equals_notMem_toString (n : Int) : '=' ∉ (toString n).toList := by
  intro h
  rcases of_mem_toString h with h | h <;> exact absurd h (by decide)

end BindingRules.Text

namespace BindingRules.Statement

open Text

variable {kind kind' : DirectiveKind} {payload : Payload} {value body target : List Char} {n : Int}

/-! ## Values -/

/-- What a computation gives when its result is changed comes from a result that it gives itself. -/
lemma exists_of_map_eq_ok {ε α β : Type} {f : α → β} {x : Except ε α} {y : β}
    (h : x.map f = .ok y) : ∃ a, x = .ok a ∧ f a = y := by
  cases x with
  | error e => cases h
  | ok a => exact ⟨a, rfl, Except.ok.inj h⟩

/-- A computation behind another one gives something only if the first one does. -/
lemma exists_of_bind_eq_ok {ε α β : Type} {x : Except ε α} {f : α → Except ε β} {y : β}
    (h : x >>= f = .ok y) : ∃ a, x = .ok a ∧ f a = .ok y := by
  cases x with
  | error e => cases h
  | ok a => exact ⟨a, rfl, h⟩

/-- The arrow is no beginning of what follows a part of itself. -/
lemma borderless_arrow : Borderless arrow := by
  intro p q hp hq hpq hbegins
  have hends : ∀ k : Fin 3, 0 < k.1 → ¬ arrow.drop k <+: arrow := by decide
  have hlength : p.length + q.length = 3 := by rw [← List.length_append, ← hpq]; rfl
  have hp := List.length_pos_iff.2 hp
  have hq := List.length_pos_iff.2 hq
  refine hends ⟨p.length, by omega⟩ hp ?_
  simpa [hpq] using hbegins

/-- There are no blanks around an arrow. -/
lemma tight_arrow : Tight arrow := ⟨by simp [arrow], rfl⟩

/-- A blank in front of a text without blanks around it is all that is trimmed. -/
lemma trim_space_cons {t : List Char} (h : Tight t) : trim (' ' :: t) = t := by
  have hspace : ∀ c ∈ [' '], isBlank c = true := fun c hc => by rw [List.mem_singleton.1 hc]; rfl
  exact (trim_blank_append hspace t).trans h.trim_eq

/-- A priority that was read is a machine integer. -/
lemma fitsSigned64_of_readPriority (h : readPriority value = .ok n) : fitsSigned64 n = true := by
  simp only [readPriority] at h
  split at h
  · next m hm =>
    obtain rfl := Except.ok.inj h
    exact (Option.filter_eq_some_iff.1 hm).2
  · cases h

/-- A priority is read back from its decimal form. -/
lemma readPriority_toString (h : fitsSigned64 n = true) :
    readPriority (toString n).toList = .ok n := by
  rw [readPriority, (tight_toString n).trim_eq, readSigned64?_toString h]

/-- A priority for symbols is read back from its pattern and its number. -/
lemma readPatternPriority_shown {pattern priority : List Char}
    (h : readPatternPriority pattern priority = .ok payload) :
    Tight payload.shown.toList ∧ ∃ pattern' priority',
      splitOnceLast? ['='] payload.shown.toList = some (pattern', priority') ∧
      readPatternPriority pattern' priority' = .ok payload := by
  simp only [readPatternPriority] at h
  split at h
  · cases h
  · next hpattern =>
    obtain ⟨m, hm, rfl⟩ := exists_of_map_eq_ok h
    have hfits := fitsSigned64_of_readPriority hm
    have htight : Tight (trim pattern) := tight_trim (by simpa using hpattern)
    have hshown : (Payload.patternPriority (String.ofList (trim pattern)) m).shown.toList =
        trim pattern ++ ['='] ++ (toString m).toList := by
      simp [Payload.shown, String.toList_append]
    rw [hshown]
    refine ⟨htight.append (tight_toString m) _, trim pattern, (toString m).toList, ?_, ?_⟩
    · rw [List.append_assoc, List.singleton_append]
      exact splitOnceLast?_append (equals_notMem_toString m) _
    · rw [readPatternPriority, htight.trim_eq, readPriority_toString hfits, if_neg hpattern]
      rfl

/-- A replacement is read back from its two texts. -/
lemma readReplacement_shown (h : readReplacement value = .ok payload) :
    Tight payload.shown.toList ∧ readReplacement payload.shown.toList = .ok payload := by
  simp only [readReplacement] at h
  split at h
  · cases h
  · next find put hsplit =>
    split at h
    · cases h
    · next hfind =>
      obtain rfl := Except.ok.inj h
      have htight : Tight (trim find) := tight_trim (by simpa using hfind)
      have harrow : ¬ arrow <:+: trim find := fun hpart =>
        notMem_of_splitOnce? (by decide) hsplit (hpart.trans (trim_isInfix find))
      have hshown : (Payload.replacement (String.ofList (trim find))
          (String.ofList (trim put))).shown.toList = trim find ++ arrow ++ trim put := by
        simp [Payload.shown, String.toList_append, arrow]
      rw [hshown]
      constructor
      · by_cases hput : trim put = []
        · rw [hput, List.append_nil]
          exact ⟨by simp [arrow], by
            rw [trim, htight.trimStart_append]
            exact tight_arrow.trimEnd_append _⟩
        · exact htight.append (tight_trim hput) _
      · rw [readReplacement, splitOnce?_append (by decide) borderless_arrow harrow]
        simp only [htight.trim_eq, trim_trim, if_neg hfind]

/-- A priority of either kind is read back from the text that shows it. -/
lemma readPayload_sortPriority_shown (h : readPayload .sortPriority value = .ok (kind', payload)) :
    Tight payload.shown.toList ∧
      readPayload .sortPriority payload.shown.toList = .ok (kind', payload) := by
  simp only [readPayload] at h
  split at h
  · next pattern priority hsplit =>
    obtain ⟨read, hread, heq⟩ := exists_of_map_eq_ok h
    obtain ⟨rfl, rfl⟩ := Prod.mk.inj heq
    obtain ⟨htight, pattern', priority', hsplit', hread'⟩ := readPatternPriority_shown hread
    exact ⟨htight, by simp [readPayload, hsplit', hread', Except.map]⟩
  · obtain ⟨m, hread, heq⟩ := exists_of_map_eq_ok h
    obtain ⟨rfl, rfl⟩ := Prod.mk.inj heq
    have hfits := fitsSigned64_of_readPriority hread
    simp only [Payload.shown, readPayload]
    rw [splitOnceLast?_eq_none (equals_notMem_toString m), readPriority_toString hfits]
    exact ⟨tight_toString m, rfl⟩

/-- **A value is read back from the text that shows it.** -/
lemma readPayload_shown (h : readPayload kind value = .ok (kind', payload))
    (hshape : kind.shape ≠ .bare) (hvalue : Tight value) :
    Tight payload.shown.toList ∧ readPayload kind payload.shown.toList = .ok (kind', payload) := by
  cases kind with
  | headerAdd | headerRemove | nameOverride | topComment | returnPolicy | keepAlive | beforeModule
  | beforeType | afterType | baseExclude | compilerArg =>
    -- the value is taken as it stands
    obtain ⟨rfl, rfl⟩ := Prod.mk.inj (Except.ok.inj h)
    simpa [Payload.shown, readPayload] using hvalue
  | importGuard | callGuard | importExclude =>
    simp only [readPayload] at h
    split at h
    · cases h
    · next hblank =>
      obtain ⟨rfl, rfl⟩ := Prod.mk.inj (Except.ok.inj h)
      simpa [Payload.shown, readPayload, hblank] using hvalue
  | sortPriority | symbolPriority => exact readPayload_sortPriority_shown h
  | patch =>
    obtain ⟨read, hread, heq⟩ := exists_of_map_eq_ok h
    obtain ⟨rfl, rfl⟩ := Prod.mk.inj heq
    obtain ⟨htight, hread'⟩ := readReplacement_shown hread
    exact ⟨htight, by simp [readPayload, hread', Except.map]⟩
  | _ => exact absurd rfl hshape

/-! ## Bodies -/

variable {shown verb word rest : List Char} {s : Statement} {sign : Char} {platform : Option String}

/-- The body of the canonical line. -/
def bodyText (s : Statement) : List Char :=
  match s.kind.shape with
  | .bare => s.target.toList
  | .colon => s.target.toList ++ ':' :: ' ' :: s.payload.shown.toList
  | .arrow => s.target.toList ++ arrow ++ s.payload.shown.toList

/-- The canonical line of a statement tells its target and its value apart. Only the colon of import
guards can be mistaken, since they may have been read with an arrow. -/
def Recoverable (s : Statement) : Prop :=
  s.kind = .importGuard → splitColon? s.target.toList = none ∧ ¬ arrow <:+: s.payload.shown.toList

/-- The parts of a body that has a value are those at its separator, without blanks around them. -/
lemma splitBody_eq_ok_iff (hshape : kind.shape ≠ .bare) :
    splitBody kind body = .ok (target, value) ↔
      ∃ a b, splitTarget? kind body = some (a, b) ∧ trim a = target ∧ trim b = value ∧
        target ≠ [] ∧ value ≠ [] := by
  simp only [splitBody]
  split
  · next hnone => simp [hnone]
  · next a b hsome =>
    rw [if_neg hshape, hsome]
    constructor
    · intro h
      split at h
      · cases h
      · split at h
        · cases h
        · next ha hb =>
          obtain ⟨rfl, rfl⟩ := Prod.mk.inj (Except.ok.inj h)
          exact ⟨a, b, rfl, rfl, rfl, by simpa using ha, by simpa using hb⟩
    · rintro ⟨a', b', hab, rfl, rfl, ha, hb⟩
      obtain ⟨rfl, rfl⟩ := Prod.mk.inj (Option.some.inj hab)
      rw [if_neg (by simpa using ha), if_neg (by simpa using hb)]

/-- Target and value have no blanks around them. -/
lemma tight_of_splitBody (hshape : kind.shape ≠ .bare)
    (h : splitBody kind body = .ok (target, value)) : Tight target ∧ Tight value := by
  obtain ⟨a, b, -, rfl, rfl, ha, hb⟩ := (splitBody_eq_ok_iff hshape).1 h
  exact ⟨tight_trim ha, tight_trim hb⟩

/-- Behind an arrow, any other value is found as well. -/
lemma splitBody_arrow (hshape : kind.shape = .arrow)
    (h : splitBody kind body = .ok (target, value)) (hshown : Tight shown) :
    splitBody kind (target ++ arrow ++ shown) = .ok (target, shown) := by
  have hbare : kind.shape ≠ .bare := by simp [hshape]
  obtain ⟨a, b, hsplit, rfl, -, ha, -⟩ := (splitBody_eq_ok_iff hbare).1 h
  simp only [splitTarget?, hshape] at hsplit
  have hnot : ¬ arrow <:+: trim a := fun hpart =>
    notMem_of_splitOnce? (by decide) hsplit (hpart.trans (trim_isInfix a))
  refine (splitBody_eq_ok_iff hbare).2 ⟨trim a, shown, ?_, trim_trim a, hshown.trim_eq, ha,
    hshown.ne_nil⟩
  simp only [splitTarget?, hshape]
  exact splitOnce?_append (by decide) borderless_arrow hnot shown

/-- A target in front of a single colon has none itself, and that of an import guard has no
arrow. -/
lemma of_splitBody_colon (hshape : kind.shape = .colon) (hbody : trimStart body = body)
    (h : splitBody kind body = .ok (target, value)) :
    (kind = .importGuard → ¬ arrow <:+: target) ∧
      (splitColon? target = none ∨ kind = .importGuard ∧ arrow <:+: body) := by
  obtain ⟨a, b, hsplit, rfl, -, -, -⟩ := (splitBody_eq_ok_iff (by simp [hshape])).1 h
  simp only [splitTarget?, hshape] at hsplit
  split at hsplit
  · next harrow =>
    exact ⟨fun _ hpart => notMem_of_splitOnce? (by decide) hsplit (hpart.trans (trim_isInfix a)),
      .inr ⟨harrow.1, occursIn_iff.1 harrow.2⟩⟩
  · next harrow =>
    have hjoin := append_of_splitColon? hsplit
    refine ⟨fun hkind hpart => harrow ⟨hkind, occursIn_iff.2 ?_⟩, .inl ?_⟩
    · exact hpart.trans ((trim_isInfix a).trans ⟨[], ':' :: b, by simpa using hjoin⟩)
    · exact splitColon?_trim (splitColon?_fst_eq_none hsplit)
        (trimStart_of_append (y := ':' :: b) (by rw [hjoin, hbody]))

/-- In a body without an arrow, any other value is found behind the colon as well. -/
lemma splitBody_colon (hshape : kind.shape = .colon) (htarget : Tight target)
    (hshown : Tight shown) (hcolon : splitColon? target = none)
    (harrow : kind = .importGuard → ¬ arrow <:+: target ∧ ¬ arrow <:+: shown) :
    splitBody kind (target ++ ':' :: ' ' :: shown) = .ok (target, shown) := by
  refine (splitBody_eq_ok_iff (by simp [hshape])).2 ⟨target, ' ' :: shown, ?_, htarget.trim_eq, ?_,
    htarget.ne_nil, hshown.ne_nil⟩
  · simp only [splitTarget?, hshape]
    rw [if_neg]
    · exact splitColon?_append_colon hcolon (by simp)
    · rintro ⟨hkind, hoccurs⟩
      have hcons : ¬ arrow <:+: [] ++ ' ' :: shown :=
        not_infix_append_cons (by decide) (harrow hkind).2 (by decide)
      exact not_infix_append_cons (harrow hkind).1 hcons (by decide) (occursIn_iff.1 hoccurs)
  · exact trim_space_cons hshown

/-- An import guard whose target and value are found behind its colon could not be mistaken. -/
lemma of_splitBody_importGuard (htarget : Tight target)
    (h : splitBody .importGuard (target ++ ':' :: ' ' :: shown) = .ok (target, shown)) :
    splitColon? target = none ∧ ¬ arrow <:+: shown := by
  obtain ⟨a, b, hsplit, ha, hb, -, -⟩ := (splitBody_eq_ok_iff (by decide)).1 h
  have hshorter : target.length ≤ a.length ∧ shown.length ≤ b.length :=
    ⟨ha ▸ (trim_isInfix a).length_le, hb ▸ (trim_isInfix b).length_le⟩
  simp only [splitTarget?, DirectiveKind.shape] at hsplit
  split at hsplit
  · -- the arrow takes more room than the colon and the blank
    have := congrArg List.length (append_of_splitOnce? hsplit)
    simp only [arrow, List.length_append, List.length_cons, List.length_nil] at this
    omega
  · next harrow =>
    constructor
    · have hstart : trimStart a = a :=
        trimStart_of_append (y := ':' :: b) (by
          rw [append_of_splitColon? hsplit, htarget.trimStart_append])
      exact ha ▸ splitColon?_trim (splitColon?_fst_eq_none hsplit) hstart
    · intro hpart
      refine harrow ⟨trivial, occursIn_iff.2 (hpart.trans ⟨target ++ [':', ' '], [], ?_⟩)⟩
      simp

/-- Reading a value leaves the way in which the kind is written as it is. -/
lemma written_of_readPayload (h : readPayload kind value = .ok (kind', payload)) :
    kind'.sign = kind.sign ∧ kind'.verb = kind.verb ∧ kind'.shape = kind.shape ∧
      (kind' = .importGuard ↔ kind = .importGuard) := by
  cases kind with
  | sortPriority | symbolPriority =>
    simp only [readPayload] at h
    split at h <;> obtain ⟨_, -, heq⟩ := exists_of_map_eq_ok h <;>
      obtain ⟨rfl, -⟩ := Prod.mk.inj heq <;> decide
  | patch =>
    obtain ⟨_, -, heq⟩ := exists_of_map_eq_ok h
    obtain ⟨rfl, -⟩ := Prod.mk.inj heq
    decide
  | importGuard | callGuard | importExclude =>
    simp only [readPayload] at h
    split at h
    · cases h
    · obtain ⟨rfl, -⟩ := Prod.mk.inj (Except.ok.inj h)
      decide
  | _ =>
    obtain ⟨rfl, -⟩ := Prod.mk.inj (Except.ok.inj h)
    decide

/-- The value of an import guard is a module, which holds no blank. -/
lemma of_readPayload_importGuard (h : readPayload .importGuard value = .ok (kind', payload)) :
    payload = .module (String.ofList value) ∧ ∀ c ∈ value, isBlank c = false := by
  simp only [readPayload] at h
  split at h
  · cases h
  · next hblank =>
    obtain ⟨-, rfl⟩ := Prod.mk.inj (Except.ok.inj h)
    exact ⟨rfl, by simpa using hblank⟩

/-- The module of an import guard is its value. -/
lemma shown_of_readPayload_importGuard (h : readPayload .importGuard value = .ok (kind', payload)) :
    payload.shown.toList = value := by
  rw [(of_readPayload_importGuard h).1]
  exact String.toList_ofList

/-- **The body of a canonical line is cut into the same target and value** exactly if they can be
told apart.

**Proof sketch.** A bare body is the target, and an arrow is not inside a target that was found in
front of one. In front of a colon there was no single colon either, except where the body held an
arrow and belonged to an import guard. Then it is known of neither part that it does not hold the
other separator, and the cut is right exactly if that is so. -/
lemma splitBody_bodyText_iff (hbody : Tight body)
    (hsplit : splitBody kind body = .ok (s.target.toList, value))
    (hread : readPayload kind value = .ok (s.kind, s.payload)) :
    (∃ v, splitBody kind s.bodyText = .ok (s.target.toList, v) ∧
      readPayload kind v = .ok (s.kind, s.payload)) ↔ s.Recoverable := by
  obtain ⟨-, -, hshape, hguard⟩ := written_of_readPayload hread
  cases hkind : kind.shape with
  | bare =>
    have hcut : ∀ t, splitBody kind t = .ok (t, []) := fun t => by
      simp [splitBody, splitTarget?, hkind]
    obtain ⟨-, rfl⟩ := Prod.mk.inj (Except.ok.inj ((hcut body).symm.trans hsplit))
    have hbodyText : s.bodyText = s.target.toList := by simp [bodyText, hshape, hkind]
    rw [hbodyText, hcut]
    refine ⟨fun _ higuard => ?_, fun _ => ⟨[], rfl, hread⟩⟩
    rw [hguard.1 higuard] at hkind
    cases hkind
  | arrow =>
    have hbare : kind.shape ≠ .bare := by simp [hkind]
    obtain ⟨hshown, hagain⟩ := readPayload_shown hread hbare (tight_of_splitBody hbare hsplit).2
    have hbodyText : s.bodyText = s.target.toList ++ arrow ++ s.payload.shown.toList := by
      simp [bodyText, hshape, hkind]
    rw [hbodyText]
    refine ⟨fun _ higuard => ?_, fun _ => ⟨_, splitBody_arrow hkind hsplit hshown, hagain⟩⟩
    rw [hguard.1 higuard] at hkind
    cases hkind
  | colon =>
    have hbare : kind.shape ≠ .bare := by simp [hkind]
    obtain ⟨htarget, hvalue⟩ := tight_of_splitBody hbare hsplit
    obtain ⟨hshown, hagain⟩ := readPayload_shown hread hbare hvalue
    have hbodyText : s.bodyText = s.target.toList ++ ':' :: ' ' :: s.payload.shown.toList := by
      simp [bodyText, hshape, hkind]
    rw [hbodyText]
    constructor
    · rintro ⟨v, hcut, hv⟩ higuard
      obtain rfl := hguard.1 higuard
      exact of_splitBody_importGuard htarget (shown_of_readPayload_importGuard hv ▸ hcut)
    · intro hrecoverable
      obtain ⟨hno, hcolon⟩ := of_splitBody_colon hkind hbody.trimStart_eq hsplit
      have hcolon : splitColon? s.target.toList = none :=
        hcolon.elim id fun higuard => (hrecoverable (hguard.2 higuard.1)).1
      exact ⟨_, splitBody_colon hkind htarget hshown hcolon fun higuard =>
        ⟨hno higuard, (hrecoverable (hguard.2 higuard)).2⟩, hagain⟩

/-- There are no blanks around the body of the canonical line. -/
lemma tight_bodyText (hbody : Tight body)
    (hsplit : splitBody kind body = .ok (s.target.toList, value))
    (hread : readPayload kind value = .ok (s.kind, s.payload)) : Tight s.bodyText := by
  obtain ⟨-, -, hshape, -⟩ := written_of_readPayload hread
  by_cases hbare : kind.shape = .bare
  · have hcut : splitBody kind body = .ok (body, []) := by simp [splitBody, splitTarget?, hbare]
    obtain ⟨rfl, -⟩ := Prod.mk.inj (Except.ok.inj (hcut.symm.trans hsplit))
    simpa [bodyText, hshape, hbare] using hbody
  · obtain ⟨htarget, hvalue⟩ := tight_of_splitBody hbare hsplit
    obtain ⟨hshown, -⟩ := readPayload_shown hread hbare hvalue
    rw [bodyText, hshape]
    split
    · next h => exact absurd h hbare
    · simpa using htarget.append hshown [':', ' ']
    · exact htarget.append hshown arrow

/-! ## Lines -/

/-- The verb and the platform of a line are its first word. -/
lemma append_of_splitVerb (h : splitVerb sign word = .ok (verb, platform))
    (hword : ∀ c ∈ word, isBlank c = false) :
    verb ++ platform.elim [] (fun p => '@' :: p.toList) = word := by
  simp only [splitVerb] at h
  split at h
  · obtain ⟨rfl, rfl⟩ := Prod.mk.inj (Except.ok.inj h)
    simp
  · next a b hsplit =>
    split at h
    · cases h
    · next hne =>
      obtain ⟨rfl, rfl⟩ := Prod.mk.inj (Except.ok.inj h)
      have hjoin := append_of_splitOnce? hsplit
      have hb : ∀ c ∈ b, isBlank c = false := fun c hc =>
        hword c (by rw [← hjoin]; simp [hc])
      have hnil : b ≠ [] := by
        rintro rfl
        exact hne rfl
      simp [(tight_of_not_isBlank hnil hb).trim_eq, ← hjoin]

/-- What a line that is a statement is made of. -/
lemma ofSigned_eq_ok_iff : ofSigned sign rest = .ok s ↔
    ∃ verb kind value,
      splitVerb sign (rest.takeWhile fun c => !isBlank c) = .ok (verb, s.platform) ∧
      kindOf? sign verb = some kind ∧ (s.platform.isSome && !kind.takesPlatform) = false ∧
      trim (rest.dropWhile fun c => !isBlank c) ≠ [] ∧
      splitBody kind (trim (rest.dropWhile fun c => !isBlank c)) = .ok (s.target.toList, value) ∧
      readPayload kind value = .ok (s.kind, s.payload) ∧ checkTarget s.kind s.target = .ok () := by
  simp only [ofSigned, bind, Except.bind, pure, Except.pure]
  constructor
  · intro h
    split at h
    · cases h
    next p hverb =>
    split at h
    · cases h
    next kind hkind =>
    split at h
    · cases h
    next hplatform =>
    split at h
    · cases h
    next hbody =>
    split at h
    · cases h
    next q hsplit =>
    split at h
    · cases h
    next r hread =>
    split at h
    · cases h
    next u hcheck =>
    obtain rfl := Except.ok.inj h
    exact ⟨p.1, kind, q.2, hverb, hkind, by simpa using hplatform, by simpa using hbody,
      by simpa using hsplit, hread, hcheck⟩
  · rintro ⟨verb, kind, value, hverb, hkind, hplatform, hbody, hsplit, hread, hcheck⟩
    simp [hverb, hkind, hplatform, hbody, hsplit, hread, hcheck]

/-- Sign, verb and platform of a canonical line stand in front of its body. -/
lemma toList_line (s : Statement) : s.line.toList =
    s.kind.sign :: (s.kind.verb.toList ++ s.platform.elim [] (fun p => '@' :: p.toList) ++
      ' ' :: s.bodyText) := by
  cases hplatform : s.platform <;> cases hshape : s.kind.shape <;>
    simp [line, opening, bodyText, hplatform, hshape, String.toList_append, arrow]

/-- The kind of a sign and a verb is written with them. -/
lemma of_kindOf? (h : kindOf? sign verb = some kind) :
    kind.sign = sign ∧ kind.verb.toList = verb := by
  simpa using List.find?_some h

/-- A line that is a statement begins with a sign. -/
lemma exists_of_ofLine {text : List Char} (h : ofLine text = .ok s) :
    ∃ sign rest, text = sign :: rest ∧ (sign == '+' || sign == '-') = true ∧
      ofSigned sign rest = .ok s := by
  rw [ofLine.eq_def] at h
  split at h
  · next sign rest =>
    split at h
    · next hsign => exact ⟨sign, rest, rfl, hsign, h⟩
    · cases h
  · cases h

/-- A line is cut behind its first word. -/
lemma takeWhile_dropWhile_word (hword : ∀ c ∈ word, isBlank c = false) (t : List Char) :
    (word ++ ' ' :: t).takeWhile (fun c => !isBlank c) = word ∧
      (word ++ ' ' :: t).dropWhile (fun c => !isBlank c) = ' ' :: t := by
  have hword' : ∀ c ∈ word, (!isBlank c) = true := fun c hc => by simp [hword c hc]
  have hspace : (!isBlank ' ') = false := by decide
  rw [List.takeWhile_append_of_pos hword', List.dropWhile_append_of_pos hword']
  simp [hspace]

/-- What the canonical line of a statement that was read is made of: the sign and the first word of
the line that was read, and a body of its own. -/
structure LineParts (s : Statement) (sign : Char) (word : List Char) (kind : DirectiveKind)
    (body value : List Char) : Prop where
  /-- The canonical line is made of sign, word and body. -/
  toList_line : s.line.toList = sign :: (word ++ ' ' :: s.bodyText)
  /-- The line begins with a sign. -/
  isSign : (sign == '+' || sign == '-') = true
  /-- The first word holds no blank. -/
  not_isBlank : ∀ c ∈ word, isBlank c = false
  /-- The first word is a verb, perhaps with a platform. -/
  kind_eq : ∃ verb, splitVerb sign word = .ok (verb, s.platform) ∧ kindOf? sign verb = some kind
  /-- The platform is one that the kind may have. -/
  takesPlatform : (s.platform.isSome && !kind.takesPlatform) = false
  /-- The body that was read has no blanks around it. -/
  tight : Tight body
  /-- The body that was read is cut into target and value. -/
  splitBody_eq : splitBody kind body = .ok (s.target.toList, value)
  /-- The value that was read is that of the statement. -/
  readPayload_eq : readPayload kind value = .ok (s.kind, s.payload)
  /-- The target is a name where it has to be one. -/
  checkTarget_eq : checkTarget s.kind s.target = .ok ()

/-- A statement that was read has a canonical line with the first word of the line it was read
from. -/
lemma exists_lineParts {text : List Char} (h : ofLine text = .ok s) :
    ∃ sign word kind body value, s.LineParts sign word kind body value := by
  obtain ⟨sign, rest, rfl, hsign, h⟩ := exists_of_ofLine h
  obtain ⟨verb, kind, value, hverb, hkind, hplatform, hne, hsplit, hread, hcheck⟩ :=
    ofSigned_eq_ok_iff.1 h
  have hword : ∀ c ∈ rest.takeWhile fun c => !isBlank c, isBlank c = false := fun c hc => by
    simpa using List.mem_takeWhile_imp hc
  obtain ⟨hsame, hsame', -, -⟩ := written_of_readPayload hread
  obtain ⟨hksign, hkverb⟩ := of_kindOf? hkind
  refine ⟨sign, _, kind, _, value, ?_, hsign, hword, ⟨verb, hverb, hkind⟩, hplatform,
    tight_trim hne, hsplit, hread, hcheck⟩
  rw [toList_line, hsame, hsame', hksign, hkverb, append_of_splitVerb hverb hword]

/-- **A canonical line is read as the statement that it was made of** exactly if target and value
can be told apart in it. -/
lemma ofLine_line_iff_recoverable {text : List Char} (h : ofLine text = .ok s) :
    ofLine s.line.toList = .ok s ↔ s.Recoverable := by
  obtain ⟨sign, word, kind, body, value, parts⟩ := exists_lineParts h
  obtain ⟨verb, hverb, hkind⟩ := parts.kind_eq
  have hbody := tight_bodyText parts.tight parts.splitBody_eq parts.readPayload_eq
  obtain ⟨htake, hdrop⟩ := takeWhile_dropWhile_word parts.not_isBlank s.bodyText
  rw [parts.toList_line, ofLine, if_pos parts.isSign, ofSigned_eq_ok_iff, htake, hdrop,
    trim_space_cons hbody,
    ← splitBody_bodyText_iff parts.tight parts.splitBody_eq parts.readPayload_eq]
  constructor
  · rintro ⟨verb', kind', v, hverb', hkind', -, -, hsplit', hread', -⟩
    obtain ⟨rfl, -⟩ := Prod.mk.inj (Except.ok.inj (hverb.symm.trans hverb'))
    obtain rfl := Option.some.inj (hkind.symm.trans hkind')
    exact ⟨v, hsplit', hread'⟩
  · rintro ⟨v, hsplit', hread'⟩
    exact ⟨verb, kind, v, hverb, hkind, parts.takesPlatform, hbody.ne_nil, hsplit', hread',
      parts.checkTarget_eq⟩

/-- In a line without an arrow, target and value can always be told apart. -/
lemma recoverable_of_not_isInfix {text : List Char} (h : ofLine text = .ok s)
    (harrow : ¬ arrow <:+: text) : s.Recoverable := by
  intro higuard
  obtain ⟨sign, rest, rfl, -, h⟩ := exists_of_ofLine h
  obtain ⟨verb, kind, value, -, -, -, hne, hsplit, hread, -⟩ := ofSigned_eq_ok_iff.1 h
  obtain rfl := (written_of_readPayload hread).2.2.2.1 higuard
  have hbody : ¬ arrow <:+: trim (rest.dropWhile fun c => !isBlank c) := fun hpart =>
    harrow (hpart.trans ((trim_isInfix _).trans
      ((List.dropWhile_suffix _).isInfix.trans (List.suffix_cons _ _).isInfix)))
  have hcolon : splitColon? s.target.toList = none :=
    (of_splitBody_colon rfl (tight_trim hne).trimStart_eq hsplit).2.resolve_right fun h => hbody h.2
  obtain ⟨a, b, hcut, -, hb, -, -⟩ := (splitBody_eq_ok_iff (by decide)).1 hsplit
  simp only [splitTarget?, DirectiveKind.shape, occursIn_iff, hbody, and_false, if_false] at hcut
  have hjoin := append_of_splitColon? hcut
  refine ⟨hcolon, fun hpart => hbody ?_⟩
  rw [shown_of_readPayload_importGuard hread, ← hb] at hpart
  exact hpart.trans ((trim_isInfix b).trans ⟨a ++ [':'], [], by simpa using hjoin⟩)

end BindingRules.Statement

namespace BindingRules.Directive

open Statement

/-- **Which canonical lines are lines of the same statement.** The canonical line of an active
directive, whose statement was read from any line, is read as that statement again. There is a
condition for import guards alone: the target has no single colon, and the module holds no arrow. -/
theorem ofLine_line_iff (d : Directive) (text : String) (hactive : d.active = true)
    (h : Statement.ofLine text.toList = .ok d.toStatement) :
    Statement.ofLine d.line.toList = .ok d.toStatement ↔ d.toStatement.Recoverable := by
  rw [Directive.line, if_pos hactive]
  exact ofLine_line_iff_recoverable h

/-- An import guard that was read with an arrow, and is read again with a colon. -/
theorem ofLine_line_iff_importGuard :
    Statement.ofLine "+iguard A-->B".toList =
        .ok { kind := .importGuard, target := "A", payload := .module "B" } ∧
      Statement.ofLine "+iguard A: B".toList =
        .ok { kind := .importGuard, target := "A", payload := .module "B" } := by
  let d : Directive :=
    { kind := .importGuard, target := "A", payload := .module "B", order := 0, active := true,
      location := ⟨"rules", 1⟩ }
  have hread : Statement.ofLine "+iguard A-->B".toList = .ok d.toStatement := by decide +kernel
  have hrecoverable : d.toStatement.Recoverable := fun _ => by decide +kernel
  exact ⟨hread, (ofLine_line_iff d "+iguard A-->B" rfl hread).2 hrecoverable⟩

/-- **An import guard that is not read back.** The arrow behind its target was taken for the
separator, and the module holds another one. The canonical line has a colon and the second arrow,
at which it is cut into a target and a module that no line stated. -/
theorem ofLine_line_importGuard_changed :
    Statement.ofLine "+iguard A-->B-->C".toList =
        .ok { kind := .importGuard, target := "A", payload := .module "B-->C" } ∧
      Statement.line { kind := .importGuard, target := "A", payload := .module "B-->C" } =
        "+iguard A: B-->C" ∧
      Statement.ofLine "+iguard A: B-->C".toList =
        .ok { kind := .importGuard, target := "A: B", payload := .module "C" } := by
  decide +kernel

end BindingRules.Directive
