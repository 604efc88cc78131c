import BindingRules.Digest
import BindingRules.Proofs.Separators
import Mathlib.Data.List.Induction

set_option relaxedAutoImplicit false
set_option autoImplicit false

/-!
# Texts of digests

A text denotes a digest exactly if it is written with the digits of the digest, in letters of either
size, with blanks around it and the name of the hash function in front or not. Two digits at a time
make a byte, so there is one digest at most.

The digits can also be found by their places, each pair of them being read as a number. Numbers may
have a sign, but signs are no digits, and all characters are known to be digits before any number
is read.

## Main definitions

* `Digest.digitsOf` — what a text holds besides blanks and the name of the hash function.
* `Digest.byteNumber?`, `Digest.bytesByPlace?` — bytes as numbers at their places.

## Main results

* `Text.hexValue?_eq_some_iff` — which characters are digits, and of which value.
* `Digest.bytesOfHex?_eq_some_iff` — which digits denote some bytes.
* `Digest.bytesByPlace?_eq` — the bytes by their places.
* `Digest.ofText_exact` — which texts denote a digest.
-/

namespace BindingRules

namespace Text

variable {c : Char} {v : Nat}

/-! ## Digits -/

/-- The digits, with small and with large letters. -/
def hexDigits : List Char := "0123456789abcdefABCDEF".toList

/-- What holds of the first 128 characters one by one holds of each of them. -/
lemma of_lt_128 {P : Char → Bool} (h : ((List.range 128).all fun n => P (Char.ofNat n)) = true)
    (hc : c.toNat < 128) : P c = true := by
  have hnumber := List.all_eq_true.1 h c.toNat (List.mem_range.2 hc)
  rwa [Char.ofNat_toNat] at hnumber

/-- No other character stands at or before one of the first 128. -/
lemma not_le_of_128_le {d : Char} (hc : 128 ≤ c.toNat) (hd : d.toNat < 128) : ¬ c ≤ d := by
  intro hle
  have hle : c.toNat ≤ d.toNat := UInt32.le_iff_toNat_le.1 hle
  omega

/-- The other characters are no digits. -/
lemma hexValue?_eq_none_of_128_le (hc : 128 ≤ c.toNat) : hexValue? c = none := by
  have hlast : ∀ d : Char, d.toNat < 128 → decide (c ≤ d) = false := fun d hd =>
    decide_eq_false (not_le_of_128_le hc hd)
  simp [hexValue?, hlast '9' (by decide), hlast 'f' (by decide), hlast 'F' (by decide)]

/-- The other characters are no large letters. -/
lemma toLower_eq_self_of_128_le (hc : 128 ≤ c.toNat) : c.toLower = c := by
  have hlast : ¬ c ≤ 'Z' := not_le_of_128_le hc (by decide)
  exact dif_neg fun h => hlast h.2

/-- **The value of a digit** is the one that its small letter is written for. -/
lemma hexValue?_eq_some_iff : hexValue? c = some v ↔ v < 16 ∧ c.toLower = hexDigit v := by
  by_cases hc : c.toNat < 128
  · let P : Char → Bool := fun c => ((hexValue? c).all fun v => decide (v < 16)) &&
      (List.range 16).all fun v => (hexValue? c == some v) == (c.toLower == hexDigit v)
    have hP : P c = true := of_lt_128 (by decide +kernel) hc
    obtain ⟨hbound, hvalues⟩ := Bool.and_eq_true_iff.1 hP
    constructor
    · intro hv
      have hlt : v < 16 := by simpa [hv] using hbound
      have hsame := List.all_eq_true.1 hvalues v (List.mem_range.2 hlt)
      exact ⟨hlt, by simpa [hv] using hsame⟩
    · rintro ⟨hlt, hlower⟩
      have hsame := List.all_eq_true.1 hvalues v (List.mem_range.2 hlt)
      simpa [hlower] using hsame
  · have hc : 128 ≤ c.toNat := Nat.le_of_not_lt hc
    rw [hexValue?_eq_none_of_128_le hc, toLower_eq_self_of_128_le hc]
    refine ⟨fun h => absurd h (by simp), fun ⟨hlt, heq⟩ => ?_⟩
    have hsmall : ((List.range 16).all fun v => decide ((hexDigit v).toNat < 128)) = true := by
      decide +kernel
    have hv := of_decide_eq_true (List.all_eq_true.1 hsmall v (List.mem_range.2 hlt))
    rw [← heq] at hv
    omega

/-- A character has a value if it is one of the digits. -/
lemma isSome_hexValue? : (hexValue? c).isSome ↔ c ∈ hexDigits := by
  by_cases hc : c.toNat < 128
  · have hP : ((hexValue? c).isSome == decide (c ∈ hexDigits)) = true :=
      of_lt_128 (P := fun c => (hexValue? c).isSome == decide (c ∈ hexDigits))
        (by decide +kernel) hc
    rw [eq_of_beq hP, decide_eq_true_iff]
  · have hc : 128 ≤ c.toNat := Nat.le_of_not_lt hc
    have hsmall : (hexDigits.all fun d => decide (d.toNat < 128)) = true := by decide +kernel
    rw [hexValue?_eq_none_of_128_le hc]
    refine ⟨fun h => absurd h (by simp), fun hmem => ?_⟩
    have hlt := of_decide_eq_true (List.all_eq_true.1 hsmall c hmem)
    omega

end Text

namespace Digest

open Text

variable {t : List Char} {bytes : List UInt8}

/-! ## Bytes -/

/-- The digits of values are small letters. -/
lemma toLower_hexDigit {v : Nat} (hv : v < 16) : (hexDigit v).toLower = hexDigit v := by
  have hlower : ((List.range 16).all fun v => (hexDigit v).toLower == hexDigit v) = true := by
    decide +kernel
  exact eq_of_beq (List.all_eq_true.1 hlower v (List.mem_range.2 hv))

/-- The digits of some bytes are digits of values. -/
lemma exists_of_mem_hexByte {c : Char} (h : c ∈ bytes.flatMap hexByte) :
    ∃ v < 16, c = hexDigit v := by
  obtain ⟨b, -, hc⟩ := List.mem_flatMap.1 h
  have hb := b.toNat_lt
  rcases List.mem_pair.1 hc with rfl | rfl
  · exact ⟨_, by omega, rfl⟩
  · exact ⟨_, Nat.mod_lt _ (by decide), rfl⟩

/-- The digits of a byte that is put together from two values are the digits of these. -/
lemma hexByte_ofNat {x y : Nat} (hx : x < 16) (hy : y < 16) :
    hexByte (UInt8.ofNat (16 * x + y)) = [hexDigit x, hexDigit y] := by
  have hbyte : (UInt8.ofNat (16 * x + y)).toNat = 16 * x + y := UInt8.toNat_ofNat_of_lt' (by
    have : UInt8.size = 256 := rfl
    omega)
  rw [hexByte, hbyte, show (16 * x + y) / 16 = x by omega, show (16 * x + y) % 16 = y by omega]

/-- Two digits in front of others denote a byte in front of other bytes. -/
lemma bytesOfHex?_cons_cons {a b : Char} : bytesOfHex? (a :: b :: t) = some bytes ↔
    ∃ x y rest, hexValue? a = some x ∧ hexValue? b = some y ∧ bytesOfHex? t = some rest ∧
      UInt8.ofNat (16 * x + y) :: rest = bytes := by
  simp only [bytesOfHex?, Option.bind_eq_bind, Option.bind_eq_some_iff, Option.pure_def,
    Option.some.injEq]
  constructor
  · rintro ⟨x, ha, y, hb, rest, hrest, heq⟩
    exact ⟨x, y, rest, ha, hb, hrest, heq⟩
  · rintro ⟨x, y, rest, ha, hb, hrest, heq⟩
    exact ⟨x, ha, y, hb, rest, hrest, heq⟩

/-- **The bytes that digits denote** are those that are written with the same digits in small
letters. -/
lemma bytesOfHex?_eq_some_iff :
    bytesOfHex? t = some bytes ↔ t.map Char.toLower = bytes.flatMap hexByte := by
  induction t using List.twoStepInduction generalizing bytes with
  | nil => cases bytes <;> simp [bytesOfHex?, hexByte]
  | singleton a => cases bytes <;> simp [bytesOfHex?, hexByte]
  | cons_cons a b t ih _ =>
    rw [bytesOfHex?_cons_cons]
    constructor
    · rintro ⟨x, y, rest, ha, hb, hrest, rfl⟩
      obtain ⟨hx, ha⟩ := hexValue?_eq_some_iff.1 ha
      obtain ⟨hy, hb⟩ := hexValue?_eq_some_iff.1 hb
      rw [List.flatMap_cons, hexByte_ofNat hx hy, ← ih.1 hrest, List.map_cons, List.map_cons, ha,
        hb]
      rfl
    · intro h
      cases bytes with
      | nil => cases h
      | cons byte rest =>
        have hbyte := byte.toNat_lt
        obtain ⟨ha, h⟩ := List.cons.inj h
        obtain ⟨hb, hrest⟩ := List.cons.inj h
        refine ⟨byte.toNat / 16, byte.toNat % 16, rest, ?_, ?_, ih.2 hrest, ?_⟩
        · exact hexValue?_eq_some_iff.2 ⟨by omega, ha⟩
        · exact hexValue?_eq_some_iff.2 ⟨Nat.mod_lt _ (by decide), hb⟩
        · rw [Nat.div_add_mod, UInt8.ofNat_toNat]

/-- Each byte has two digits. -/
lemma length_flatMap_hexByte (bytes : List UInt8) :
    (bytes.flatMap hexByte).length = 2 * bytes.length := by
  simp [hexByte, List.length_flatMap, Nat.mul_comm]

/-- **What denotes a number of bytes** are twice as many digits. -/
lemma exists_bytesOfHex?_iff {n : Nat} : (∃ bytes, bytesOfHex? t = some bytes ∧ bytes.length = n) ↔
    t.length = 2 * n ∧ ∀ c ∈ t, c ∈ hexDigits := by
  constructor
  · rintro ⟨bytes, hbytes, rfl⟩
    have hwritten := bytesOfHex?_eq_some_iff.1 hbytes
    refine ⟨?_, fun c hc => ?_⟩
    · rw [← length_flatMap_hexByte, ← hwritten, List.length_map]
    · obtain ⟨v, hv, hlower⟩ := exists_of_mem_hexByte (hwritten ▸ List.mem_map_of_mem hc)
      exact isSome_hexValue?.1 (Option.isSome_of_eq_some (hexValue?_eq_some_iff.2 ⟨hv, hlower⟩))
  · rintro ⟨hlength, hdigits⟩
    induction n generalizing t with
    | zero =>
      obtain rfl := List.length_eq_zero_iff.1 hlength
      exact ⟨[], rfl, rfl⟩
    | succ n ih =>
      obtain ⟨a, b, rest, rfl⟩ : ∃ a b rest, t = a :: b :: rest := by
        match t with
        | a :: b :: rest => exact ⟨a, b, rest, rfl⟩
        | [a] => simp at hlength; omega
        | [] => simp at hlength
      obtain ⟨x, hx⟩ := Option.isSome_iff_exists.1 (isSome_hexValue?.2 (hdigits a (by simp)))
      obtain ⟨y, hy⟩ := Option.isSome_iff_exists.1 (isSome_hexValue?.2 (hdigits b (by simp)))
      obtain ⟨bytes, hbytes, hn⟩ := ih (t := rest) (by simp at hlength; omega)
        fun c hc => hdigits c (by simp [hc])
      exact ⟨_, bytesOfHex?_cons_cons.2 ⟨x, y, bytes, hx, hy, hbytes, rfl⟩, by simp [hn]⟩

/-! ## Bytes by their places -/

/-- The byte that is written as a number in base sixteen, perhaps with a plus sign in front. -/
def byteNumber? (t : List Char) : Option UInt8 :=
  let digits := if t.head? = some '+' ∧ 1 < t.length then t.tail else t
  if digits = [] then none
  else (digits.mapM hexValue?).bind fun values =>
    let n := values.foldl (fun n v => 16 * n + v) 0
    if n < 256 then some (UInt8.ofNat n) else none

/-- A number may have a sign, which is no digit. -/
example : byteNumber? ['+', 'f'] = some 15 := by decide

/-- The bytes at the 32 places of two digits, of a text that takes as many units as there are digits
in it and has nothing but digits. -/
def bytesByPlace? (t : List Char) : Option (List UInt8) :=
  if (String.ofList t).utf8ByteSize = 64 ∧ t.all hexDigits.contains = true then
    (List.range 32).mapM fun i => byteNumber? ((t.drop (2 * i)).take 2)
  else none

/-- Two digits are a number without a sign. -/
lemma byteNumber?_eq {a b : Char} {x y : Nat} (ha : hexValue? a = some x)
    (hb : hexValue? b = some y) : byteNumber? [a, b] = some (UInt8.ofNat (16 * x + y)) := by
  have hx := (hexValue?_eq_some_iff.1 ha).1
  have hy := (hexValue?_eq_some_iff.1 hb).1
  have hsign : a ≠ '+' := by
    rintro rfl
    cases ha
  have hlt : 16 * x + y < 256 := by omega
  simp [byteNumber?, hsign, ha, hb, hlt]

/-- Digits found by their places denote the same bytes as pairs from the left. -/
lemma mapM_byteNumber? {n : Nat} (hlength : t.length = 2 * n) (hdigits : ∀ c ∈ t, c ∈ hexDigits) :
    ((List.range n).mapM fun i => byteNumber? ((t.drop (2 * i)).take 2)) = bytesOfHex? t := by
  obtain ⟨bytes, hbytes, rfl⟩ := exists_bytesOfHex?_iff.2 ⟨hlength, hdigits⟩
  rw [hbytes]
  clear hlength hdigits
  induction bytes generalizing t with
  | nil => rfl
  | cons byte bytes ih =>
    obtain ⟨a, b, rest, rfl⟩ : ∃ a b rest, t = a :: b :: rest := by
      match t, hbytes with
      | a :: b :: rest, _ => exact ⟨a, b, rest, rfl⟩
    obtain ⟨x, y, bytes', ha, hb, hrest, hcons⟩ := bytesOfHex?_cons_cons.1 hbytes
    obtain ⟨rfl, rfl⟩ := List.cons.inj hcons
    rw [List.length_cons, List.range_succ_eq_map, List.mapM_cons, List.mapM_map]
    have hplaces : ((fun i => byteNumber? (((a :: b :: rest).drop (2 * i)).take 2)) ∘ Nat.succ) =
        fun i => byteNumber? ((rest.drop (2 * i)).take 2) := by
      funext i
      rfl
    rw [hplaces, ih hrest]
    simp [byteNumber?_eq ha hb]

/-- Digits take one unit each. -/
lemma utf8ByteSize_ofList (hdigits : ∀ c ∈ t, c ∈ hexDigits) :
    (String.ofList t).utf8ByteSize = t.length := by
  have hone : (hexDigits.all fun c => c.utf8Size == 1) = true := by decide +kernel
  show t.utf8Encode.size = t.length
  induction t with
  | nil => rfl
  | cons c t ih =>
    obtain ⟨hc, ht⟩ := List.forall_mem_cons.1 hdigits
    rw [List.utf8Encode_cons, List.utf8Encode_singleton, ByteArray.size_append, ih ht,
      List.size_toByteArray, String.length_utf8EncodeChar, eq_of_beq (List.all_eq_true.1 hone c hc),
      List.length_cons, Nat.add_comm]

/-- **The bytes by their places** are those that pairs of digits denote, if there are 32. -/
lemma bytesByPlace?_eq (t : List Char) :
    bytesByPlace? t = (bytesOfHex? t).filter fun bytes => bytes.length = 32 := by
  have hiff : ((String.ofList t).utf8ByteSize = 64 ∧ t.all hexDigits.contains = true) ↔
      t.length = 2 * 32 ∧ ∀ c ∈ t, c ∈ hexDigits := by
    simp only [List.all_eq_true, List.contains_iff_mem]
    exact and_congr_left fun hdigits => by rw [utf8ByteSize_ofList hdigits]
  by_cases h : t.length = 2 * 32 ∧ ∀ c ∈ t, c ∈ hexDigits
  · obtain ⟨bytes, hbytes, hlength⟩ := exists_bytesOfHex?_iff.2 h
    rw [bytesByPlace?, if_pos (hiff.2 h), mapM_byteNumber? h.1 h.2, hbytes,
      Option.filter_some, if_pos (decide_eq_true hlength)]
  · have hnone : (bytesOfHex? t).filter (fun bytes => bytes.length = 32) = none := by
      refine Option.filter_eq_none_iff.2 fun bytes hbytes hlength => h ?_
      exact exists_bytesOfHex?_iff.1 ⟨bytes, hbytes, of_decide_eq_true hlength⟩
    rw [hnone, bytesByPlace?, if_neg (h ∘ hiff.1)]

/-! ## Texts -/

/-- What a text holds besides blanks around it and the name of the hash function in front. -/
def digitsOf (s : String) : List Char :=
  let trimmed := trim s.toList
  if mark.toList <+: trimmed then trimmed.drop mark.length else trimmed

/-- A text denotes a digest if its digits denote 32 bytes, and is refused otherwise. -/
lemma ofText_eq (s : String) : ofText s =
    match bytesOfHex? (digitsOf s) with
    | some bytes => if h : bytes.length = 32 then .ok ⟨bytes, h⟩ else .error ⟨s⟩
    | none => .error ⟨s⟩ := by
  have hdigits : (mark.toList.isPrefixOf? (trim s.toList)).getD (trim s.toList) = digitsOf s := by
    unfold digitsOf
    cases hmark : mark.toList.isPrefixOf? (trim s.toList) with
    | none => rw [if_neg (isPrefixOf?_eq_none_iff.1 hmark), Option.getD_none]
    | some rest =>
      rw [Option.getD_some, ← append_of_isPrefixOf? hmark, if_pos (List.prefix_append _ _)]
      exact List.drop_left.symm
  cases hbytes : bytesOfHex? (digitsOf s) <;> simp only [ofText, hdigits, hbytes]

/-- A text denotes a digest if its digits denote the bytes of the digest. -/
lemma ofText_eq_ok_iff {s : String} {d : Digest} :
    ofText s = .ok d ↔ bytesOfHex? (digitsOf s) = some d.bytes := by
  rw [ofText_eq]
  obtain ⟨bytes, hbytes⟩ := d
  cases bytesOfHex? (digitsOf s) with
  | none => simp
  | some bytes' =>
    by_cases h : bytes'.length = 32
    · simp [h]
    · have hne : bytes' ≠ bytes := fun heq => h (heq ▸ hbytes)
      simp [h, hne]

/-- The digits of the text of a digest are those of the digest. -/
lemma digitsOf_text (d : Digest) : digitsOf d.text = d.hex.toList := by
  have hhex : d.hex.toList = d.bytes.flatMap hexByte := String.toList_ofList
  have htext : d.text.toList = mark.toList ++ d.hex.toList := String.toList_append
  have hblank : ∀ c ∈ d.text.toList, isBlank c = false := by
    intro c hc
    rw [htext, List.mem_append] at hc
    rcases hc with hc | hc
    · have hmark : (mark.toList.all fun c => !isBlank c) = true := by decide +kernel
      simpa using List.all_eq_true.1 hmark c hc
    · obtain ⟨v, hv, rfl⟩ := exists_of_mem_hexByte (hhex ▸ hc)
      have hvalues : ((List.range 16).all fun v => !isBlank (hexDigit v)) = true := by
        decide +kernel
      simpa using List.all_eq_true.1 hvalues v (List.mem_range.2 hv)
  have htight : Tight d.text.toList := by
    refine tight_of_not_isBlank ?_ hblank
    simp [htext, mark]
  rw [digitsOf, htight.trim_eq, htext, if_pos (List.prefix_append _ _)]
  exact List.drop_left

/-- **Texts of digests.** Each digest is read back from its text. A text denotes a digest exactly if
without blanks around it, and without the name of the hash function in front if it is there, it
consists of the 64 digits of the digest, in letters of either size. Every other text is refused: one
denotes a digest if and only if what is left of it are 64 digits. The bytes are also those that are
found by the places of the digits. -/
theorem ofText_exact :
    (∀ d : Digest, ofText d.text = .ok d ∧ d.hex.length = 64) ∧
    (∀ (s : String) (d : Digest),
      ofText s = .ok d ↔ (digitsOf s).map Char.toLower = d.hex.toList) ∧
    (∀ s : String, ofText s = .error ⟨s⟩ ↔
      ¬ ((digitsOf s).length = 64 ∧ ∀ c ∈ digitsOf s, c ∈ hexDigits)) ∧
    ∀ s : String, (ofText s).toOption.map Digest.bytes = bytesByPlace? (digitsOf s) := by
  have hhex : ∀ d : Digest, d.hex.toList = d.bytes.flatMap hexByte := fun d =>
    String.toList_ofList
  have hiff : ∀ (s : String) (d : Digest),
      ofText s = .ok d ↔ (digitsOf s).map Char.toLower = d.hex.toList := fun s d => by
    rw [ofText_eq_ok_iff, bytesOfHex?_eq_some_iff, hhex]
  refine ⟨fun d => ⟨?_, ?_⟩, hiff, fun s => ?_, fun s => ?_⟩
  · have hlower : d.hex.toList.map Char.toLower = d.hex.toList := by
      refine (List.map_congr_left fun c hc => ?_).trans (List.map_id _)
      obtain ⟨v, hv, rfl⟩ := exists_of_mem_hexByte (hhex d ▸ hc)
      exact toLower_hexDigit hv
    rw [hiff, digitsOf_text, hlower]
  · rw [← String.length_toList, hhex, length_flatMap_hexByte, d.length_bytes]
  · rw [← exists_bytesOfHex?_iff (n := 32), ofText_eq]
    cases bytesOfHex? (digitsOf s) with
    | none => simp
    | some bytes => by_cases h : bytes.length = 32 <;> simp [h]
  · rw [bytesByPlace?_eq, ofText_eq]
    cases bytesOfHex? (digitsOf s) with
    | none => rfl
    | some bytes =>
      by_cases h : bytes.length = 32 <;> simp [h, Option.filter_some, Except.toOption]

end Digest

end BindingRules
