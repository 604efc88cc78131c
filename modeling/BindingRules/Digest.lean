import BindingRules.Sha256
import BindingRules.Text.Blank
import BindingRules.Text.Hexadecimal
import BindingRules.Text.Quoted

set_option autoImplicit false

/-!
# Digests

A resolved policy is identified by the SHA-256 hash of its canonical summary, written as
`sha256:` and 64 hexadecimal digits. A digest can be read back from its text, so that a build can
state which policy it expects.

## Main definitions

* `Digest` — a row of 32 bytes.
* `Digest.hex`, `Digest.text` — a digest as text, without and with the name of the hash function.
* `Digest.ofText` — the digest that a text denotes.
* `Digest.ofMessage` — the digest of a text.
-/

namespace BindingRules

/-- A SHA-256 digest. -/
structure Digest where
  /-- The bytes of the hash. -/
  bytes : List UInt8
  /-- There are 32 of them. -/
  length_bytes : bytes.length = 32
  deriving DecidableEq

namespace Digest

/-- The two digits of a byte, in small letters. -/
def hexByte (b : UInt8) : List Char := [Text.hexDigit (b.toNat / 16), Text.hexDigit (b.toNat % 16)]

/-- The 64 digits of a digest, in small letters. -/
def hex (d : Digest) : String := String.ofList (d.bytes.flatMap hexByte)

/-- The name of the hash function with which the text of a digest begins. -/
def mark : String := "sha256:"

/-- A digest as text. -/
def text (d : Digest) : String := mark ++ d.hex

/-- The bytes that pairs of hexadecimal digits denote. -/
def bytesOfHex? : List Char → Option (List UInt8)
  | [] => some []
  | a :: b :: rest => do
    let a ← Text.hexValue? a
    let b ← Text.hexValue? b
    let bytes ← bytesOfHex? rest
    return UInt8.ofNat (16 * a + b) :: bytes
  | _ => none

/-- A text that denotes no digest. -/
structure Malformed where
  /-- The text as it was given. -/
  text : String
  deriving DecidableEq, Repr

/-- The wording of the refusal. -/
def Malformed.message (e : Malformed) : String :=
  "invalid sha256 digest " ++ Text.quoted e.text ++ ": expected 64 hex digits"

/-- The digest that a text denotes: 64 digits in large or small letters, with or without the name
of the hash function before them, and blanks around. -/
def ofText (s : String) : Except Malformed Digest :=
  let trimmed := Text.trim s.toList
  let digits := (mark.toList.isPrefixOf? trimmed).getD trimmed
  match bytesOfHex? digits with
  | some bytes => if h : bytes.length = 32 then .ok ⟨bytes, h⟩ else .error ⟨s⟩
  | none => .error ⟨s⟩

/-- The digest of a text. -/
def ofMessage (message : String) : Digest :=
  ⟨Sha256.hash message.toUTF8.toList, Sha256.length_hash _⟩

end Digest

end BindingRules
