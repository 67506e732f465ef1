import SexprLex.Input.Reader

/-!
# Characters from bytes

UTF-8 writes a character in one to four bytes. The **lead** byte tells how many bytes follow
and the highest bits of the code point; every following byte adds six bits. A sequence is well
formed if its code point is a Unicode scalar value that needs this many bytes.

* `Utf8.Lead.ofByte?` — what a lead byte announces.
* `Utf8.scalar?` — the character of a code point, if it is well formed.
* `Reader.decode` — the next character of a reader.

A byte that cannot go on with the character is consumed all the same, so that decoding goes on
behind it.
-/

namespace SexprLex

namespace Utf8

/-- What the first byte of a character announces. -/
structure Lead where
  /-- How many bytes follow. -/
  missing : Nat
  /-- The bits of the code point that the lead byte holds. -/
  bits : Nat
  /-- The least code point that needs so many bytes. -/
  least : Nat
  deriving DecidableEq, Repr

/-- The meaning of a lead byte. The bytes `80` to `C1` and `F5` to `FF` begin no character. -/
def Lead.ofByte? (b : UInt8) : Option Lead :=
  let n := b.toNat
  if n ≤ 0x7F then some ⟨0, n, 0⟩
  else if n < 0xC2 then none
  else if n ≤ 0xDF then some ⟨1, n - 0xC0, 0x80⟩
  else if n ≤ 0xEF then some ⟨2, n - 0xE0, 0x800⟩
  else if n ≤ 0xF4 then some ⟨3, n - 0xF0, 0x10000⟩
  else none

/-- The six bits that a following byte adds; only the bytes `80` to `BF` follow. -/
def continuation? (b : UInt8) : Option Nat :=
  if 0x80 ≤ b.toNat ∧ b.toNat ≤ 0xBF then some (b.toNat - 0x80) else none

/-- The character of a code point. It must need all the bytes it came in, and it must not be a
surrogate or beyond the last code point. -/
def scalar? (least code : Nat) : Option Char :=
  if h : least ≤ code ∧ code.isValidChar then some (Char.ofNatAux code h.2) else none

end Utf8

namespace Reader

/-- Reads the `missing` following bytes of a character whose bits so far are `bits`. -/
def decodeRest (least : Nat) : (missing : Nat) → (bits : Nat) → Reader → Answer Char × Reader
  | 0, bits, r =>
    match Utf8.scalar? least bits with
    | some c => (.ok (some c), r)
    | none => (.error .malformedText, r)
  | missing + 1, bits, r =>
    match r.readByte with
    | (.error fault, r) => (.error fault, r)
    | (.ok none, r) => (.error .malformedText, r)
    | (.ok (some b), r) =>
      match Utf8.continuation? b with
      | some six => decodeRest least missing (bits * 64 + six) r
      | none => (.error .malformedText, r)

/-- Reads the next character. An input that ends inside a character is malformed, and so is one
that has anything but a well-formed character here. -/
def decode (r : Reader) : Answer Char × Reader :=
  match r.readByte with
  | (.error fault, r) => (.error fault, r)
  | (.ok none, r) => (.ok none, r)
  | (.ok (some b), r) =>
    match Utf8.Lead.ofByte? b with
    | some lead => decodeRest lead.least lead.missing lead.bits r
    | none => (.error .malformedText, r)

/-! ## What is left -/

theorem remaining_decodeRest {least missing bits : Nat} {r r' : Reader} {answer : Answer Char}
    (h : decodeRest least missing bits r = (answer, r')) : r'.remaining ≤ r.remaining := by
  induction missing generalizing bits r with
  | zero =>
    rw [decodeRest] at h
    split at h <;> cases h <;> exact Nat.le_refl _
  | succ missing ih =>
    rw [decodeRest] at h
    split at h
    · next hr =>
      cases h
      have := remaining_readByte hr
      omega
    · next hr =>
      cases h
      have := remaining_readByte hr
      omega
    · next hr =>
      have hle := remaining_readByte hr
      split at h
      · have := ih h
        omega
      · cases h
        omega

/-- A character or a fault leaves less to say, an end of input no more. -/
theorem remaining_decode {r r' : Reader} {answer : Answer Char} (h : r.decode = (answer, r')) :
    r'.remaining + Answer.cost answer ≤ r.remaining := by
  rw [decode] at h
  split at h
  · next hr =>
    cases h
    simpa using remaining_readByte hr
  · next hr =>
    cases h
    simpa using remaining_readByte hr
  · next hr =>
    have hle := remaining_readByte hr
    split at h
    · have := remaining_decodeRest h
      have : Answer.cost answer ≤ 1 := Answer.cost_le_one answer
      simp only [Answer.cost_ok_some] at hle
      omega
    · cases h
      simpa using hle

end Reader

end SexprLex
