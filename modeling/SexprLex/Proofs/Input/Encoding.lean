import Mathlib.Data.List.Basic
import Mathlib.Tactic.SplitIfs
import SexprLex.Input.Utf8

/-!
# Encoded characters, taken apart

The standard encoder writes a character as a lead byte and some following bytes; the decoder
reads a lead byte, gathers the bits of the bytes that follow, and checks the code point it
gets. Here the two are fitted together, one character at a time.

* `encode` — the bytes of a text.
* `gather` — the code point that some following bytes complete.
* `exists_lead` — what the encoder writes is a lead byte and what it announces.
* `encode_eq` — and nothing else is: bytes that pass all checks are what the encoder writes.

Together they say that a byte sequence decodes to a character exactly if it is the encoding of
that character. The encoder is the one of the standard library, `String.utf8EncodeChar`.
-/

namespace SexprLex.Utf8

/-- The code point of a character whose bits so far are `bits` and whose other bytes are given;
none if one of them cannot follow. -/
def gather (bits : Nat) : List UInt8 → Option Nat
  | [] => some bits
  | b :: bs => (continuation? b).bind fun six => gather (bits * 64 + six) bs

theorem gather_cons_eq_some {bits code : Nat} {b : UInt8} {bs : List UInt8} :
    gather bits (b :: bs) = some code ↔
      ∃ six, continuation? b = some six ∧ gather (bits * 64 + six) bs = some code := by
  simp only [gather, Option.bind_eq_some_iff]

/-! ## Bytes and their numbers -/

theorem toNat_ofNat_of_lt {n : Nat} (h : n < 256) : (UInt8.ofNat n).toNat = n := by
  rw [UInt8.toNat_ofNat', Nat.mod_eq_of_lt h]

theorem ofNat_eq_of_toNat {b : UInt8} {n : Nat} (h : b.toNat = n) : UInt8.ofNat n = b := by
  rw [← h, UInt8.ofNat_toNat]

theorem continuation?_ofNat {n : Nat} (h : n < 64) :
    continuation? (UInt8.ofNat (n + 0x80)) = some n := by
  have hn := toNat_ofNat_of_lt (n := n + 0x80) (by omega)
  simp only [continuation?, hn, Nat.add_sub_cancel]
  rw [if_pos (by omega)]

theorem toNat_of_continuation? {b : UInt8} {six : Nat} (h : continuation? b = some six) :
    b.toNat = six + 0x80 ∧ six < 64 := by
  unfold continuation? at h
  split at h
  · simp only [Option.some.injEq] at h
    omega
  · cases h

/-- The four kinds of lead byte. -/
theorem of_ofByte?_eq_some {b : UInt8} {lead : Lead} (h : Lead.ofByte? b = some lead) :
    (b.toNat ≤ 0x7F ∧ lead = ⟨0, b.toNat, 0⟩) ∨
      (0xC2 ≤ b.toNat ∧ b.toNat ≤ 0xDF ∧ lead = ⟨1, b.toNat - 0xC0, 0x80⟩) ∨
      (0xE0 ≤ b.toNat ∧ b.toNat ≤ 0xEF ∧ lead = ⟨2, b.toNat - 0xE0, 0x800⟩) ∨
      (0xF0 ≤ b.toNat ∧ b.toNat ≤ 0xF4 ∧ lead = ⟨3, b.toNat - 0xF0, 0x10000⟩) := by
  simp only [Lead.ofByte?] at h
  split_ifs at h with h1 h2 h3 h4 h5 <;> cases h
  · exact Or.inl ⟨h1, rfl⟩
  · exact Or.inr (Or.inl ⟨by omega, h3, rfl⟩)
  · exact Or.inr (Or.inr (Or.inl ⟨by omega, h4, rfl⟩))
  · exact Or.inr (Or.inr (Or.inr ⟨by omega, h5, rfl⟩))

theorem toNat_lt (c : Char) : c.toNat < 0x110000 := by
  have h := c.valid
  simp only [UInt32.isValidChar, Nat.isValidChar] at h
  simp only [Char.toNat]
  omega

/-! ## The character of a code point -/

theorem scalar?_toNat {least : Nat} {c : Char} (h : least ≤ c.toNat) :
    scalar? least c.toNat = some c := by
  rw [scalar?, dif_pos ⟨h, c.valid⟩]
  rfl

theorem of_scalar?_eq_some {least code : Nat} {c : Char} (h : scalar? least code = some c) :
    c.toNat = code ∧ least ≤ code := by
  by_cases hc : least ≤ code ∧ code.isValidChar
  · rw [scalar?, dif_pos hc] at h
    cases h
    exact ⟨rfl, hc.1⟩
  · rw [scalar?, dif_neg hc] at h
    cases h

/-! ## Encoding -/

/-- The bytes of a text, encoded. -/
def encode (text : List Char) : List UInt8 := text.flatMap String.utf8EncodeChar

@[simp] theorem encode_nil : encode [] = [] := rfl

@[simp] theorem encode_cons (c : Char) (text : List Char) :
    encode (c :: text) = String.utf8EncodeChar c ++ encode text := rfl

theorem encode_append (a b : List Char) : encode (a ++ b) = encode a ++ encode b :=
  List.flatMap_append

theorem toUTF8_eq_encode (s : String) : s.toUTF8.data.toList = encode s.toList := by
  rw [String.toUTF8_eq_toByteArray, ← String.utf8Encode_toList]
  exact List.toList_data_toByteArray

/-- The first byte of an encoded character announces the others, and these complete the code
point. -/
theorem exists_lead (c : Char) : ∃ b bs lead, String.utf8EncodeChar c = b :: bs ∧
    Lead.ofByte? b = some lead ∧ bs.length = lead.missing ∧ lead.least ≤ c.toNat ∧
      gather lead.bits bs = some c.toNat := by
  have hc := toNat_lt c
  have hv : c.val.toNat = c.toNat := rfl
  simp only [String.utf8EncodeChar, hv]
  generalize c.toNat = n at hc
  have h₁ : n % 64 < 64 := Nat.mod_lt _ (by decide)
  have h₂ : n / 64 % 64 < 64 := Nat.mod_lt _ (by decide)
  have h₃ : n / 4096 % 64 < 64 := Nat.mod_lt _ (by decide)
  by_cases hone : n ≤ 0x7f
  · rw [if_pos hone]
    refine ⟨_, _, ⟨0, n, 0⟩, rfl, ?_, rfl, Nat.zero_le _, rfl⟩
    simp only [Lead.ofByte?, toNat_ofNat_of_lt (show n < 256 by omega)]
    rw [if_pos hone]
  rw [if_neg hone]
  by_cases htwo : n ≤ 0x7ff
  · rw [if_pos htwo]
    refine ⟨_, _, ⟨1, n / 64, 0x80⟩, rfl, ?_, rfl, by dsimp only; omega, ?_⟩
    · simp only [Lead.ofByte?, toNat_ofNat_of_lt (show n / 64 % 0x20 + 0xc0 < 256 by omega)]
      rw [if_neg (by omega), if_neg (by omega), if_pos (by omega)]
      simp only [Option.some.injEq, Lead.mk.injEq, and_true, true_and]
      omega
    · simp only [gather, continuation?_ofNat h₁, Option.bind_some, Option.some.injEq]
      omega
  rw [if_neg htwo]
  by_cases hthree : n ≤ 0xffff
  · rw [if_pos hthree]
    refine ⟨_, _, ⟨2, n / 4096, 0x800⟩, rfl, ?_, rfl, by dsimp only; omega, ?_⟩
    · simp only [Lead.ofByte?, toNat_ofNat_of_lt (show n / 4096 % 0x10 + 0xe0 < 256 by omega)]
      rw [if_neg (by omega), if_neg (by omega), if_neg (by omega), if_pos (by omega)]
      simp only [Option.some.injEq, Lead.mk.injEq, and_true, true_and]
      omega
    · simp only [gather, continuation?_ofNat h₁, continuation?_ofNat h₂, Option.bind_some,
        Option.some.injEq]
      omega
  · rw [if_neg hthree]
    refine ⟨_, _, ⟨3, n / 262144, 0x10000⟩, rfl, ?_, rfl, by dsimp only; omega, ?_⟩
    · simp only [Lead.ofByte?, toNat_ofNat_of_lt (show n / 262144 % 0x08 + 0xf0 < 256 by omega)]
      rw [if_neg (by omega), if_neg (by omega), if_neg (by omega), if_neg (by omega),
        if_pos (by omega)]
      simp only [Option.some.injEq, Lead.mk.injEq, and_true, true_and]
      omega
    · simp only [gather, continuation?_ofNat h₁, continuation?_ofNat h₂, continuation?_ofNat h₃,
        Option.bind_some, Option.some.injEq]
      omega

/-- Bytes that complete the code point of `c` as their lead announces, and are not too many for
it, are the encoding of `c`. -/
theorem encode_eq {c : Char} {b : UInt8} {bs : List UInt8} {lead : Lead}
    (hb : Lead.ofByte? b = some lead) (hlen : bs.length = lead.missing)
    (hle : lead.least ≤ c.toNat) (hg : gather lead.bits bs = some c.toNat) :
    String.utf8EncodeChar c = b :: bs := by
  have hv : c.val.toNat = c.toNat := rfl
  simp only [String.utf8EncodeChar, hv]
  generalize c.toNat = n at hle hg
  rcases of_ofByte?_eq_some hb with ⟨h, rfl⟩ | ⟨h, h', rfl⟩ | ⟨h, h', rfl⟩ | ⟨h, h', rfl⟩
  · obtain rfl := List.length_eq_zero_iff.1 hlen
    simp only [gather, Option.some.injEq] at hg
    rw [if_pos (by omega), ofNat_eq_of_toNat hg]
  · obtain ⟨b₁, rfl⟩ := List.length_eq_one_iff.1 hlen
    simp only [gather_cons_eq_some] at hg
    obtain ⟨s₁, hs₁, hg⟩ := hg
    simp only [gather, Option.some.injEq] at hg
    have hb₁ := toNat_of_continuation? hs₁
    dsimp only at hle
    rw [if_neg (by omega), if_pos (by omega), ofNat_eq_of_toNat (b := b) (by omega),
      ofNat_eq_of_toNat (b := b₁) (by omega)]
  · obtain ⟨b₁, b₂, rfl⟩ := List.length_eq_two.1 hlen
    simp only [gather_cons_eq_some] at hg
    obtain ⟨s₁, hs₁, s₂, hs₂, hg⟩ := hg
    simp only [gather, Option.some.injEq] at hg
    have hb₁ := toNat_of_continuation? hs₁
    have hb₂ := toNat_of_continuation? hs₂
    dsimp only at hle
    rw [if_neg (by omega), if_neg (by omega), if_pos (by omega),
      ofNat_eq_of_toNat (b := b) (by omega), ofNat_eq_of_toNat (b := b₁) (by omega),
      ofNat_eq_of_toNat (b := b₂) (by omega)]
  · obtain ⟨b₁, b₂, b₃, rfl⟩ := List.length_eq_three.1 hlen
    simp only [gather_cons_eq_some] at hg
    obtain ⟨s₁, hs₁, s₂, hs₂, s₃, hs₃, hg⟩ := hg
    simp only [gather, Option.some.injEq] at hg
    have hb₁ := toNat_of_continuation? hs₁
    have hb₂ := toNat_of_continuation? hs₂
    have hb₃ := toNat_of_continuation? hs₃
    dsimp only at hle
    rw [if_neg (by omega), if_neg (by omega), if_neg (by omega),
      ofNat_eq_of_toNat (b := b) (by omega), ofNat_eq_of_toNat (b := b₁) (by omega),
      ofNat_eq_of_toNat (b := b₂) (by omega), ofNat_eq_of_toNat (b := b₃) (by omega)]

end SexprLex.Utf8
