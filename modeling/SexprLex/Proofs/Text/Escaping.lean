import Mathlib.Data.List.TakeWhile
import SexprLex.Text.Escaped

/-!
# Escaped text is read back

Escaping loses nothing and lets nothing through that could disturb a terminal.

**Theorem (`escapeAll_inj`).** Texts with the same escaped form are the same, whichever marks are
escaped.

**Theorem (`not_isControl_escapeAll`).** Escaped text holds no control character, and so no
newline.

The first one is shown by reading. The escaped form of a character tells where it ends, so
`readChar` gets the character back whatever is behind it (`readChar_escape`), and texts are
compared from the front.
-/

namespace SexprLex.Text

/-! ## The front of a text -/

theorem takeWhile_append_of_stops {α : Type} {p : α → Bool} {a rest : List α}
    (ha : ∀ x ∈ a, p x = true) (hrest : ∀ x ∈ rest.head?, p x = false) :
    (a ++ rest).takeWhile p = a := by
  rw [List.takeWhile_append_of_pos ha]
  cases rest with
  | nil => rw [List.takeWhile_nil, List.append_nil]
  | cons x rest =>
    rw [List.takeWhile_cons_of_neg (by simp [hrest x rfl]), List.append_nil]

/-- A text divides in one way into a part with a property and a rest that begins without it. -/
theorem append_inj_of_stops {α : Type} (p : α → Bool) {a b rest rest' : List α}
    (ha : ∀ x ∈ a, p x = true) (hb : ∀ x ∈ b, p x = true)
    (hrest : ∀ x ∈ rest.head?, p x = false) (hrest' : ∀ x ∈ rest'.head?, p x = false)
    (h : a ++ rest = b ++ rest') : a = b ∧ rest = rest' := by
  have hab : a = b := by
    rw [← takeWhile_append_of_stops ha hrest, h, takeWhile_append_of_stops hb hrest']
  exact ⟨hab, List.append_cancel_left (hab ▸ h)⟩

/-- The first newline of a text divides it in one way. -/
theorem line_inj {a b rest rest' : List Char} (ha : '\n' ∉ a) (hb : '\n' ∉ b)
    (h : a ++ '\n' :: rest = b ++ '\n' :: rest') : a = b ∧ rest = rest' := by
  have hne : ∀ w : List Char, '\n' ∉ w → ∀ c ∈ w, (c != '\n') = true := by
    intro w hw c hc
    rw [bne_iff_ne]
    rintro rfl
    exact hw hc
  obtain ⟨hab, hrest⟩ := append_inj_of_stops _ (hne a ha) (hne b hb) (by simp) (by simp) h
  exact ⟨hab, (List.cons.inj hrest).2⟩

/-! ## Hexadecimal numbers -/

/-- What a hexadecimal digit stands for. -/
def hexDigit (c : Char) : Nat :=
  if c.isDigit then c.toNat - '0'.toNat else c.toNat - 'a'.toNat + 10

/-- What some hexadecimal digits stand for. -/
def hexValue (digits : List Char) : Nat := digits.foldl (fun n c => 16 * n + hexDigit c) 0

theorem hexDigit_digitChar : ∀ d < 16, hexDigit d.digitChar = d := by decide

theorem hexValue_toDigits (n : Nat) : hexValue (Nat.toDigits 16 n) = n := by
  induction n using Nat.strongRecOn with
  | ind n ih =>
    by_cases hn : n < 16
    · rw [Nat.toDigits_of_lt_base hn]
      simp [hexValue, hexDigit_digitChar n hn]
    · have hdiv := ih (n / 16) (by omega)
      have hmod := hexDigit_digitChar (n % 16) (Nat.mod_lt n (by decide))
      rw [Nat.toDigits_of_base_le (by decide) (Nat.not_lt.1 hn), hexValue, List.foldl_append,
        ← hexValue, hdiv, List.foldl_cons, List.foldl_nil, hmod]
      exact Nat.div_add_mod n 16

theorem forall_mem_toDigits {b : Nat} (hb : 1 < b) {P : Char → Prop}
    (h : ∀ d < b, P d.digitChar) (n : Nat) : ∀ c ∈ Nat.toDigits b n, P c := by
  induction n using Nat.strongRecOn with
  | ind n ih =>
    by_cases hn : n < b
    · rw [Nat.toDigits_of_lt_base hn, List.forall_mem_singleton]
      exact h n hn
    · rw [Nat.toDigits_of_base_le hb (Nat.not_lt.1 hn), List.forall_mem_append,
        List.forall_mem_singleton]
      exact ⟨ih (n / b) (Nat.div_lt_self (by omega) hb), h (n % b) (Nat.mod_lt n (by omega))⟩

/-! ## Reading -/

/-- The character that an escaped text begins with, and what is behind it. -/
def readChar : List Char → Option (Char × List Char)
  | '\\' :: 'u' :: '\x7b' :: rest =>
    some (Char.ofNat (hexValue (rest.takeWhile (· != '\x7d'))),
      (rest.dropWhile (· != '\x7d')).tail)
  | '\\' :: '0' :: rest => some ('\x00', rest)
  | '\\' :: 't' :: rest => some ('\t', rest)
  | '\\' :: 'n' :: rest => some ('\n', rest)
  | '\\' :: 'r' :: rest => some ('\r', rest)
  | '\\' :: c :: rest => some (c, rest)
  | c :: rest => some (c, rest)
  | [] => none

theorem readChar_of_ne {c : Char} (h : c ≠ '\\') (rest : List Char) :
    readChar (c :: rest) = some (c, rest) := by
  unfold readChar
  split <;> simp_all

theorem readChar_numbered (c : Char) (rest : List Char) :
    readChar (numbered c ++ rest) = some (c, rest) := by
  have hdigits : ∀ d ∈ Nat.toDigits 16 c.toNat, (d != '\x7d') = true :=
    forall_mem_toDigits (by decide) (by decide) c.toNat
  have hstops : ∀ d ∈ ('\x7d' :: rest).head?, (d != '\x7d') = false := by simp
  have hsplit : numbered c ++ rest =
      '\\' :: 'u' :: '\x7b' :: (Nat.toDigits 16 c.toNat ++ '\x7d' :: rest) := by
    simp [numbered]
  rw [hsplit, readChar, takeWhile_append_of_stops hdigits hstops,
    List.dropWhile_append_of_pos hdigits, hexValue_toDigits, Char.ofNat_toNat]
  simp

/-- **A character is read back, whatever is behind it.** -/
theorem readChar_escape (marks : Marks) (c : Char) (rest : List Char) :
    readChar (escape marks c ++ rest) = some (c, rest) := by
  unfold escape
  split
  -- The two quotation marks, and then what has no escape of its own.
  case h_6 | h_7 => split <;> rfl
  case h_8 hslash _ _ =>
    split
    · exact readChar_numbered c rest
    · exact readChar_of_ne hslash rest
  all_goals rfl

theorem escapeAll_cons (marks : Marks) (c : Char) (text : List Char) :
    escapeAll marks (c :: text) = escape marks c ++ escapeAll marks text := List.flatMap_cons ..

theorem readChar_escapeAll_cons (marks : Marks) (c : Char) (text : List Char) :
    readChar (escapeAll marks (c :: text)) = some (c, escapeAll marks text) := by
  rw [escapeAll_cons, readChar_escape]

/-- **Escaping loses nothing.** -/
theorem escapeAll_inj {marks marks' : Marks} {a b : List Char}
    (h : escapeAll marks a = escapeAll marks' b) : a = b := by
  induction a generalizing b with
  | nil =>
    cases b with
    | nil => rfl
    | cons d b =>
      have hread := readChar_escapeAll_cons marks' d b
      rw [← h] at hread
      cases hread
  | cons c a ih =>
    have hread := readChar_escapeAll_cons marks c a
    cases b with
    | nil =>
      rw [h] at hread
      cases hread
    | cons d b =>
      rw [h, readChar_escapeAll_cons, Option.some.injEq, Prod.mk.injEq] at hread
      obtain ⟨rfl, hrest⟩ := hread
      rw [ih hrest.symm]

theorem escapeString_inj {s t : String} (h : escapeString s = escapeString t) : s = t := by
  rw [escapeString, escapeString, String.ofList_inj, List.append_cancel_right_eq,
    List.cons.injEq] at h
  exact String.toList_inj.1 (escapeAll_inj h.2)

/-! ## Control characters -/

/-- The characters that act on a terminal instead of being shown. -/
def IsControl (c : Char) : Prop := c.toNat < 0x20 ∨ 0x7F ≤ c.toNat ∧ c.toNat < 0xA0

instance (c : Char) : Decidable (IsControl c) := inferInstanceAs (Decidable (_ ∨ _))

/-- The table begins with the control characters that have no short escape. -/
theorem Unprintable.exists_ranges : ∃ rest, ranges =
    (0x1, 0x8) :: (0xB, 0xC) :: (0xE, 0x1F) :: (0x7F, 0xA0) :: rest := ⟨_, rfl⟩

/-- Control characters are written by number, but for the four with a short escape. -/
theorem isUnprintable_of_isControl {c : Char} (h : IsControl c) (h0 : c ≠ '\x00')
    (ht : c ≠ '\t') (hn : c ≠ '\n') (hr : c ≠ '\r') : isUnprintable c = true := by
  have hne : ∀ d : Char, c ≠ d → c.toNat ≠ d.toNat :=
    fun d hd hnat => hd (Char.toNat_inj.1 hnat)
  have h0 : c.toNat ≠ 0 := hne _ h0
  have ht : c.toNat ≠ 9 := hne _ ht
  have hn : c.toNat ≠ 10 := hne _ hn
  have hr : c.toNat ≠ 13 := hne _ hr
  obtain ⟨rest, hranges⟩ := Unprintable.exists_ranges
  rw [isUnprintable, hranges]
  simp only [Unprintable.covers, Bool.and_eq_true, Bool.or_eq_true, decide_eq_true_eq]
  unfold IsControl at h
  omega

theorem not_isControl_numbered (c : Char) : ∀ d ∈ numbered c, ¬ IsControl d := by
  rw [numbered, List.forall_mem_append, List.forall_mem_append]
  refine ⟨⟨?_, forall_mem_toDigits (by decide) (by decide) c.toNat⟩, ?_⟩ <;> simp [IsControl]

theorem not_isControl_escape (marks : Marks) (c : Char) :
    ∀ d ∈ escape marks c, ¬ IsControl d := by
  unfold escape
  split
  case h_8 h0 ht hn hr _ _ _ =>
    split
    · exact not_isControl_numbered c
    · next hprintable =>
      rw [List.forall_mem_singleton]
      exact fun hc => hprintable (isUnprintable_of_isControl hc h0 ht hn hr)
  case h_6 | h_7 => split <;> simp [IsControl]
  all_goals simp [IsControl]

/-- **Escaped text holds no control character.** -/
theorem not_isControl_escapeAll (marks : Marks) (text : List Char) :
    ∀ d ∈ escapeAll marks text, ¬ IsControl d := by
  intro d hd
  obtain ⟨c, -, hd⟩ := List.mem_flatMap.1 hd
  exact not_isControl_escape marks c d hd

end SexprLex.Text
