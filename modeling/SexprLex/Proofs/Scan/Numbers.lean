import SexprLex.Proofs.Scan.Lexemes
import SexprLex.Proofs.Token.NumberGrammar

/-!
# Numbers in a text

A scan reads a number only once. It feeds each character as it takes it, and it feeds a sign late,
when a digit has shown that the sign begins a number. What the token says is nevertheless what the
grammar says of the lexeme as a whole.

**Theorem (`tokenize_numbers`).** Every text is classified by its relation to the words of the
grammar (`Number.FollowsGrammar`), and every token of a text that is a number, or should have been
one, is what its lexeme is classified as (`Token.Classified`).

The first half is the theory of the recogniser. For the second half, the outcome of a reading fits
the characters it covers (`Reads.fits_gap`).
-/

namespace SexprLex

open Scan

/-- The text `w` is classified as the grammar says. -/
structure Number.FollowsGrammar (w : List Char) : Prop where
  integer_iff : classify w = .ok .integer ↔ w ∈ integer.matches'
  float_iff : classify w = .ok .float ↔ w ∈ number.matches' ∧ w ∉ integer.matches'
  /-- A text has broken off if it is no word but the beginning of a longer one. -/
  brokenOff_iff : classify w = .error none ↔
    w ∉ number.matches' ∧ ∃ u ∈ number.matches', w <+: u ∧ w ≠ u
  /-- A text is broken if no word begins with it. -/
  broken_iff : (∃ c, classify w = .error (some c)) ↔ ¬ Viable w
  /-- The offending character is the first one up to which no word begins like the text. -/
  offending_iff : ∀ c, classify w = .error (some c) ↔ BreaksAt w c

theorem Number.followsGrammar (w : List Char) : FollowsGrammar w where
  integer_iff := classify_eq_integer_iff
  float_iff := classify_eq_float_iff
  brokenOff_iff := classify_eq_none_iff
  broken_iff := not_viable_iff.symm
  offending_iff _ := classify_eq_some_iff

/-- A number token, well formed or not, is what its lexeme is classified as. -/
structure Token.Classified (t : Token) : Prop where
  integer : t.kind = .integer → Number.classify t.lexeme.toList = .ok .integer
  float : t.kind = .float → Number.classify t.lexeme.toList = .ok .float
  /-- A malformed number is reported where it begins, with the offending character of its
  lexeme. -/
  malformed : ∀ w offending position,
    t.kind = .error ⟨.malformedNumber w offending, position⟩ →
    Number.classify t.lexeme.toList = .error offending ∧ w = t.lexeme ∧ position = t.start

theorem Scan.Outcome.classified_toToken {o : Outcome} {w : List Char} (h : o.Fits w)
    (start stop : Position) : (o.toToken start stop (String.ofList w)).Classified := by
  have hnumber : ∀ {result}, result = Number.classify w →
      Number.classify (String.ofList w).toList = result := by
    intro result hresult
    rw [String.toList_ofList, hresult]
  constructor
  · intro hkind
    rw [toToken] at hkind
    unfold kind at hkind
    split at hkind <;> cases hkind
    exact hnumber h.1
  · intro hkind
    rw [toToken] at hkind
    unfold kind at hkind
    split at hkind <;> cases hkind
    exact hnumber h.1
  · intro v offending position hkind
    rw [toToken] at hkind
    unfold kind at hkind
    split at hkind <;> cases hkind
    exact ⟨hnumber h.1, rfl, rfl⟩

/-- **Numbers are what the grammar says.** -/
theorem tokenize_numbers :
    (∀ w, Number.FollowsGrammar w) ∧
      ∀ (options : Options) (text : String), ∀ t ∈ tokenize options text, t.Classified := by
  refine ⟨Number.followsGrammar, ?_⟩
  intro options text t ht
  obtain ⟨ts, hl⟩ := exists_lexes options.emitComments .start (text.toList.map .ok)
  rw [tokenize_of_lexes hl] at ht
  obtain ⟨before, w, after, o, -, rfl, hr⟩ := hl.exists_reads rfl ht
  exact Outcome.classified_toToken hr.fits_gap _ _

/-- A sign begins this number, and the `x` behind its point is to blame. -/
theorem tokenize_numbers_malformed :
    ∃ t ∈ tokenize .default "+1.x",
      t.kind = .error ⟨.malformedNumber "+1.x" (some 'x'), .start⟩ ∧
      Number.classify t.lexeme.toList = .error (some 'x') := by
  obtain ⟨t, ts, hts, hkind⟩ : ∃ t ts, tokenize .default "+1.x" = t :: ts ∧
      t.kind = .error ⟨.malformedNumber "+1.x" (some 'x'), .start⟩ := by
    have hr : Reads .gap .start ("+1.x".toList.map .ok) "+1.x".toList
        (.ok (.number (.error (some 'x')))) [] :=
      .take rfl (.take rfl (.take rfl (.take rfl .atEnd)))
    refine ⟨_, _, tokenize_of_lexes
      (.token (.found hr ?_) ?_ rfl (.endOfInput (.found .atEnd ?_) rfl)), rfl⟩ <;> simp
  have ht : t ∈ tokenize .default "+1.x" := by
    rw [hts]
    exact List.mem_cons_self
  exact ⟨t, ht, hkind, ((tokenize_numbers.2 .default "+1.x" t ht).malformed _ _ _ hkind).1⟩

end SexprLex
