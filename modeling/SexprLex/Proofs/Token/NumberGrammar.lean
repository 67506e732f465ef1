import Mathlib.Computability.RegularExpressions
import Mathlib.Tactic.IntervalCases
import SexprLex.Token.Number

/-!
# The grammar of numbers

Numbers are recognised one character at a time. What is recognised is a regular language,

`[+-]? [0-9]+ ( \. [0-9]+ )? ( [eE] [+-]? [0-9]+ )?`

and this module holds the recogniser to that expression.

* `integer`, `number` — the expression, without and with what makes a float.
* `Viable`, `BreaksAt` — what some word begins with, and where a text stops to be that.
* `classify_eq_integer_iff`, `classify_eq_float_iff`, `classify_eq_none_iff`,
  `classify_eq_some_iff` — the characters are classified as the grammar says.

The proof goes through the words that lead from a given progress to a number (`Completes`), which
are shown to shrink with every character that is fed. A progress that is not broken leads to some
number (`Progress.exists_finish`), so the recogniser breaks exactly where no word goes on
(`viable_iff`).
-/

namespace SexprLex.Number

open RegularExpression

/-! ## The expression -/

/-- One character out of several. -/
def oneOf (cs : List Char) : RegularExpression Char := (cs.map .char).sum

def optional (r : RegularExpression Char) : RegularExpression Char := 1 + r

def oneOrMore (r : RegularExpression Char) : RegularExpression Char := r * r.star

def sign : RegularExpression Char := oneOf ['+', '-']

def digit : RegularExpression Char :=
  oneOf ['0', '1', '2', '3', '4', '5', '6', '7', '8', '9']

/-- The integers. -/
def integer : RegularExpression Char := optional sign * oneOrMore digit

/-- The integers and the floats. -/
def number : RegularExpression Char :=
  integer * optional (char '.' * oneOrMore digit) *
    optional (oneOf ['e', 'E'] * (optional sign * oneOrMore digit))

/-! ## Its words -/

theorem mem_oneOf {cs w : List Char} : w ∈ (oneOf cs).matches' ↔ ∃ c ∈ cs, w = [c] := by
  induction cs with
  | nil => simp [oneOf]
  | cons c cs ih =>
    have hcons : oneOf (c :: cs) = char c + oneOf cs := rfl
    rw [hcons, matches'_add, Language.mem_add, ih, matches'_char]
    simp only [List.mem_cons, exists_eq_or_imp]
    rfl

theorem mem_optional {r : RegularExpression Char} {w : List Char} :
    w ∈ (optional r).matches' ↔ w = [] ∨ w ∈ r.matches' := by
  rw [optional, matches'_add, Language.mem_add, matches'_epsilon, Language.mem_one]

theorem isDigit_iff {c : Char} :
    c.isDigit = true ↔ c ∈ ['0', '1', '2', '3', '4', '5', '6', '7', '8', '9'] := by
  constructor
  · intro h
    have hc : c = Char.ofNat c.toNat := (Char.ofNat_toNat c).symm
    simp only [Char.isDigit, ge_iff_le, Bool.and_eq_true, decide_eq_true_eq] at h
    have hlow : 48 ≤ c.toNat := h.1
    have hhigh : c.toNat ≤ 57 := h.2
    generalize c.toNat = n at hc hlow hhigh
    interval_cases n <;> subst hc <;> decide
  · intro h
    have hall : ['0', '1', '2', '3', '4', '5', '6', '7', '8', '9'].all Char.isDigit = true := rfl
    exact List.all_eq_true.1 hall c h

theorem of_isDigit {P : Char → Bool}
    (h : ['0', '1', '2', '3', '4', '5', '6', '7', '8', '9'].all P = true) {c : Char}
    (hc : c.isDigit = true) : P c = true :=
  List.all_eq_true.1 h c (isDigit_iff.1 hc)

theorem isSign_iff {c : Char} : isSign c = true ↔ c ∈ ['+', '-'] := by
  simp [isSign]

theorem isExponentMark_iff {c : Char} : isExponentMark c = true ↔ c ∈ ['e', 'E'] := by
  simp [isExponentMark]

/-- Nothing but digits. -/
def Digits (w : List Char) : Prop := ∀ c ∈ w, c.isDigit = true

theorem mem_digit {w : List Char} : w ∈ digit.matches' ↔ ∃ c, c.isDigit = true ∧ w = [c] := by
  simp only [digit, mem_oneOf, ← isDigit_iff]

theorem mem_oneOrMore_digit {w : List Char} :
    w ∈ (oneOrMore digit).matches' ↔ w ≠ [] ∧ Digits w := by
  rw [oneOrMore, matches'_mul, matches'_star, Language.mem_mul]
  constructor
  · rintro ⟨a, ha, b, ⟨ws, rfl, hws⟩, rfl⟩
    obtain ⟨c, hc, rfl⟩ := mem_digit.1 ha
    refine ⟨List.cons_ne_nil _ _, ?_⟩
    intro d hd
    rcases List.mem_cons.1 hd with rfl | hd
    · exact hc
    · obtain ⟨v, hv, hdv⟩ := List.mem_flatten.1 hd
      obtain ⟨d', hd', rfl⟩ := mem_digit.1 (hws v hv)
      rw [List.mem_singleton.1 hdv]
      exact hd'
  · rintro ⟨hne, hw⟩
    obtain ⟨c, r, rfl⟩ := List.exists_cons_of_ne_nil hne
    have hr : r ∈ KStar.kstar digit.matches' := by
      refine Language.mem_kstar.2 ⟨r.map fun d => [d], ?_, ?_⟩
      · rw [← List.flatMap_def, List.flatMap_singleton']
      · intro y hy
        obtain ⟨d, hd, rfl⟩ := List.mem_map.1 hy
        exact mem_digit.2 ⟨d, hw d (List.mem_cons_of_mem _ hd), rfl⟩
    exact ⟨[c], mem_digit.2 ⟨c, hw c List.mem_cons_self, rfl⟩, r, hr, rfl⟩

/-- A sign or nothing. -/
def OptionalSign (w : List Char) : Prop := w = [] ∨ ∃ c, isSign c = true ∧ w = [c]

/-- A point and digits, or nothing. -/
def OptionalFraction (w : List Char) : Prop :=
  w = [] ∨ ∃ ds, w = '.' :: ds ∧ ds ≠ [] ∧ Digits ds

/-- An exponent, or nothing. -/
def OptionalExponent (w : List Char) : Prop :=
  w = [] ∨ ∃ c s ds, w = c :: (s ++ ds) ∧ isExponentMark c = true ∧ OptionalSign s ∧
    ds ≠ [] ∧ Digits ds

theorem mem_optional_sign {w : List Char} : w ∈ (optional sign).matches' ↔ OptionalSign w := by
  simp only [mem_optional, sign, mem_oneOf, ← isSign_iff, OptionalSign]

theorem mem_optional_fraction {w : List Char} :
    w ∈ (optional (char '.' * oneOrMore digit)).matches' ↔ OptionalFraction w := by
  rw [mem_optional, matches'_mul, matches'_char, Language.mem_mul, OptionalFraction]
  refine or_congr_right ⟨?_, ?_⟩
  · rintro ⟨a, rfl, ds, hds, rfl⟩
    exact ⟨ds, rfl, mem_oneOrMore_digit.1 hds⟩
  · rintro ⟨ds, rfl, hds⟩
    exact ⟨['.'], rfl, ds, mem_oneOrMore_digit.2 hds, rfl⟩

theorem mem_optional_exponent {w : List Char} :
    w ∈ (optional (oneOf ['e', 'E'] * (optional sign * oneOrMore digit))).matches' ↔
      OptionalExponent w := by
  rw [mem_optional, matches'_mul, matches'_mul, Language.mem_mul, OptionalExponent]
  refine or_congr_right ⟨?_, ?_⟩
  · rintro ⟨a, ha, b, ⟨s, hs, ds, hds, rfl⟩, rfl⟩
    obtain ⟨c, hc, rfl⟩ := mem_oneOf.1 ha
    exact ⟨c, s, ds, rfl, isExponentMark_iff.2 hc, mem_optional_sign.1 hs,
      mem_oneOrMore_digit.1 hds⟩
  · rintro ⟨c, s, ds, rfl, hc, hs, hds⟩
    exact ⟨[c], mem_oneOf.2 ⟨c, isExponentMark_iff.1 hc, rfl⟩, s ++ ds,
      ⟨s, mem_optional_sign.2 hs, ds, mem_oneOrMore_digit.2 hds, rfl⟩, rfl⟩

theorem mem_integer {w : List Char} :
    w ∈ integer.matches' ↔ ∃ s ds, w = s ++ ds ∧ OptionalSign s ∧ ds ≠ [] ∧ Digits ds := by
  rw [integer, matches'_mul, Language.mem_mul]
  constructor
  · rintro ⟨s, hs, ds, hds, rfl⟩
    exact ⟨s, ds, rfl, mem_optional_sign.1 hs, mem_oneOrMore_digit.1 hds⟩
  · rintro ⟨s, ds, rfl, hs, hds⟩
    exact ⟨s, mem_optional_sign.2 hs, ds, mem_oneOrMore_digit.2 hds, rfl⟩

theorem mem_number {w : List Char} :
    w ∈ number.matches' ↔ ∃ n f e, w = n ++ f ++ e ∧ n ∈ integer.matches' ∧
      OptionalFraction f ∧ OptionalExponent e := by
  rw [number, matches'_mul, matches'_mul, Language.mem_mul]
  constructor
  · rintro ⟨nf, ⟨n, hn, f, hf, rfl⟩, e, he, rfl⟩
    exact ⟨n, f, e, rfl, hn, mem_optional_fraction.1 hf, mem_optional_exponent.1 he⟩
  · rintro ⟨n, f, e, rfl, hn, hf, he⟩
    exact ⟨n ++ f, ⟨n, hn, f, mem_optional_fraction.2 hf, rfl⟩, e,
      mem_optional_exponent.2 he, rfl⟩

/-! ## Words are recognised -/

namespace Progress

theorem feedAll_of_stays {p : Progress} {w : List Char} (h : ∀ c ∈ w, p.feed c = p) :
    p.feedAll w = p := by
  induction w with
  | nil => rfl
  | cons c w ih =>
    rw [feedAll_cons, h c List.mem_cons_self, ih fun d hd => h d (List.mem_cons_of_mem _ hd)]

/-- Digits lead from `p` to `q` and stay there. -/
theorem feedAll_digits {p q : Progress} {ds : List Char} (hne : ds ≠ []) (hds : Digits ds)
    (hp : ∀ c, c.isDigit = true → p.feed c = q) (hq : ∀ c, c.isDigit = true → q.feed c = q) :
    p.feedAll ds = q := by
  obtain ⟨c, r, rfl⟩ := List.exists_cons_of_ne_nil hne
  rw [feedAll_cons, hp c (hds c List.mem_cons_self)]
  exact feedAll_of_stays fun d hd => hq d (hds d (List.mem_cons_of_mem _ hd))

theorem not_isSign_of_isDigit {c : Char} (h : c.isDigit = true) : isSign c = false := by
  simpa using of_isDigit (P := fun c => !isSign c) rfl h

theorem not_isDigit_of_isExponentMark {c : Char} (h : isExponentMark c = true) :
    c.isDigit = false := by
  rw [isExponentMark_iff, List.mem_pair] at h
  rcases h with rfl | rfl <;> decide

theorem ne_point_of_isExponentMark {c : Char} (h : isExponentMark c = true) : c ≠ '.' := by
  rw [isExponentMark_iff, List.mem_pair] at h
  rcases h with rfl | rfl <;> decide

theorem feedAll_integer {w : List Char} (h : w ∈ integer.matches') :
    empty.feedAll w = whole := by
  obtain ⟨s, ds, rfl, hs, hne, hds⟩ := mem_integer.1 h
  rw [feedAll_append]
  rcases hs with rfl | ⟨c, hc, rfl⟩
  · refine feedAll_digits hne hds (fun c hc => ?_) (fun c hc => ?_)
    · simp [feed, not_isSign_of_isDigit hc, hc]
    · simp [feed, hc]
  · have hsign : empty.feedAll [c] = .sign := by simp [feed, hc]
    rw [hsign]
    refine feedAll_digits hne hds (fun c hc => ?_) (fun c hc => ?_) <;> simp [feed, hc]

theorem feedAll_fraction {w : List Char} (h : OptionalFraction w) (hne : w ≠ []) :
    whole.feedAll w = fraction := by
  rcases h with rfl | ⟨ds, rfl, hds, hdigits⟩
  · exact absurd rfl hne
  · rw [feedAll_cons, show whole.feed '.' = .point from rfl]
    refine feedAll_digits hds hdigits (fun c hc => ?_) (fun c hc => ?_) <;> simp [feed, hc]

theorem feedAll_exponent {p : Progress} {w : List Char} (hp : p = whole ∨ p = fraction)
    (h : OptionalExponent w) (hne : w ≠ []) : p.feedAll w = exponentDigits := by
  rcases h with rfl | ⟨c, s, ds, rfl, hc, hs, hds, hdigits⟩
  · exact absurd rfl hne
  · have hexp : p.feed c = .exponent := by
      have h₁ := not_isDigit_of_isExponentMark hc
      have h₂ := ne_point_of_isExponentMark hc
      rcases hp with rfl | rfl <;> simp [feed, h₁, h₂, hc]
    rw [feedAll_cons, hexp, feedAll_append]
    rcases hs with rfl | ⟨d, hd, rfl⟩
    · refine feedAll_digits hds hdigits (fun c hc => ?_) (fun c hc => ?_)
      · simp [feed, not_isSign_of_isDigit hc, hc]
      · simp [feed, hc]
    · have hsign : exponent.feedAll [d] = .exponentSign := by simp [feed, hd]
      rw [hsign]
      refine feedAll_digits hds hdigits (fun c hc => ?_) (fun c hc => ?_) <;> simp [feed, hc]

/-! ## Nothing else is recognised -/

/-- What may follow the digits of an integer, or of the whole part of a float. -/
def Tail : Kind → List Char → Prop
  | .integer, t => t = []
  | .float, t => ∃ f e, t = f ++ e ∧ OptionalFraction f ∧ OptionalExponent e ∧ t ≠ []

/-- The words that lead from a progress to a number of the given kind. -/
def Completes (k : Kind) : Progress → List Char → Prop
  | .empty, w => ∃ s ds t, w = s ++ ds ++ t ∧ OptionalSign s ∧ ds ≠ [] ∧ Digits ds ∧ Tail k t
  | .sign, w => ∃ ds t, w = ds ++ t ∧ ds ≠ [] ∧ Digits ds ∧ Tail k t
  | .whole, w => ∃ ds t, w = ds ++ t ∧ Digits ds ∧ Tail k t
  | .point, w => k = .float ∧ ∃ ds e, w = ds ++ e ∧ ds ≠ [] ∧ Digits ds ∧ OptionalExponent e
  | .fraction, w => k = .float ∧ ∃ ds e, w = ds ++ e ∧ Digits ds ∧ OptionalExponent e
  | .exponent, w => k = .float ∧ ∃ s ds, w = s ++ ds ∧ OptionalSign s ∧ ds ≠ [] ∧ Digits ds
  | .exponentSign, w => k = .float ∧ w ≠ [] ∧ Digits w
  | .exponentDigits, w => k = .float ∧ Digits w
  | .broken _, _ => False

theorem digits_nil : Digits [] := fun _ h => absurd h List.not_mem_nil

theorem digits_cons {c : Char} {ds : List Char} (hc : c.isDigit = true) (h : Digits ds) :
    Digits (c :: ds) := by
  intro d hd
  rcases List.mem_cons.1 hd with rfl | hd
  · exact hc
  · exact h d hd

theorem completes_nil {k : Kind} {p : Progress} (h : p.finish = .ok k) : Completes k p [] := by
  cases p with
  | whole =>
    cases h
    exact ⟨[], [], rfl, digits_nil, rfl⟩
  | fraction =>
    cases h
    exact ⟨rfl, [], [], rfl, digits_nil, Or.inl rfl⟩
  | exponentDigits =>
    cases h
    exact ⟨rfl, digits_nil⟩
  | _ => cases h

/-- If `w` completes what `c` leads to, then `c` and `w` complete what was there. -/
theorem completes_cons {k : Kind} {p : Progress} {c : Char} {w : List Char}
    (h : Completes k (p.feed c) w) : Completes k p (c :: w) := by
  cases p with
  | empty =>
    simp only [feed] at h
    split_ifs at h with hs hd
    · obtain ⟨ds, t, rfl, hne, hds, ht⟩ := h
      exact ⟨[c], ds, t, rfl, Or.inr ⟨c, hs, rfl⟩, hne, hds, ht⟩
    · obtain ⟨ds, t, rfl, hds, ht⟩ := h
      exact ⟨[], c :: ds, t, rfl, Or.inl rfl, List.cons_ne_nil _ _, digits_cons hd hds, ht⟩
    · exact h.elim
  | sign =>
    simp only [feed] at h
    split_ifs at h with hd
    · obtain ⟨ds, t, rfl, hds, ht⟩ := h
      exact ⟨c :: ds, t, rfl, List.cons_ne_nil _ _, digits_cons hd hds, ht⟩
    · exact h.elim
  | whole =>
    simp only [feed] at h
    split_ifs at h with hd hp he
    · obtain ⟨ds, t, rfl, hds, ht⟩ := h
      exact ⟨c :: ds, t, rfl, digits_cons hd hds, ht⟩
    · obtain ⟨rfl, ds, e, rfl, hne, hds, he⟩ := h
      refine ⟨[], c :: (ds ++ e), rfl, digits_nil, c :: ds, e, rfl, ?_, he, List.cons_ne_nil _ _⟩
      exact Or.inr ⟨ds, by rw [hp], hne, hds⟩
    · obtain ⟨rfl, s, ds, rfl, hs, hne, hds⟩ := h
      refine ⟨[], c :: (s ++ ds), rfl, digits_nil, [], _, rfl, Or.inl rfl, ?_,
        List.cons_ne_nil _ _⟩
      exact Or.inr ⟨c, s, ds, rfl, he, hs, hne, hds⟩
    · exact h.elim
  | point =>
    simp only [feed] at h
    split_ifs at h with hd
    · obtain ⟨rfl, ds, e, rfl, hds, he⟩ := h
      exact ⟨rfl, c :: ds, e, rfl, List.cons_ne_nil _ _, digits_cons hd hds, he⟩
    · exact h.elim
  | fraction =>
    simp only [feed] at h
    split_ifs at h with hd hm
    · obtain ⟨rfl, ds, e, rfl, hds, he⟩ := h
      exact ⟨rfl, c :: ds, e, rfl, digits_cons hd hds, he⟩
    · obtain ⟨rfl, s, ds, rfl, hs, hne, hds⟩ := h
      exact ⟨rfl, [], _, rfl, digits_nil, Or.inr ⟨c, s, ds, rfl, hm, hs, hne, hds⟩⟩
    · exact h.elim
  | exponent =>
    simp only [feed] at h
    split_ifs at h with hs hd
    · exact ⟨h.1, [c], w, rfl, Or.inr ⟨c, hs, rfl⟩, h.2⟩
    · exact ⟨h.1, [], c :: w, rfl, Or.inl rfl, List.cons_ne_nil _ _, digits_cons hd h.2⟩
    · exact h.elim
  | exponentSign =>
    simp only [feed] at h
    split_ifs at h with hd
    · exact ⟨h.1, List.cons_ne_nil _ _, digits_cons hd h.2⟩
    · exact h.elim
  | exponentDigits =>
    simp only [feed] at h
    split_ifs at h with hd
    · exact ⟨h.1, digits_cons hd h.2⟩
    · exact h.elim
  | broken offending => exact h.elim

theorem completes_of_feedAll {k : Kind} {p : Progress} {w : List Char}
    (h : (p.feedAll w).finish = .ok k) : Completes k p w := by
  induction w generalizing p with
  | nil => exact completes_nil h
  | cons c w ih => exact completes_cons (ih h)

end Progress

/-! ## Classification -/

theorem classify_integer {w : List Char} (h : w ∈ integer.matches') :
    classify w = .ok .integer := by
  rw [classify, Progress.feedAll_integer h]
  rfl

/-- The integers are the words of `integer`. -/
theorem classify_eq_integer_iff {w : List Char} :
    classify w = .ok .integer ↔ w ∈ integer.matches' := by
  refine ⟨?_, classify_integer⟩
  intro h
  obtain ⟨s, ds, t, rfl, hs, hne, hds, rfl⟩ := Progress.completes_of_feedAll h
  exact mem_integer.2 ⟨s, ds, List.append_nil _, hs, hne, hds⟩

/-- The floats are the other words of `number`. -/
theorem classify_eq_float_iff {w : List Char} :
    classify w = .ok .float ↔ w ∈ number.matches' ∧ w ∉ integer.matches' := by
  constructor
  · intro h
    refine ⟨?_, ?_⟩
    · obtain ⟨s, ds, t, rfl, hs, hne, hds, f, e, rfl, hf, he, -⟩ :=
        Progress.completes_of_feedAll h
      refine mem_number.2 ⟨s ++ ds, f, e, (List.append_assoc ..).symm, ?_, hf, he⟩
      exact mem_integer.2 ⟨s, ds, rfl, hs, hne, hds⟩
    · intro hint
      rw [classify_integer hint] at h
      cases h
  · rintro ⟨hnum, hint⟩
    obtain ⟨n, f, e, rfl, hn, hf, he⟩ := mem_number.1 hnum
    rw [classify, Progress.feedAll_append, Progress.feedAll_append, Progress.feedAll_integer hn]
    by_cases hf' : f = []
    · subst hf'
      by_cases he' : e = []
      · subst he'
        exact absurd (by simpa using hn) hint
      · rw [Progress.feedAll_nil, Progress.feedAll_exponent (Or.inl rfl) he he']
        rfl
    · rw [Progress.feedAll_fraction hf hf']
      by_cases he' : e = []
      · subst he'
        rfl
      · rw [Progress.feedAll_exponent (Or.inr rfl) he he']
        rfl

theorem mem_number_iff {w : List Char} : w ∈ number.matches' ↔ ∃ k, classify w = .ok k := by
  constructor
  · intro h
    by_cases hint : w ∈ integer.matches'
    · exact ⟨.integer, classify_eq_integer_iff.2 hint⟩
    · exact ⟨.float, classify_eq_float_iff.2 ⟨h, hint⟩⟩
  · rintro ⟨k, h⟩
    cases k with
    | integer =>
      have hint := classify_eq_integer_iff.1 h
      exact mem_number.2 ⟨w, [], [], by simp, hint, Or.inl rfl, Or.inl rfl⟩
    | float => exact (classify_eq_float_iff.1 h).1

/-! ## Beginnings of words -/

/-- Some word begins with `w`. -/
def Viable (w : List Char) : Prop := ∃ u ∈ number.matches', w <+: u

/-- `c` is the first character of `w` up to which no word begins like `w`. -/
def BreaksAt (w : List Char) (c : Char) : Prop :=
  ∃ i, w[i]? = some c ∧ ¬ Viable (w.take (i + 1)) ∧ ∀ j < i, Viable (w.take (j + 1))

namespace Progress

theorem feedAll_broken (offending : Char) (w : List Char) :
    (broken offending).feedAll w = broken offending :=
  feedAll_of_stays fun _ _ => rfl

theorem finish_eq_some_iff {p : Progress} {c : Char} :
    p.finish = .error (some c) ↔ p = broken c := by
  cases p <;> simp [finish]

/-- The character that breaks a progress is the offending one. -/
theorem eq_of_feed_eq_broken {p : Progress} {c d : Char} (hp : ∀ e, p ≠ broken e)
    (h : p.feed c = broken d) : d = c := by
  cases p with
  | broken offending => exact absurd rfl (hp offending)
  | empty | whole | fraction | exponent | sign | point | exponentSign | exponentDigits =>
    simp only [feed] at h
    split_ifs at h
    cases h
    rfl

/-- What is not broken can still become a number. -/
theorem exists_finish {p : Progress} (hp : ∀ c, p ≠ broken c) :
    ∃ v k, (p.feedAll v).finish = .ok k := by
  cases p with
  | empty | sign | point | exponent | exponentSign => exact ⟨['0'], _, rfl⟩
  | whole | fraction | exponentDigits => exact ⟨[], _, rfl⟩
  | broken offending => exact absurd rfl (hp offending)

/-- Where a progress is broken there was a first character that broke it. -/
theorem exists_first_broken {p : Progress} {w : List Char} {c : Char} (hp : ∀ e, p ≠ broken e)
    (h : p.feedAll w = broken c) :
    ∃ i, w[i]? = some c ∧ p.feedAll (w.take (i + 1)) = broken c ∧
      ∀ j < i, ∀ e, p.feedAll (w.take (j + 1)) ≠ broken e := by
  induction w generalizing p with
  | nil => exact absurd h (hp c)
  | cons d w ih =>
    rw [feedAll_cons] at h
    by_cases hd : ∃ e, p.feed d = broken e
    · obtain ⟨e, he⟩ := hd
      obtain rfl := eq_of_feed_eq_broken hp he
      rw [he, feedAll_broken] at h
      cases h
      exact ⟨0, rfl, he, fun j hj => absurd hj (Nat.not_lt_zero j)⟩
    · rw [not_exists] at hd
      obtain ⟨i, hi, hbroken, hbefore⟩ := ih hd h
      refine ⟨i + 1, hi, hbroken, ?_⟩
      intro j hj
      cases j with
      | zero => exact hd
      | succ j => exact hbefore j (Nat.lt_of_succ_lt_succ hj)

end Progress

/-- **The beginnings of words are what does not break.** -/
theorem viable_iff {w : List Char} : Viable w ↔ ∀ c, Progress.empty.feedAll w ≠ .broken c := by
  constructor
  · rintro ⟨_, hu, v, rfl⟩ c hc
    obtain ⟨k, hk⟩ := mem_number_iff.1 hu
    rw [classify, Progress.feedAll_append, hc, Progress.feedAll_broken] at hk
    cases hk
  · intro h
    obtain ⟨v, k, hk⟩ := Progress.exists_finish h
    refine ⟨w ++ v, mem_number_iff.2 ⟨k, ?_⟩, List.prefix_append w v⟩
    rw [classify, Progress.feedAll_append, hk]

theorem not_viable_iff {w : List Char} :
    ¬ Viable w ↔ ∃ c, classify w = .error (some c) := by
  simp only [viable_iff, classify, Progress.finish_eq_some_iff, not_forall, not_not]

theorem BreaksAt.unique {w : List Char} {c d : Char} (hc : BreaksAt w c) (hd : BreaksAt w d) :
    c = d := by
  obtain ⟨i, hi, hbreaks, hbefore⟩ := hc
  obtain ⟨j, hj, hbreaks', hbefore'⟩ := hd
  rcases Nat.lt_trichotomy i j with hlt | rfl | hlt
  · exact absurd (hbefore' i hlt) hbreaks
  · exact Option.some.inj (hi.symm.trans hj)
  · exact absurd (hbefore j hlt) hbreaks'

theorem BreaksAt.not_viable {w : List Char} {c : Char} (h : BreaksAt w c) : ¬ Viable w := by
  obtain ⟨i, -, hbreaks, -⟩ := h
  rintro ⟨u, hu, hw⟩
  exact hbreaks ⟨u, hu, (List.take_prefix (i + 1) w).trans hw⟩

/-- The offending character is the first one with which no word goes on. -/
theorem classify_eq_some_iff {w : List Char} {c : Char} :
    classify w = .error (some c) ↔ BreaksAt w c := by
  have hbreaks : ∀ d, classify w = .error (some d) → BreaksAt w d := by
    intro d hd
    obtain ⟨i, hi, hbroken, hbefore⟩ := Progress.exists_first_broken
      (fun e => Progress.noConfusion) (Progress.finish_eq_some_iff.1 hd)
    exact ⟨i, hi, fun hv => viable_iff.1 hv d hbroken, fun j hj => viable_iff.2 (hbefore j hj)⟩
  refine ⟨hbreaks c, fun h => ?_⟩
  obtain ⟨d, hd⟩ := not_viable_iff.1 h.not_viable
  rw [hd, h.unique (hbreaks d hd)]

/-- Without an offending character a text is a word that has broken off. -/
theorem classify_eq_none_iff {w : List Char} :
    classify w = .error none ↔
      w ∉ number.matches' ∧ ∃ u ∈ number.matches', w <+: u ∧ w ≠ u := by
  constructor
  · intro h
    have hword : w ∉ number.matches' := by
      intro hw
      obtain ⟨k, hk⟩ := mem_number_iff.1 hw
      rw [h] at hk
      cases hk
    have hviable : Viable w := by
      by_contra hbroken
      obtain ⟨c, hc⟩ := not_viable_iff.1 hbroken
      rw [h] at hc
      cases hc
    obtain ⟨u, hu, hprefix⟩ := hviable
    refine ⟨hword, u, hu, hprefix, ?_⟩
    rintro rfl
    exact hword hu
  · rintro ⟨hword, u, hu, hprefix, -⟩
    rcases hc : classify w with offending | k
    · cases offending with
      | none => rfl
      | some c => exact absurd ⟨u, hu, hprefix⟩ (not_viable_iff.2 ⟨c, hc⟩)
    · exact absurd (mem_number_iff.2 ⟨k, hc⟩) hword

end SexprLex.Number
