import SexprLex.Proofs.Scan.Lexemes
import SexprLex.Proofs.Token.NumberGrammar
import SexprLex.Proofs.Token.StringBody

/-!
# Tokens by maximal munch

Which tokens a text has can be said without modes and steps: pass the longest gap, look at the
first character behind it, and take as many characters as its kind of token goes on for.

**Theorem (`tokenize_eq_munch`).** The tokens of a text, by kind and by the offsets they cover,
are those that `munch` cuts it into.

* `Munch.behindGap` — what is left of a text behind the longest gap.
* `Munch.front` — the kind of the token that a text begins with, and how far it goes.
* `munch` — all tokens of a text.

The proof gives, for each kind of token, the derivation by which a scan reads it. Runs of
characters are read as `takeWhile` says (`Scan.reads_takeWhile`), and strings piece by piece
(`Scan.reads_closed`, `Scan.reads_unclosed`).
-/

namespace SexprLex

open Literal (Body closing? pieces piecesInduction)
open Scan

namespace Munch

/-! ## The reference -/

/-- The kinds of token, with the kinds of error among them. -/
inductive Kind
  | leftParen
  | rightParen
  | quote
  | symbol
  | integer
  | float
  | string
  | comment
  | endOfInput
  | invalidEscape
  | unterminatedString
  | malformedNumber
  | readFailure
  deriving DecidableEq

/-- The kind of a token, without what it says of an error. -/
def Kind.ofTokenKind : TokenKind → Kind
  | .leftParen => .leftParen
  | .rightParen => .rightParen
  | .quote => .quote
  | .symbol => .symbol
  | .integer => .integer
  | .float => .float
  | .string => .string
  | .comment => .comment
  | .endOfInput => .endOfInput
  | .error ⟨.invalidEscape _, _⟩ => .invalidEscape
  | .error ⟨.unterminatedString, _⟩ => .unterminatedString
  | .error ⟨.malformedNumber _ _, _⟩ => .malformedNumber
  | .error ⟨.readFailure _, _⟩ => .readFailure

/-- A kind, and the offsets where a token of that kind begins and stops. -/
structure Extent where
  kind : Kind
  start : Nat
  stop : Nat
  deriving DecidableEq

/-- Whether a symbol or a number ends before `c`. -/
def endsRun (c : Char) : Bool := isBlank c || c == '(' || c == ')' || c == '"' || c == ';'

/-- Whether a run begins with a digit, or with a sign and a digit. -/
def leadsNumber : List Char → Bool
  | [] => false
  | [c] => c.isDigit
  | c :: d :: _ => c.isDigit || (c == '+' || c == '-') && d.isDigit

/-- The kind of a run of characters that are no delimiters. -/
def runKind (w : List Char) : Kind :=
  if leadsNumber w then
    if w ∈ Number.integer.matches' then .integer
    else if w ∈ Number.number.matches' then .float
    else .malformedNumber
  else .symbol

/-- What is left of a text behind its longest gap. -/
def behindGap (emit : Bool) : List Char → List Char
  | [] => []
  | c :: text =>
    if isBlank c then behindGap emit text
    else if c = ';' ∧ emit = false then behindGap emit (text.dropWhile (· ≠ '\n'))
    else c :: text
termination_by text => text.length
decreasing_by
  · exact Nat.lt_succ_self _
  · exact Nat.lt_succ_of_le (List.dropWhile_sublist _).length_le

/-- The kind of the token that `c` and the text behind it begin with, and how many characters it
has behind `c`. -/
def front (c : Char) (text : List Char) : Kind × Nat :=
  if c = '(' then (.leftParen, 0)
  else if c = ')' then (.rightParen, 0)
  else if c = '\'' then (.quote, 0)
  else if c = ';' then (.comment, (text.takeWhile (· ≠ '\n')).length)
  else if c = '"' then
    match closing? text with
    | some i =>
      (if (pieces (text.take i)).all Literal.Piece.isValid then .string else .invalidEscape, i + 1)
    | none => (.unterminatedString, text.length)
  else
    let run := text.takeWhile (!endsRun ·)
    (runKind (c :: run), run.length)

theorem length_behindGap_le (emit : Bool) (text : List Char) :
    (behindGap emit text).length ≤ text.length := by
  fun_induction behindGap emit text with
  | case1 => exact Nat.le_refl _
  | case2 c text hc ih => exact Nat.le_succ_of_le ih
  | case3 c text hc hcomment ih =>
    exact Nat.le_succ_of_le (Nat.le_trans ih (List.dropWhile_sublist _).length_le)
  | case4 => exact Nat.le_refl _

end Munch

open Munch

/-- The tokens of a text that begins at `offset`, by longest match from left to right. -/
def munch (emit : Bool) (offset : Nat) (text : List Char) : List Extent :=
  let start := offset + (text.length - (behindGap emit text).length)
  match _h : behindGap emit text with
  | [] => [⟨.endOfInput, start, start⟩]
  | c :: behind =>
    let (kind, n) := front c behind
    ⟨kind, start, start + (n + 1)⟩ :: munch emit (start + (n + 1)) (behind.drop n)
termination_by text.length
decreasing_by
  have hle := length_behindGap_le emit text
  rw [_h, List.length_cons] at hle
  rw [List.length_drop]
  omega

/-- The kind of a token and the offsets it covers. -/
def Token.extent (t : Token) : Extent := ⟨.ofTokenKind t.kind, t.start.offset, t.stop.offset⟩

namespace Scan

/-! ## Reading runs -/

/-- A mode that takes characters while they satisfy `P` reads the longest such run. -/
theorem reads_takeWhile {α : Type} (mode : α → Mode) (go : α → Char → α) (out : α → Outcome)
    (P : Char → Bool) (hend : ∀ a, (mode a).atEnd = out a)
    (hnext : ∀ a c p, (mode a).next c p = if P c then .take (mode (go a c)) else .stop (out a))
    (a : α) (p : Position) (text : List Char) :
    Reads (mode a) p (text.map .ok) (text.takeWhile P)
      (.ok (out ((text.takeWhile P).foldl go a))) ((text.dropWhile P).map .ok) := by
  induction text generalizing a p with
  | nil =>
    rw [← hend]
    exact .atEnd
  | cons c text ih =>
    have hm := hnext a c p
    by_cases hc : P c = true
    · rw [if_pos hc] at hm
      rw [List.takeWhile_cons_of_pos hc, List.dropWhile_cons_of_pos hc]
      exact .take hm (ih _ _)
    · rw [if_neg hc] at hm
      rw [List.takeWhile_cons_of_neg hc, List.dropWhile_cons_of_neg hc]
      exact .stop hm

theorem endsRun_of_isDigit {c : Char} (hc : c.isDigit = true) : endsRun c = false := by
  simpa using Number.of_isDigit (P := fun c => !endsRun c) rfl hc

theorem endsRun_of_isSign {c : Char} (hc : Number.isSign c = true) : endsRun c = false := by
  rw [Number.isSign_iff, List.mem_pair] at hc
  rcases hc with rfl | rfl <;> rfl

theorem isDelimiter_eq_endsRun (c : Char) : isDelimiter c = endsRun c := by
  have hspec := CharClass.ofChar_spec c
  unfold isDelimiter
  cases hclass : CharClass.ofChar c <;> rw [hclass] at hspec
  case digit => exact (endsRun_of_isDigit hspec).symm
  case sign => exact (endsRun_of_isSign hspec).symm
  case other => simp_all [endsRun, CharClass.isDelimiter]
  case whitespace => simp_all [endsRun, CharClass.isDelimiter]
  all_goals
    subst hspec
    rfl

theorem reads_comment (p : Position) (text : List Char) :
    Reads .comment p (text.map .ok) (text.takeWhile (· ≠ '\n')) (.ok .comment)
      ((text.dropWhile (· ≠ '\n')).map .ok) := by
  refine reads_takeWhile (fun _ : Unit => .comment) (fun _ _ => ()) (fun _ => .comment) _
    (fun _ => rfl) (fun _ c p => ?_) () p text
  by_cases hc : c = '\n' <;> simp [Mode.next, hc]

theorem reads_symbol (p : Position) (text : List Char) :
    Reads .symbol p (text.map .ok) (text.takeWhile (!endsRun ·)) (.ok .symbol)
      ((text.dropWhile (!endsRun ·)).map .ok) := by
  refine reads_takeWhile (fun _ : Unit => .symbol) (fun _ _ => ()) (fun _ => .symbol) _
    (fun _ => rfl) (fun _ c p => ?_) () p text
  by_cases hc : endsRun c = true <;> simp [Mode.next, isDelimiter_eq_endsRun, hc]

theorem reads_number (progress : Number.Progress) (p : Position) (text : List Char) :
    Reads (.number progress) p (text.map .ok) (text.takeWhile (!endsRun ·))
      (.ok (.number (progress.feedAll (text.takeWhile (!endsRun ·))).finish))
      ((text.dropWhile (!endsRun ·)).map .ok) := by
  refine reads_takeWhile .number Number.Progress.feed (fun progress => .number progress.finish) _
    (fun _ => rfl) (fun _ c p => ?_) progress p text
  by_cases hc : endsRun c = true <;> simp [Mode.next, isDelimiter_eq_endsRun, hc]

/-- The outcome of a token that is a run of characters. -/
def runOutcome (w : List Char) : Outcome :=
  if leadsNumber w then .number (Number.classify w) else .symbol

/-- From `c` on a scan reads the longest run. -/
def ReadsRun (c : Char) (p : Position) (text : List Char) : Prop :=
  Reads .gap p ((c :: text).map .ok) (c :: text.takeWhile (!endsRun ·))
    (.ok (runOutcome (c :: text.takeWhile (!endsRun ·))))
    ((text.dropWhile (!endsRun ·)).map .ok)

theorem reads_digit {c : Char} (hclass : CharClass.ofChar c = .digit) (p : Position)
    (text : List Char) : ReadsRun c p text := by
  have hc : c.isDigit = true := by
    have hspec := CharClass.ofChar_spec c
    rwa [hclass] at hspec
  have hlead : ∀ w, leadsNumber (c :: w) = true := by
    intro w
    cases w <;> simp [leadsNumber, hc]
  have hm : Mode.gap.next c p = .take (.number (Number.Progress.empty.feed c)) := by
    rw [Mode.next, Mode.first, hclass]
  rw [ReadsRun, runOutcome, if_pos (hlead _)]
  exact .take hm (reads_number _ _ _)

/-- A sign decides with the character behind it. -/
theorem reads_sign {c : Char} (hclass : CharClass.ofChar c = .sign) (p : Position)
    (text : List Char) : ReadsRun c p text := by
  have hc : Number.isSign c = true := by
    have hspec := CharClass.ofChar_spec c
    rwa [hclass] at hspec
  have hdigit : c.isDigit = false := by
    rcases Bool.eq_false_or_eq_true c.isDigit with h | h
    · exact absurd hc (by rw [Number.Progress.not_isSign_of_isDigit h]; exact Bool.false_ne_true)
    · exact h
  have hm : Mode.gap.next c p = .take (.sign c) := by rw [Mode.next, Mode.first, hclass]
  refine .take hm ?_
  cases text with
  | nil =>
    rw [List.takeWhile_nil, runOutcome, if_neg (by simp [leadsNumber, hdigit])]
    exact .atEnd
  | cons d text =>
    by_cases hd : endsRun d = true
    · rw [List.takeWhile_cons_of_neg (by simp [hd]), List.dropWhile_cons_of_neg (by simp [hd])]
      rw [runOutcome, if_neg (by simp [leadsNumber, hdigit])]
      exact .stop (by rw [Mode.next, isDelimiter_eq_endsRun, if_pos hd])
    · rw [List.takeWhile_cons_of_pos (by simp [hd]), List.dropWhile_cons_of_pos (by simp [hd])]
      have hsign : leadsNumber (c :: d :: text.takeWhile (!endsRun ·)) = d.isDigit := by
        rw [leadsNumber, hdigit, Bool.false_or]
        rw [show (c == '+' || c == '-') = true from hc, Bool.true_and]
      rw [runOutcome, hsign]
      by_cases hdd : d.isDigit = true
      · rw [if_pos hdd]
        refine .take ?_ (reads_number _ _ _)
        rw [Mode.next, isDelimiter_eq_endsRun, if_neg hd, if_pos hdd]
      · rw [if_neg hdd]
        refine .take ?_ (reads_symbol _ _)
        rw [Mode.next, isDelimiter_eq_endsRun, if_neg hd, if_neg hdd]

theorem reads_other {c : Char} (hclass : CharClass.ofChar c = .other) (p : Position)
    (text : List Char) : ReadsRun c p text := by
  have hspec := CharClass.ofChar_spec c
  rw [hclass] at hspec
  obtain ⟨-, -, -, -, -, -, hdigit, hsign⟩ := hspec
  have hlead : ∀ w, leadsNumber (c :: w) = false := by
    intro w
    have hsign' : (c == '+' || c == '-') = false := hsign
    cases w <;> simp [leadsNumber, hdigit, hsign']
  have hm : Mode.gap.next c p = .take .symbol := by rw [Mode.next, Mode.first, hclass]
  rw [ReadsRun, runOutcome, hlead]
  exact .take hm (reads_symbol _ _)

/-! ## Reading strings -/

/-- A string goes on up to its closing quote. -/
theorem reads_closed {text : List Char} {i : Nat} (h : closing? text = some i) (body : Body)
    (p : Position) :
    Reads (.string body) p (text.map .ok) (text.take (i + 1))
      (.ok (.string (body.addAll p (text.take i)))) ((text.drop (i + 1)).map .ok) := by
  induction text using piecesInduction generalizing i body p with
  | nil => cases h
  | backslash => cases h
  | plain c text hb ih =>
    by_cases hq : c = '"'
    · subst hq
      rw [Literal.closing?_quote] at h
      cases h
      exact .close rfl
    · rw [Literal.closing?_plain hq hb, Option.map_eq_some_iff] at h
      obtain ⟨j, hj, rfl⟩ := h
      rw [List.take_succ_cons, List.take_succ_cons, List.drop_succ_cons, Body.addAll_plain hb]
      refine .take ?_ (ih hj _ _)
      rw [Mode.next, if_neg hq, if_neg hb]
  | pair c text ih =>
    rw [Literal.closing?_pair, Option.map_eq_some_iff] at h
    obtain ⟨j, hj, rfl⟩ := h
    rw [show j + 2 + 1 = j + 1 + 1 + 1 from rfl, List.take_succ_cons, List.take_succ_cons,
      List.take_succ_cons, List.take_succ_cons, Body.addAll_pair]
    exact .take rfl (.take rfl (ih hj _ _))

theorem reads_unclosed {text : List Char} (h : closing? text = none) (body : Body)
    (p : Position) : Reads (.string body) p (text.map .ok) text (.ok .unterminatedString) [] := by
  induction text using piecesInduction generalizing body p with
  | nil => exact .atEnd
  | backslash => exact .take rfl .atEnd
  | plain c text hb ih =>
    by_cases hq : c = '"'
    · subst hq
      rw [Literal.closing?_quote] at h
      cases h
    · rw [Literal.closing?_plain hq hb, Option.map_eq_none_iff] at h
      refine .take ?_ (ih h (body.plain c) _)
      rw [Mode.next, if_neg hq, if_neg hb]
  | pair c text ih =>
    rw [Literal.closing?_pair, Option.map_eq_none_iff] at h
    exact .take rfl (.take rfl (ih h _ _))

end Scan

/-! ## The front of a text -/

namespace Munch

/-- The kind of what a scan has found. -/
def Kind.ofOutcome : Outcome → Kind
  | .leftParen => .leftParen
  | .rightParen => .rightParen
  | .quote => .quote
  | .symbol => .symbol
  | .number (.ok .integer) => .integer
  | .number (.ok .float) => .float
  | .number (.error _) => .malformedNumber
  | .string (.ok _) => .string
  | .string (.error _) => .invalidEscape
  | .unterminatedString => .unterminatedString
  | .comment => .comment
  | .endOfInput => .endOfInput

theorem Kind.ofTokenKind_kind (o : Outcome) (start : Position) (raw : String) :
    ofTokenKind (o.kind start raw) = ofOutcome o := by
  unfold Outcome.kind
  split <;> rfl

theorem Kind.ofOutcome_runOutcome (w : List Char) : ofOutcome (runOutcome w) = runKind w := by
  unfold runOutcome runKind
  by_cases hlead : leadsNumber w = true
  · rw [if_pos hlead, if_pos hlead]
    by_cases hint : w ∈ Number.integer.matches'
    · rw [if_pos hint, Number.classify_eq_integer_iff.2 hint]
      rfl
    · rw [if_neg hint]
      by_cases hnum : w ∈ Number.number.matches'
      · rw [if_pos hnum, Number.classify_eq_float_iff.2 ⟨hnum, hint⟩]
        rfl
      · rw [if_neg hnum]
        match hc : Number.classify w with
        | .ok .integer => exact absurd (Number.classify_eq_integer_iff.1 hc) hint
        | .ok .float => exact absurd (Number.classify_eq_float_iff.1 hc).1 hnum
        | .error offending => rfl
  · rw [if_neg hlead, if_neg hlead]
    rfl

theorem Kind.ofOutcome_string (body : Body) :
    ofOutcome (.string body) = if body.isOk then .string else .invalidEscape := by
  cases body <;> rfl

theorem front_eq_run {c : Char} (hc : endsRun c = false) (hq : c ≠ '\'') (text : List Char) :
    front c text =
      (runKind (c :: text.takeWhile (!endsRun ·)), (text.takeWhile (!endsRun ·)).length) := by
  simp only [endsRun, Bool.or_eq_false_iff, beq_eq_false_iff_ne] at hc
  obtain ⟨⟨⟨⟨-, hleft⟩, hright⟩, hstring⟩, hcomment⟩ := hc
  rw [front, if_neg hleft, if_neg hright, if_neg hq, if_neg hcomment, if_neg hstring]

theorem drop_length_takeWhile (P : Char → Bool) (text : List Char) :
    text.drop (text.takeWhile P).length = text.dropWhile P :=
  calc text.drop (text.takeWhile P).length
    _ = (text.takeWhile P ++ text.dropWhile P).drop (text.takeWhile P).length := by
      rw [List.takeWhile_append_dropWhile]
    _ = text.dropWhile P := List.drop_left

/-- The token that a scan reads from `c` on is the front. -/
def ReadsFront (c : Char) (p : Position) (text : List Char) : Prop :=
  ∃ w o, Reads .gap p ((c :: text).map .ok) (c :: w) (.ok o)
      ((text.drop (front c text).2).map .ok) ∧
    w.length = (front c text).2 ∧ Kind.ofOutcome o = (front c text).1

theorem readsFront_run {c : Char} (hc : endsRun c = false) (hq : c ≠ '\'') {p : Position}
    {text : List Char} (h : ReadsRun c p text) : ReadsFront c p text := by
  rw [ReadsFront, front_eq_run hc hq, drop_length_takeWhile]
  exact ⟨_, _, h, rfl, Kind.ofOutcome_runOutcome _⟩

theorem readsFront_comment (p : Position) (text : List Char) : ReadsFront ';' p text := by
  have hfront : front ';' text = (.comment, (text.takeWhile (· ≠ '\n')).length) := rfl
  rw [ReadsFront, hfront, drop_length_takeWhile]
  exact ⟨_, _, .take rfl (reads_comment _ _), rfl, rfl⟩

theorem readsFront_string (p : Position) (text : List Char) : ReadsFront '"' p text := by
  have hfront : front '"' text = match closing? text with
    | some i =>
      (if (pieces (text.take i)).all Literal.Piece.isValid then .string else .invalidEscape, i + 1)
    | none => (.unterminatedString, text.length) := rfl
  rw [ReadsFront, hfront]
  cases hclose : closing? text with
  | none =>
    rw [List.drop_length]
    exact ⟨_, _, .take rfl (reads_unclosed hclose _ _), rfl, rfl⟩
  | some i =>
    have hlt := Literal.closing?_lt hclose
    refine ⟨_, _, .take rfl (reads_closed hclose .empty _), ?_, ?_⟩
    · rw [List.length_take, Nat.min_eq_left hlt]
    · rw [Kind.ofOutcome_string, Body.isOk_addAll]
      rfl

theorem readsFront {c : Char} (hc : isBlank c = false) (p : Position) (text : List Char) :
    ReadsFront c p text := by
  have hspec := CharClass.ofChar_spec c
  cases hclass : CharClass.ofChar c <;> rw [hclass] at hspec
  case whitespace => simp [hspec] at hc
  case leftParen | rightParen | quote =>
    subst hspec
    exact ⟨[], _, .close rfl, rfl, rfl⟩
  case semicolon =>
    subst hspec
    exact readsFront_comment p text
  case doubleQuote =>
    subst hspec
    exact readsFront_string p text
  case digit =>
    refine readsFront_run (endsRun_of_isDigit hspec) ?_ (reads_digit hclass p text)
    rintro rfl
    cases hspec
  case sign =>
    refine readsFront_run (endsRun_of_isSign hspec) ?_ (reads_sign hclass p text)
    rintro rfl
    cases hspec
  case other =>
    have hrun : endsRun c = false := by
      rw [← isDelimiter_eq_endsRun, isDelimiter, hclass]
      rfl
    exact readsFront_run hrun hspec.2.2.2.1 (reads_other hclass p text)

/-! ## The gap -/

theorem scans_behindGap (emit : Bool) (text : List Char) :
    ∃ gap, text = gap ++ behindGap emit text ∧ ∀ p w e rest,
      Scans emit (p.advanceAll gap) ((behindGap emit text).map .ok) [] w e rest →
      Scans emit p (text.map .ok) gap w e rest := by
  fun_induction behindGap emit text with
  | case1 => exact ⟨[], rfl, fun p w e rest hs => hs⟩
  | case2 c text hc ih =>
    obtain ⟨gap, htext, hgap⟩ := ih
    refine ⟨c :: gap, by rw [List.cons_append, ← htext], ?_⟩
    intro p w e rest hs
    exact .blank (Mode.next_gap_of_isBlank hc p) (hgap _ w e rest hs)
  | case3 c text hc hcomment ih =>
    obtain ⟨rfl, hemit⟩ := hcomment
    obtain ⟨gap, htext, hgap⟩ := ih
    refine ⟨';' :: text.takeWhile (· ≠ '\n') ++ gap, ?_, ?_⟩
    · rw [List.append_assoc, ← htext, List.cons_append, List.takeWhile_append_dropWhile]
    · intro p w e rest hs
      rw [Position.advanceAll_append] at hs
      exact .comment hemit (.take rfl (reads_comment _ _)) (hgap _ w e rest hs)
  | case4 c text hc hcomment => exact ⟨[], rfl, fun p w e rest hs => hs⟩

/-- Behind the longest gap no gap begins. -/
theorem of_behindGap_cons {emit : Bool} {text behind : List Char} {c : Char}
    (h : behindGap emit text = c :: behind) :
    isBlank c = false ∧ (c = ';' → emit = true) := by
  fun_induction behindGap emit text with
  | case1 => cases h
  | case2 c' text hc ih => exact ih h
  | case3 c' text hc hcomment ih => exact ih h
  | case4 c' text hc hcomment =>
    cases h
    refine ⟨by simpa using hc, ?_⟩
    intro hsemi
    by_contra hemit
    exact hcomment ⟨hsemi, by simpa using hemit⟩

end Munch

/-! ## The whole text -/

theorem munch_of_nil {emit : Bool} {text : List Char} (h : behindGap emit text = [])
    (offset : Nat) :
    munch emit offset text = [⟨.endOfInput, offset + text.length, offset + text.length⟩] := by
  rw [munch]
  split
  · rw [h]
    rfl
  · next hcons =>
    rw [h] at hcons
    cases hcons

theorem munch_of_cons {emit : Bool} {gap text behind : List Char} {c : Char}
    (hgap : text = gap ++ behindGap emit text) (h : behindGap emit text = c :: behind)
    (offset : Nat) :
    munch emit offset text =
      ⟨(front c behind).1, offset + gap.length, offset + gap.length + ((front c behind).2 + 1)⟩ ::
        munch emit (offset + gap.length + ((front c behind).2 + 1))
          (behind.drop (front c behind).2) := by
  have hlen : text.length - (behindGap emit text).length = gap.length := by
    have hsum := congrArg List.length hgap
    rw [List.length_append] at hsum
    omega
  rw [munch, hlen]
  split
  · next hnil =>
    rw [h] at hnil
    cases hnil
  · next c' behind' hcons =>
    rw [h] at hcons
    cases hcons
    rfl

/-- A text is lexed into tokens with the extents that `munch` cuts out. -/
theorem exists_lexes_munch (emit : Bool) (p : Position) (text : List Char) :
    ∃ ts, Lexes emit p (text.map .ok) ts ∧ ts.map Token.extent = munch emit p.offset text := by
  induction hn : text.length using Nat.strongRecOn generalizing p text with
  | ind n ih =>
    obtain ⟨gap, htext, hgap⟩ := scans_behindGap emit text
    cases hbehind : behindGap emit text with
    | nil =>
      rw [hbehind] at hgap
      have hs := hgap p [] (.ok .endOfInput) [] (.found .atEnd fun he => by cases he)
      refine ⟨_, .endOfInput hs rfl, ?_⟩
      rw [munch_of_nil hbehind, htext, hbehind, List.append_nil]
      simp [Token.extent, Outcome.toToken, Outcome.kind, Kind.ofTokenKind]
    | cons c behind =>
      obtain ⟨hblank, hemit⟩ := of_behindGap_cons hbehind
      obtain ⟨w, o, hr, hw, hkind⟩ := readsFront hblank (p.advanceAll gap) behind
      have hfits := hr.fits_gap
      have ho : o ≠ .endOfInput := by
        rintro rfl
        cases hfits
      have hcomment : (Except.ok o : Except Fault Outcome) = .ok .comment → emit = true := by
        intro he
        cases he
        obtain ⟨v, hv, -⟩ := hfits
        exact hemit (List.cons.inj hv).1
      rw [hbehind] at hgap
      have hs := hgap p _ _ _ (.found hr hcomment)
      have hlt : (behind.drop (front c behind).2).length < n := by
        have hsum := congrArg List.length htext
        rw [List.length_append, hbehind, List.length_cons] at hsum
        rw [List.length_drop]
        omega
      obtain ⟨ts, hl, hts⟩ := ih _ hlt ((p.advanceAll gap).advanceAll (c :: w)) _ rfl
      have hstart : (p.advanceAll gap).offset = p.offset + gap.length :=
        Position.offset_advanceAll p gap
      have hstop : ((p.advanceAll gap).advanceAll (c :: w)).offset =
          p.offset + gap.length + ((front c behind).2 + 1) := by
        rw [Position.offset_advanceAll, hstart, List.length_cons, hw]
      refine ⟨_, .token hs ho rfl hl, ?_⟩
      rw [munch_of_cons htext hbehind, List.map_cons, hts, hstop]
      simp only [Token.extent, Outcome.toToken, Kind.ofTokenKind_kind, hkind, hstart, hstop]

/-- **Tokens are found by maximal munch.** -/
theorem tokenize_eq_munch (options : Options) (text : String) :
    (tokenize options text).map Token.extent = munch options.emitComments 0 text.toList := by
  obtain ⟨ts, hl, hts⟩ := exists_lexes_munch options.emitComments .start text.toList
  rw [tokenize_of_lexes hl]
  exact hts

end SexprLex
