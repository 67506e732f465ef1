import Mathlib.Tactic.SplitIfs
import SexprLex.Proofs.Scan.Reading

/-!
# The characters of a token

What a mode remembers of its token is true of the characters it has taken, and so the outcome at
the end is true of all characters that the token covers.

**Theorem (`Reads.fits`).** If a scan reads the characters `w` from a gap on and its token ends
with the outcome `o`, then `o` fits `w`: a comment begins with a semicolon and holds no newline, a
string begins and ends with a double quote, a number is what its characters are classified as.

The proof is an induction over the reading with the invariant `Mode.Holds`, which each character
that is taken preserves (`Mode.holds_take`).

What stands behind a token matters only in that it ends the token (`Outcome.Allows`,
`Reads.frame`).

What stands before a token is a **gap** (`Gap`): whitespace, and comments if they are no tokens.
A comment in a gap goes up to a newline, or to the end of the input.
-/

namespace SexprLex

/-- The four characters between tokens. -/
def isBlank (c : Char) : Bool := c == ' ' || c == '\t' || c == '\n' || c == '\r'

theorem CharClass.ofChar_spec (c : Char) :
    match ofChar c with
    | .whitespace => isBlank c = true
    | .leftParen => c = '('
    | .rightParen => c = ')'
    | .quote => c = '\''
    | .semicolon => c = ';'
    | .doubleQuote => c = '"'
    | .digit => c.isDigit = true
    | .sign => Number.isSign c = true
    | .other => isBlank c = false ∧ c ≠ '(' ∧ c ≠ ')' ∧ c ≠ '\'' ∧ c ≠ ';' ∧ c ≠ '"' ∧
        c.isDigit = false ∧ Number.isSign c = false := by
  generalize hk : ofChar c = k
  unfold ofChar at hk
  split at hk
  case h_12 =>
    split at hk <;> subst hk
    · assumption
    · simp_all [isBlank, Number.isSign]
  all_goals
    subst hk
    rfl

namespace Scan

/-- Nothing in it ends a symbol or a number. -/
def Undelimited (w : List Char) : Prop := ∀ c ∈ w, isDelimiter c = false

/-- The characters that have led to a mode. -/
def Mode.Holds : Mode → List Char → Prop
  | .gap, w => w = []
  | .sign s, w => w = [s] ∧ Undelimited w
  | .symbol, w => w ≠ [] ∧ Undelimited w
  | .number progress, w => progress = Number.Progress.empty.feedAll w ∧ Undelimited w
  | .string _, w => ∃ v, w = '"' :: v
  | .pair _ _, w => ∃ v, w = '"' :: v
  | .comment, w => ∃ v, w = ';' :: v ∧ '\n' ∉ v

/-- The characters that a token with this outcome covers. -/
def Outcome.Fits : Outcome → List Char → Prop
  | .leftParen, w => w = ['(']
  | .rightParen, w => w = [')']
  | .quote, w => w = ['\'']
  | .symbol, w => w ≠ [] ∧ Undelimited w
  | .number result, w => result = Number.classify w ∧ Undelimited w
  | .string _, w => ∃ v, w = '"' :: (v ++ ['"'])
  | .unterminatedString, w => ∃ v, w = '"' :: v
  | .comment, w => ∃ v, w = ';' :: v ∧ '\n' ∉ v
  | .endOfInput, w => w = []

theorem Undelimited.append {w v : List Char} (hw : Undelimited w) (hv : Undelimited v) :
    Undelimited (w ++ v) := by
  intro c hc
  rcases List.mem_append.1 hc with hc | hc
  · exact hw c hc
  · exact hv c hc

theorem undelimited_singleton {c : Char} (h : isDelimiter c = false) : Undelimited [c] := by
  intro d hd
  rw [List.mem_singleton.1 hd]
  exact h

/-! ## One character -/

theorem Mode.holds_first {mode : Mode} {c : Char} (h : first c = .take mode) :
    mode.Holds [c] := by
  have hspec := CharClass.ofChar_spec c
  unfold first at h
  split at h <;> rename_i hclass <;> rw [hclass] at hspec <;> cases h
  · exact ⟨[], by rw [hspec], List.not_mem_nil⟩
  · exact ⟨[], by rw [hspec]⟩
  · exact ⟨rfl, undelimited_singleton (by rw [isDelimiter, hclass]; rfl)⟩
  · exact ⟨rfl, undelimited_singleton (by rw [isDelimiter, hclass]; rfl)⟩
  · exact ⟨List.cons_ne_nil _ _, undelimited_singleton (by rw [isDelimiter, hclass]; rfl)⟩

theorem Mode.holds_take {mode mode' : Mode} {w : List Char} {c : Char} {p : Position}
    (hw : mode.Holds w) (h : mode.next c p = .take mode') : mode'.Holds (w ++ [c]) := by
  cases mode with
  | gap =>
    obtain rfl : w = [] := hw
    exact holds_first h
  | sign s =>
    obtain ⟨rfl, hs⟩ := hw
    simp only [next] at h
    split_ifs at h with hdelim hdigit <;> cases h
    · exact ⟨rfl, hs.append (undelimited_singleton (by simpa using hdelim))⟩
    · exact ⟨List.cons_ne_nil _ _, hs.append (undelimited_singleton (by simpa using hdelim))⟩
  | symbol =>
    simp only [next] at h
    split_ifs at h with hdelim
    cases h
    exact ⟨by simp, hw.2.append (undelimited_singleton (by simpa using hdelim))⟩
  | number progress =>
    simp only [next] at h
    split_ifs at h with hdelim
    cases h
    refine ⟨?_, hw.2.append (undelimited_singleton (by simpa using hdelim))⟩
    rw [Number.Progress.feedAll_append, ← hw.1]
    rfl
  | string body =>
    obtain ⟨v, rfl⟩ := hw
    simp only [next] at h
    split_ifs at h <;> cases h <;> exact ⟨_, rfl⟩
  | pair body backslash =>
    obtain ⟨v, rfl⟩ := hw
    cases h
    exact ⟨_, rfl⟩
  | comment =>
    obtain ⟨v, rfl, hv⟩ := hw
    simp only [next] at h
    split_ifs at h with hnewline
    cases h
    exact ⟨v ++ [c], rfl, by simp [hv, Ne.symm hnewline]⟩

/-- A token closes with its only character, or it is a string and closes with its quote. -/
theorem Mode.of_next_close {mode : Mode} {c : Char} {p : Position} {o : Outcome}
    (h : mode.next c p = .close o) :
    mode = .gap ∧ (c = '(' ∧ o = .leftParen ∨ c = ')' ∧ o = .rightParen ∨ c = '\'' ∧ o = .quote) ∨
      ∃ body, mode = .string body ∧ c = '"' ∧ o = .string body := by
  cases mode with
  | gap =>
    have hspec := CharClass.ofChar_spec c
    simp only [next, first] at h
    split at h <;> rename_i hclass <;> rw [hclass] at hspec <;> cases h
    · exact Or.inl ⟨rfl, Or.inl ⟨hspec, rfl⟩⟩
    · exact Or.inl ⟨rfl, Or.inr (Or.inl ⟨hspec, rfl⟩)⟩
    · exact Or.inl ⟨rfl, Or.inr (Or.inr ⟨hspec, rfl⟩)⟩
  | string body =>
    simp only [next] at h
    split_ifs at h with hquote
    cases h
    exact Or.inr ⟨body, rfl, hquote, rfl⟩
  | sign s | symbol | number progress | comment =>
    simp only [next] at h
    split_ifs at h
  | pair body backslash => cases h

theorem Outcome.fits_close {mode : Mode} {w : List Char} {c : Char} {p : Position} {o : Outcome}
    (hw : mode.Holds w) (h : mode.next c p = .close o) : o.Fits (w ++ [c]) := by
  rcases Mode.of_next_close h with ⟨rfl, hc⟩ | ⟨body, rfl, rfl, rfl⟩
  · obtain rfl : w = [] := hw
    rcases hc with ⟨rfl, rfl⟩ | ⟨rfl, rfl⟩ | ⟨rfl, rfl⟩ <;> rfl
  · obtain ⟨v, rfl⟩ := hw
    exact ⟨v, rfl⟩

/-- Whether a token with this outcome ends before an item. A token that ends with its own last
character does so whatever comes then. -/
def Outcome.endsBefore : Outcome → Item → Bool
  | .leftParen, _ | .rightParen, _ | .quote, _ | .string _, _ => true
  | .symbol, .ok c | .number _, .ok c => isDelimiter c
  | .comment, .ok c => c == '\n'
  | _, _ => false

/-- A token stops before a character if it would end as it does at the end of the input. -/
theorem Mode.next_eq_stop_iff {mode : Mode} {c : Char} {p : Position} {o : Outcome} :
    mode.next c p = .stop o ↔ o = mode.atEnd ∧ mode.atEnd.endsBefore (.ok c) = true := by
  cases mode with
  | gap =>
    constructor
    · intro h
      exact absurd h (next_gap_ne_stop _ _ _)
    · intro h
      cases h.2
  | sign s =>
    simp only [next, atEnd, Outcome.endsBefore]
    split_ifs with hdelim hdigit <;> simp [hdelim, eq_comm]
  | symbol | number progress =>
    simp only [next, atEnd, Outcome.endsBefore]
    split_ifs with hdelim <;> simp [hdelim, eq_comm]
  | string body =>
    simp only [next, atEnd, Outcome.endsBefore]
    split_ifs <;> simp
  | pair body backslash => simp [next, atEnd, Outcome.endsBefore]
  | comment =>
    simp only [next, atEnd, Outcome.endsBefore, beq_iff_eq]
    split_ifs with hnewline <;>
      simp only [hnewline, Move.stop.injEq, and_true, and_false, eq_comm]

/-- Only what ends with its own last character ends before a failure. -/
theorem Outcome.endsBefore_of_error {o : Outcome} {fault : Fault}
    (h : o.endsBefore (.error fault) = true) (item : Item) : o.endsBefore item = true := by
  cases o with
  | leftParen | rightParen | quote | string body => rfl
  | symbol | number result | unterminatedString | comment | endOfInput => cases h

theorem Outcome.endsBefore_of_close {mode : Mode} {c : Char} {p : Position} {o : Outcome}
    (h : mode.next c p = .close o) (item : Item) : o.endsBefore item = true := by
  rcases Mode.of_next_close h with ⟨-, hc⟩ | ⟨body, -, -, rfl⟩
  · rcases hc with ⟨-, rfl⟩ | ⟨-, rfl⟩ | ⟨-, rfl⟩ <;> rfl
  · rfl

theorem Outcome.fits_atEnd {mode : Mode} {w : List Char} (hw : mode.Holds w) :
    mode.atEnd.Fits w := by
  cases mode with
  | gap => exact hw
  | sign s =>
    obtain ⟨rfl, hs⟩ := hw
    exact ⟨List.cons_ne_nil _ _, hs⟩
  | symbol => exact hw
  | number progress => exact ⟨by rw [hw.1]; rfl, hw.2⟩
  | string body => exact hw
  | pair body backslash => exact hw
  | comment => exact hw

/-! ## All characters -/

/-- **Outcomes fit what they cover.** -/
theorem Reads.fits {mode : Mode} {p : Position} {items rest : List Item} {v w : List Char}
    {o : Outcome} (h : Reads mode p items w (.ok o) rest) (hv : mode.Holds v) :
    o.Fits (v ++ w) := by
  generalize he : (Except.ok o : Except Fault Outcome) = e at h
  induction h generalizing v with
  | atEnd =>
    cases he
    rw [List.append_nil]
    exact Outcome.fits_atEnd hv
  | failed => cases he
  | take hm hr ih =>
    have hfits := ih (Mode.holds_take hv hm) he
    rwa [List.append_assoc, List.singleton_append] at hfits
  | close hm =>
    cases he
    exact Outcome.fits_close hv hm
  | stop hm =>
    cases he
    rw [List.append_nil, (Mode.next_eq_stop_iff.1 hm).1]
    exact Outcome.fits_atEnd hv

theorem Reads.fits_gap {p : Position} {items rest : List Item} {w : List Char} {o : Outcome}
    (h : Reads .gap p items w (.ok o) rest) : o.Fits w :=
  h.fits (show Mode.gap.Holds [] from rfl)

theorem Reads.of_endOfInput {p : Position} {items rest : List Item} {w : List Char}
    (h : Reads .gap p items w (.ok .endOfInput) rest) : w = [] ∧ rest = [] := by
  have hw : w = [] := h.fits_gap
  subst hw
  cases h with
  | atEnd => exact ⟨rfl, rfl⟩
  | stop hm => exact absurd hm (Mode.next_gap_ne_stop _ _ _)

/-! ## What can stand behind a token -/

/-- A token with this outcome ends before these items: there are none, or it ends before the
first. -/
def Outcome.Allows (o : Outcome) (items : List Item) : Prop :=
  ∀ item ∈ items.head?, o.endsBefore item = true

theorem Outcome.allows_nil (o : Outcome) : o.Allows [] := by
  intro item h
  cases h

@[simp] theorem Outcome.allows_cons {o : Outcome} {item : Item} {items : List Item} :
    o.Allows (item :: items) ↔ o.endsBefore item = true := by
  simp [Allows]

theorem Reads.allows {mode : Mode} {p : Position} {items rest : List Item} {w : List Char}
    {o : Outcome} (h : Reads mode p items w (.ok o) rest) : o.Allows rest := by
  generalize he : (Except.ok o : Except Fault Outcome) = e at h
  induction h with
  | atEnd => exact o.allows_nil
  | failed => cases he
  | take hm hr ih => exact ih he
  | close hm =>
    cases he
    exact fun item _ => Outcome.endsBefore_of_close hm item
  | stop hm =>
    cases he
    obtain ⟨rfl, hends⟩ := Mode.next_eq_stop_iff.1 hm
    exact Outcome.allows_cons.2 hends

theorem Reads.of_allows {mode : Mode} {items : List Item} (h : mode.atEnd.Allows items)
    (p : Position) : Reads mode p items [] (.ok mode.atEnd) items := by
  cases items with
  | nil => exact .atEnd
  | cons item items =>
    rw [Outcome.allows_cons] at h
    cases item with
    | error fault => cases mode <;> cases h
    | ok c => exact .stop (Mode.next_eq_stop_iff.2 ⟨rfl, h⟩)

/-- **A token does not notice what is behind it**, so long as that ends it. -/
theorem Reads.frame {mode : Mode} {p : Position} {items rest rest' : List Item} {w : List Char}
    {o : Outcome} (h : Reads mode p items w (.ok o) rest) (hrest : o.Allows rest') :
    Reads mode p (w.map .ok ++ rest') w (.ok o) rest' := by
  generalize he : (Except.ok o : Except Fault Outcome) = e at h ⊢
  induction h with
  | atEnd =>
    cases he
    exact .of_allows hrest _
  | failed => cases he
  | take hm _ ih => exact .take hm (ih he)
  | close hm => exact .close hm
  | stop hm =>
    cases he
    obtain ⟨rfl, -⟩ := Mode.next_eq_stop_iff.1 hm
    exact .of_allows hrest _

theorem Outcome.allows_append {o : Outcome} {x : List Char} (hx : x ≠ []) (items : List Item) :
    o.Allows (x.map .ok ++ items) ↔ o.Allows (x.map .ok) := by
  cases x with
  | nil => exact absurd rfl hx
  | cons y x => rw [List.map_cons, List.cons_append, allows_cons, allows_cons]

theorem Scans.frame {emit : Bool} {p : Position} {items rest rest' : List Item}
    {gap w : List Char} {o : Outcome} (h : Scans emit p items gap w (.ok o) rest)
    (ho : o ≠ .endOfInput) (hrest : o.Allows rest') :
    Scans emit p ((gap ++ w).map .ok ++ rest') gap w (.ok o) rest' := by
  generalize he : (Except.ok o : Except Fault Outcome) = e at h ⊢
  induction h with
  | blank hm hs ih => exact .blank hm (ih he)
  | @comment p items items' rest body gap w e hemit hr hs ih =>
    subst he
    -- What ends a dropped comment is in the gap or the token behind it.
    obtain ⟨items'', hr'⟩ := hs.reads
    have hne : gap ++ w ≠ [] := by simp [hr'.ne_nil ho]
    have hallows := hr.allows
    rw [hs.items_eq, Outcome.allows_append hne] at hallows
    have hbody := hr.frame ((Outcome.allows_append hne rest').2 hallows)
    have hs' := Scans.comment hemit hbody (ih rfl)
    rwa [← List.append_assoc, ← List.map_append, ← List.append_assoc] at hs'
  | found hr hcomment =>
    subst he
    exact .found (hr.frame hrest) hcomment

/-! ## Gaps -/

/-- Whitespace and dropped comments. A comment goes up to a newline or, if the input `ends` behind
the gap, to its end. -/
inductive Gap (emit : Bool) (ends : Prop) : List Char → Prop
  | nil : Gap emit ends []
  | blank {c : Char} {gap : List Char} : isBlank c = true → Gap emit ends gap →
      Gap emit ends (c :: gap)
  | comment {body gap : List Char} : emit = false → '\n' ∉ body → Gap emit ends ('\n' :: gap) →
      Gap emit ends (';' :: (body ++ '\n' :: gap))
  | lastComment {body : List Char} : emit = false → '\n' ∉ body → ends →
      Gap emit ends (';' :: body)

theorem Gap.imp {emit : Bool} {ends ends' : Prop} {gap : List Char} (h : Gap emit ends gap)
    (himp : ends → ends') : Gap emit ends' gap := by
  induction h with
  | nil => exact .nil
  | blank hc _ ih => exact .blank hc ih
  | comment hemit hbody _ ih => exact .comment hemit hbody ih
  | lastComment hemit hbody hends => exact .lastComment hemit hbody (himp hends)

theorem Mode.next_gap_of_isBlank {c : Char} (h : isBlank c = true) (p : Position) :
    Mode.gap.next c p = .skip := by
  simp only [isBlank, Bool.or_eq_true, beq_iff_eq] at h
  rcases h with ((rfl | rfl) | rfl) | rfl <;> rfl

theorem Mode.isBlank_of_next_gap {c : Char} {p : Position} (h : Mode.gap.next c p = .skip) :
    isBlank c = true := by
  have hspec := CharClass.ofChar_spec c
  simp only [Mode.next, Mode.first] at h
  split at h <;> rename_i hclass <;> rw [hclass] at hspec <;> cases h
  exact hspec

theorem not_reads_gap_of_isBlank {c : Char} (hc : isBlank c = true) {p : Position}
    {items rest : List Item} {w : List Char} {e : Except Fault Outcome} :
    ¬ Reads .gap p (.ok c :: items) w e rest := by
  intro h
  have hskip := Mode.next_gap_of_isBlank hc p
  cases h with
  | take hm | close hm | stop hm =>
    rw [hskip] at hm
    cases hm

theorem Reads.rest_of_comment {mode : Mode} {p : Position} {items rest : List Item}
    {w : List Char} (h : Reads mode p items w (.ok .comment) rest) :
    rest = [] ∨ ∃ items', rest = .ok '\n' :: items' := by
  have hends := h.allows
  cases rest with
  | nil => exact Or.inl rfl
  | cons item rest =>
    rw [Outcome.allows_cons] at hends
    cases item with
    | error fault => cases hends
    | ok c => exact Or.inr ⟨rest, by rw [eq_of_beq hends]⟩

/-- **What a scan passes is a gap.** -/
theorem Scans.gap {emit : Bool} {p : Position} {items rest : List Item} {gap w : List Char}
    {e : Except Fault Outcome} (h : Scans emit p items gap w e rest) :
    Gap emit (items = gap.map .ok) gap := by
  induction h with
  | found => exact .nil
  | blank hm hs ih =>
    refine .blank (Mode.isBlank_of_next_gap hm) (ih.imp fun hends => ?_)
    rw [hends, List.map_cons]
  | @comment p items items' rest body gap w e hemit hr hs ih =>
    have hitems := hr.items_eq
    obtain ⟨v, rfl, hv⟩ := hr.fits_gap
    -- Behind the comment is the end of the input, or a newline with which the gap goes on.
    rcases hr.rest_of_comment with rfl | ⟨items'', rfl⟩
    · obtain ⟨rfl, -⟩ : gap = [] ∧ w = [] ∧ leaving e rest = [] := by
        simpa using hs.items_eq.symm
      rw [List.append_nil]
      exact .lastComment hemit hv (by rw [hitems, leaving_ok, List.append_nil])
    · cases hs with
      | blank hm hs' =>
        refine .comment hemit hv (ih.imp fun hends => ?_)
        rw [hitems, leaving_ok, hends, List.map_append]
      | comment _ hr' => exact absurd hr' (not_reads_gap_of_isBlank rfl)
      | found hr' => exact absurd hr' (not_reads_gap_of_isBlank rfl)

/-- Before a token or a failure the input does not end. -/
theorem Scans.gap_of_ne {emit : Bool} {p : Position} {items rest : List Item}
    {gap w : List Char} {e : Except Fault Outcome} (h : Scans emit p items gap w e rest)
    (he : e ≠ .ok .endOfInput) : Gap emit False gap := by
  apply h.gap.imp
  intro hends
  have hitems := h.items_eq
  rw [hends, List.map_append, List.append_assoc, List.self_eq_append_right,
    List.append_eq_nil_iff, List.map_eq_nil_iff] at hitems
  obtain ⟨hw, hleaving⟩ := hitems
  cases e with
  | error fault => cases hleaving
  | ok o =>
    obtain ⟨items', hr⟩ := h.reads
    exact hr.ne_nil (fun ho => he (by rw [ho])) hw

theorem reads_line {body : List Char} (hbody : '\n' ∉ body) (p : Position) (items : List Item) :
    Reads .comment p (body.map .ok ++ .ok '\n' :: items) body (.ok .comment)
      (.ok '\n' :: items) := by
  induction body generalizing p with
  | nil => exact .stop rfl
  | cons c body ih =>
    rw [List.mem_cons, not_or] at hbody
    exact .take (if_neg (Ne.symm hbody.1)) (ih hbody.2 _)

theorem Gap.scans {emit : Bool} {gap : List Char} (h : Gap emit False gap) {p : Position}
    {items rest : List Item} {gap' w : List Char} {e : Except Fault Outcome}
    (hs : Scans emit (p.advanceAll gap) items gap' w e rest) :
    Scans emit p (gap.map .ok ++ items) (gap ++ gap') w e rest := by
  induction h generalizing p with
  | nil => exact hs
  | blank hc _ ih => exact .blank (Mode.next_gap_of_isBlank hc p) (ih hs)
  | @comment body gap hemit hbody _ ih =>
    have hsplit : ';' :: (body ++ '\n' :: gap) = ';' :: body ++ '\n' :: gap := rfl
    rw [hsplit, Position.advanceAll_append] at hs
    rw [hsplit, List.map_append, List.append_assoc, List.append_assoc]
    exact .comment hemit (.take rfl (reads_line hbody _ _)) (ih hs)
  | lastComment _ _ hends => exact hends.elim

/-! ## Tokens of a text -/

theorem Scans.error_ne_text {emit : Bool} {p : Position} {items rest : List Item}
    {gap w : List Char} {fault : Fault} (h : Scans emit p items gap w (.error fault) rest)
    (text : List Char) : items ≠ text.map .ok := by
  intro hi
  have hfault : Except.error fault ∈ text.map (Except.ok : Char → Item) := by
    rw [← hi, h.items_eq]
    simp
  simp at hfault

theorem Scans.exists_text {emit : Bool} {p : Position} {text : List Char} {rest : List Item}
    {gap w : List Char} {o : Outcome} (h : Scans emit p (text.map .ok) gap w (.ok o) rest) :
    ∃ text', text = gap ++ w ++ text' ∧ rest = text'.map .ok := by
  obtain ⟨v, text', rfl, hv, hrest⟩ := List.map_eq_append_iff.1 h.items_eq
  have hinj : Function.Injective (Except.ok : Char → Item) := by
    intro c d hcd
    exact Except.ok.inj hcd
  exact ⟨text', by rw [(List.map_injective_iff.2 hinj) hv], hrest.symm⟩

/-- What a scan finds in a text it reads right behind a gap. -/
theorem Scans.reads_text {emit : Bool} {p : Position} {text : List Char} {rest : List Item}
    {gap w : List Char} {o : Outcome} (h : Scans emit p (text.map .ok) gap w (.ok o) rest) :
    ∃ after, text = gap ++ w ++ after ∧ rest = after.map .ok ∧
      Reads .gap (p.advanceAll gap) ((w ++ after).map .ok) w (.ok o) (after.map .ok) := by
  obtain ⟨after, htext, rfl⟩ := h.exists_text
  obtain ⟨items', hr⟩ := h.reads
  have hitems := hr.items_eq
  rw [leaving_ok, ← List.map_append] at hitems
  exact ⟨after, htext, rfl, hitems ▸ hr⟩

/-- **Every token of a text is read where it begins.** -/
theorem Lexes.exists_reads {emit : Bool} {p : Position} {items : List Item} {ts : List Token}
    (h : Lexes emit p items ts) {text : List Char} (hi : items = text.map .ok) {t : Token}
    (ht : t ∈ ts) :
    ∃ before w after o, text = before ++ w ++ after ∧
      t = o.toToken (p.advanceAll before) (p.advanceAll (before ++ w)) (String.ofList w) ∧
      Reads .gap (p.advanceAll before) ((w ++ after).map .ok) w (.ok o) (after.map .ok) := by
  induction h generalizing text with
  | @token p items rest gap w o u us hs _ hu _ ih =>
    subst hi
    obtain ⟨after, rfl, rfl, hr⟩ := hs.reads_text
    rcases List.mem_cons.1 ht with rfl | ht
    · cases hu
      exact ⟨gap, w, after, o, rfl, by rw [Position.advanceAll_append], hr⟩
    · obtain ⟨before, v, after', o', rfl, htoken, hr'⟩ := ih rfl ht
      rw [← Position.advanceAll_append p, ← Position.advanceAll_append p] at htoken hr'
      rw [← Position.advanceAll_append, ← List.append_assoc] at htoken
      exact ⟨gap ++ w ++ before, v, after', o', by simp, htoken, hr'⟩
  | @endOfInput p items rest gap w u hs hu =>
    subst hi
    obtain ⟨after, rfl, -, hr⟩ := hs.reads_text
    cases hu
    rw [List.mem_singleton.1 ht]
    exact ⟨gap, w, after, _, rfl, by rw [Position.advanceAll_append], hr⟩
  | failure hs => exact absurd hi (hs.error_ne_text text)

end Scan

end SexprLex
