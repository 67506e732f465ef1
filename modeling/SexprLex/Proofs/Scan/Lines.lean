import SexprLex.Proofs.Scan.Lexemes

/-!
# Lines can be lexed apart

A newline ends every token but a string. So two texts with a newline between them are lexed one
after the other, and what is wrong in one of them does not show in the other.

**Theorem (`tokenize_joined`).** If no string in `a` is left open, the tokens of `a`, a newline and
`b` are the tokens of `a` without the end of the input, and then the tokens of `b`, moved down by
the lines and the characters that come before them.

The proof has two parts.

* **Moving.** What a scan does depends on where it begins only through the positions it reports.
  A map of positions that goes along with every character (`Position.Shifts`) takes each
  derivation to one that begins elsewhere (`Lexes.moved`).
* **Joining.** A token that the end of the input ends is ended by a newline as well
  (`Outcome.endsBefore_newline`), so a derivation that comes to the end of the input can be put
  before one that begins behind a newline (`Lexes.joined`).
-/

namespace SexprLex

open Literal (Body BadEscape)

/-! ## Positions further down -/

namespace Position

/-- The position so many lines and so many characters further down, in the same column. -/
def below (lines chars : Nat) (p : Position) : Position :=
  ⟨min ceiling (p.line + lines), p.column, p.offset + chars, Nat.min_le_left .., p.column_le⟩

/-- A map of positions that goes along with every character. -/
def Shifts (f : Position → Position) : Prop :=
  ∀ p c, f (p.advance c) = (f p).advance c

theorem shifts_below (lines chars : Nat) : Shifts (below lines chars) := by
  intro p c
  by_cases hc : c = '\n'
  · apply Position.ext
    · simp only [below, advance, hc, if_true, bump]
      omega
    · simp [below, advance, hc]
    · simp only [below, offset_advance]
      omega
  · apply Position.ext
    · simp [below, advance, hc]
    · simp [below, advance, hc]
    · simp only [below, offset_advance]
      omega

theorem Shifts.advanceAll {f : Position → Position} (hf : Shifts f) (p : Position)
    (text : List Char) : f (p.advanceAll text) = (f p).advanceAll text := by
  induction text generalizing p with
  | nil => rfl
  | cons c text ih => rw [advanceAll_cons, advanceAll_cons, ih, hf]

theorem advance_newline (text : List Char) :
    (start.advanceAll text).advance '\n' = start.below (text.count '\n' + 1) (text.length + 1) := by
  apply Position.ext
  · rw [advance, if_pos rfl]
    show min ceiling ((start.advanceAll text).line + 1) = min ceiling _
    rw [line_advanceAll]
    omega
  · rfl
  · rw [offset_advance, offset_advanceAll]
    rfl

end Position

/-! ## What is moved along -/

section

variable (f : Position → Position)

/-- The error at the position that `f` gives. -/
def LexError.moved (e : LexError) : LexError := ⟨e.cause, f e.position⟩

/-- The kind with its error moved. -/
def TokenKind.moved : TokenKind → TokenKind
  | .error e => .error (e.moved f)
  | kind => kind

/-- The token with all its positions moved, and otherwise the same. -/
def Token.moved (t : Token) : Token := ⟨t.kind.moved f, t.lexeme, f t.start, f t.stop⟩

/-- The body with the position of its bad escape moved. -/
def Literal.Body.moved : Body → Body
  | .ok text => .ok text
  | .error bad => .error ⟨f bad.position, bad.escape⟩

namespace Scan

/-- The mode with all it remembers of positions moved. -/
def Mode.moved : Mode → Mode
  | .string body => .string (body.moved f)
  | .pair body backslash => .pair (body.moved f) (f backslash)
  | mode => mode

/-- The outcome with all it knows of positions moved. -/
def Outcome.moved : Outcome → Outcome
  | .string body => .string (body.moved f)
  | o => o

/-- The move to the moved mode or outcome. -/
def Move.moved : Move → Move
  | .skip => .skip
  | .take mode => .take (mode.moved f)
  | .close o => .close (o.moved f)
  | .stop o => .stop (o.moved f)

end Scan

end

namespace Literal.Body

theorem moved_plain (f : Position → Position) (body : Body) (c : Char) :
    (body.plain c).moved f = (body.moved f).plain c := by
  cases body <;> rfl

theorem moved_pair (f : Position → Position) (body : Body) (backslash : Position) (c : Char) :
    (body.pair backslash c).moved f = (body.moved f).pair (f backslash) c := by
  cases body with
  | error bad => rfl
  | ok text =>
    rw [pair, moved, pair]
    cases unescape? c <;> rfl

end Literal.Body

namespace Scan

open Position (Shifts)

variable {f : Position → Position}

/-! ## Moving -/

theorem Mode.moved_first (c : Char) : (first c).moved f = first c := by
  unfold first
  split <;> rfl

theorem Mode.next_moved (mode : Mode) (c : Char) (p : Position) :
    (mode.moved f).next c (f p) = (mode.next c p).moved f := by
  cases mode with
  | gap => exact (moved_first c).symm
  | sign s =>
    simp only [moved, next]
    split
    · rfl
    · split <;> rfl
  | symbol | number progress | comment =>
    simp only [moved, next]
    split <;> rfl
  | string body =>
    simp only [moved, next]
    split
    · rfl
    · split
      · rfl
      · rw [← Body.moved_plain]
        rfl
  | pair body backslash =>
    simp only [moved, next]
    rw [← Body.moved_pair]
    rfl

theorem Mode.atEnd_moved (mode : Mode) : (mode.moved f).atEnd = mode.atEnd.moved f := by
  cases mode <;> rfl

theorem Outcome.moved_eq_iff {o o' : Outcome} (ho : ∀ body, o' ≠ .string body) :
    o.moved f = o' ↔ o = o' := by
  cases o with
  | string body =>
    constructor
    · intro h
      exact absurd h.symm (ho _)
    · intro h
      exact absurd h.symm (ho _)
  | _ => rfl

theorem Reads.moved (hf : Shifts f) {mode : Mode} {p : Position} {items rest : List Item}
    {w : List Char} {e : Except Fault Outcome} (h : Reads mode p items w e rest) :
    Reads (mode.moved f) (f p) items w (e.map (Outcome.moved f)) rest := by
  induction h with
  | atEnd =>
    rw [Except.map, ← Mode.atEnd_moved]
    exact .atEnd
  | failed => exact .failed
  | take hm _ ih =>
    rw [hf] at ih
    refine .take ?_ ih
    rw [Mode.next_moved, hm]
    rfl
  | close hm =>
    apply Reads.close
    rw [Mode.next_moved, hm]
    rfl
  | stop hm =>
    apply Reads.stop
    rw [Mode.next_moved, hm]
    rfl

theorem Scans.moved (hf : Shifts f) {emit : Bool} {p : Position} {items rest : List Item}
    {gap w : List Char} {e : Except Fault Outcome} (h : Scans emit p items gap w e rest) :
    Scans emit (f p) items gap w (e.map (Outcome.moved f)) rest := by
  induction h with
  | blank hm _ ih =>
    rw [hf] at ih
    refine .blank ?_ ih
    exact hm
  | comment hemit hr _ ih =>
    rw [hf.advanceAll] at ih
    exact .comment hemit (hr.moved hf) ih
  | @found p items rest w e hr he =>
    refine .found (hr.moved hf) ?_
    intro hcomment
    apply he
    cases e with
    | error fault => cases hcomment
    | ok o =>
      rw [Except.map, Except.ok.injEq, Outcome.moved_eq_iff (by simp)] at hcomment
      rw [hcomment]

theorem Outcome.toToken_moved (o : Outcome) (start stop : Position) (raw : String) :
    (o.moved f).toToken (f start) (f stop) raw = (o.toToken start stop raw).moved f := by
  cases o with
  | string body => cases body <;> rfl
  | number result =>
    match result with
    | .ok .integer | .ok .float | .error offending => rfl
  | _ => rfl

/-- **Moved tokens are the tokens from elsewhere on.** -/
theorem Lexes.moved (hf : Shifts f) {emit : Bool} {p : Position} {items : List Item}
    {ts : List Token} (h : Lexes emit p items ts) :
    Lexes emit (f p) items (ts.map (Token.moved f)) := by
  induction h with
  | token hs ho ht _ ih =>
    cases ht
    have hs' := hs.moved hf
    rw [hf.advanceAll, hf.advanceAll] at ih
    refine .token hs' ?_ ?_ ih
    · rwa [Ne, Outcome.moved_eq_iff (by simp)]
    · rw [result, ← hf.advanceAll, ← hf.advanceAll, Outcome.toToken_moved]
  | endOfInput hs ht =>
    cases ht
    refine .endOfInput (hs.moved hf) ?_
    rw [result, ← hf.advanceAll, ← hf.advanceAll]
    rfl
  | @failure p items rest gap w fault failure hs ht =>
    cases ht
    have hl := Lexes.failure (hs.moved hf) rfl
    rw [← hf.advanceAll, ← hf.advanceAll] at hl
    exact hl

/-! ## Joining -/

theorem Outcome.endsBefore_newline {o : Outcome} (hopen : o ≠ .unterminatedString)
    (hgap : o ≠ .endOfInput) : o.endsBefore (.ok '\n') = true := by
  cases o with
  | unterminatedString => exact absurd rfl hopen
  | endOfInput => exact absurd rfl hgap
  | _ => rfl

theorem Outcome.Allows.newline {o : Outcome} {rest : List Item} (h : o.Allows rest)
    (hopen : o ≠ .unterminatedString) (hgap : o ≠ .endOfInput) (more : List Item) :
    o.Allows (rest ++ .ok '\n' :: more) := by
  cases rest with
  | nil => exact allows_cons.2 (endsBefore_newline hopen hgap)
  | cons item rest => exact h

theorem Reads.before_newline {mode : Mode} {p : Position} {items rest : List Item}
    {w : List Char} {o : Outcome} (h : Reads mode p items w (.ok o) rest)
    (hopen : o ≠ .unterminatedString) (hgap : o ≠ .endOfInput) (more : List Item) :
    Reads mode p (items ++ .ok '\n' :: more) w (.ok o) (rest ++ .ok '\n' :: more) := by
  rw [h.items_eq, leaving_ok, List.append_assoc]
  exact h.frame (h.allows.newline hopen hgap more)

theorem Scans.before_newline {emit : Bool} {p : Position} {items rest : List Item}
    {gap w : List Char} {o : Outcome} (h : Scans emit p items gap w (.ok o) rest)
    (hopen : o ≠ .unterminatedString) (hgap : o ≠ .endOfInput) (more : List Item) :
    Scans emit p (items ++ .ok '\n' :: more) gap w (.ok o) (rest ++ .ok '\n' :: more) := by
  obtain ⟨items', hr⟩ := h.reads
  rw [h.items_eq, leaving_ok, List.append_assoc]
  exact h.frame hgap (hr.allows.newline hopen hgap more)

/-- A gap that comes to the end of the input goes on behind a newline. -/
theorem Scans.through_newline {emit : Bool} {p : Position} {items rest more rest' : List Item}
    {gap w gap' w' : List Char} {e e' : Except Fault Outcome}
    (h : Scans emit p items gap w e rest) (he : e = .ok .endOfInput)
    (h' : Scans emit ((p.advanceAll gap).advance '\n') more gap' w' e' rest') :
    Scans emit p (items ++ .ok '\n' :: more) (gap ++ '\n' :: gap') w' e' rest' := by
  induction h with
  | blank hm _ ih => exact .blank hm (ih he h')
  | @comment p items items' rest body gap w e hemit hr _ ih =>
    rw [Position.advanceAll_append] at h'
    rw [List.append_assoc]
    exact .comment hemit (hr.before_newline (by simp) (by simp) more) (ih he h')
  | found hr _ =>
    subst he
    obtain ⟨rfl, rfl⟩ := hr.of_endOfInput
    have hitems := hr.items_eq
    rw [List.map_nil, List.nil_append, leaving_ok] at hitems
    rw [hitems]
    exact .blank rfl h'

theorem Lexes.through_newline {emit : Bool} {p : Position} {items rest more : List Item}
    {gap w : List Char} {us : List Token} (h : Scans emit p items gap w (.ok .endOfInput) rest)
    (h' : Lexes emit ((p.advanceAll gap).advance '\n') more us) :
    Lexes emit p (items ++ .ok '\n' :: more) us := by
  have hstep : ∀ gap', ((p.advanceAll gap).advance '\n').advanceAll gap' =
      p.advanceAll (gap ++ '\n' :: gap') := by
    intro gap'
    rw [Position.advanceAll_append, Position.advanceAll_cons]
  cases h' with
  | token hs ho ht hl =>
    rw [hstep] at ht hl
    exact .token (h.through_newline rfl hs) ho ht hl
  | endOfInput hs ht =>
    rw [hstep] at ht
    exact .endOfInput (h.through_newline rfl hs) ht
  | failure hs ht =>
    rw [hstep] at ht
    exact .failure (h.through_newline rfl hs) ht

end Scan

/-- The token is no string that is left open. -/
def Token.IsClosed (t : Token) : Prop := ∀ e, t.error? = some e → e.cause ≠ .unterminatedString

namespace Scan

theorem ne_unterminatedString_of_isClosed {o : Outcome} {start stop : Position} {raw : String}
    (h : (o.toToken start stop raw).IsClosed) : o ≠ .unterminatedString := by
  rintro rfl
  exact h _ rfl rfl

/-- **Derivations are joined at a newline.** -/
theorem Lexes.joined {emit : Bool} {p : Position} {items more : List Item} {ts us : List Token}
    {text : List Char} (h : Lexes emit p items ts) (hi : items = text.map .ok)
    (hclosed : ∀ t ∈ ts, t.IsClosed)
    (hmore : Lexes emit ((p.advanceAll text).advance '\n') more us) :
    ∃ before, ts = before ++ [.endOfInput (p.advanceAll text)] ∧
      Lexes emit p (items ++ .ok '\n' :: more) (before ++ us) := by
  induction h generalizing text with
  | @token p items rest gap w o t ts hs ho ht hl ih =>
    subst hi
    obtain ⟨text', rfl, rfl⟩ := hs.exists_text
    obtain ⟨ht', hclosed⟩ := List.forall_mem_cons.1 hclosed
    rw [Position.advanceAll_append, Position.advanceAll_append] at hmore
    obtain ⟨before, rfl, hl'⟩ := ih rfl hclosed hmore
    refine ⟨t :: before, ?_, ?_⟩
    · rw [Position.advanceAll_append, Position.advanceAll_append, List.cons_append]
    · refine .token (hs.before_newline ?_ ho more) ho ht hl'
      cases ht
      exact ne_unterminatedString_of_isClosed ht'
  | @endOfInput p items rest gap w t hs ht =>
    subst hi
    obtain ⟨items', hr⟩ := hs.reads
    obtain ⟨rfl, rfl⟩ := hr.of_endOfInput
    obtain ⟨text', rfl, htext'⟩ := hs.exists_text
    obtain rfl : text' = [] := List.map_eq_nil_iff.1 htext'.symm
    rw [List.append_nil, List.append_nil] at hs hmore ⊢
    cases ht
    exact ⟨[], rfl, Lexes.through_newline hs hmore⟩
  | failure hs => exact absurd hi (hs.error_ne_text text)

end Scan

open Scan

/-- **Lines can be lexed apart.** -/
theorem tokenize_joined (options : Options) (a b : String)
    (h : ∀ t ∈ tokenize options a, t.IsClosed) :
    ∃ before,
      tokenize options a = before ++ [.endOfInput (Position.start.advanceAll a.toList)] ∧
      tokenize options (a ++ "\n" ++ b) = before ++ (tokenize options b).map
        (Token.moved (Position.below (a.toList.count '\n' + 1) (a.toList.length + 1))) := by
  obtain ⟨ts, hts⟩ := exists_lexes options.emitComments .start (a.toList.map .ok)
  obtain ⟨us, hus⟩ := exists_lexes options.emitComments .start (b.toList.map .ok)
  rw [tokenize_of_lexes hts] at h ⊢
  rw [tokenize_of_lexes hus]
  have hmoved := hus.moved
    (Position.shifts_below (a.toList.count '\n' + 1) (a.toList.length + 1))
  rw [← Position.advance_newline] at hmoved
  obtain ⟨before, hbefore, hl⟩ := hts.joined rfl h hmoved
  refine ⟨before, hbefore, tokenize_of_lexes ?_⟩
  simpa using hl

/-- A malformed number does not reach over the newline, and the string behind it is left open. -/
theorem tokenize_joined_malformed :
    (∀ t ∈ tokenize .default "1x", t.IsClosed) ∧ ∃ before,
      tokenize .default "1x" = before ++ [.endOfInput (Position.start.advanceAll "1x".toList)] ∧
      tokenize .default ("1x" ++ "\n" ++ "\"\\q") =
        before ++ (tokenize .default "\"\\q").map (Token.moved (Position.below 1 3)) := by
  have hl : Lexes Options.default.emitComments .start ("1x".toList.map .ok)
      [⟨.error ⟨.malformedNumber "1x" (some 'x'), .start⟩, "1x", .start,
          Position.start.advanceAll "1x".toList⟩,
        .endOfInput (Position.start.advanceAll "1x".toList)] := by
    refine .token (.found (.take rfl (.take rfl .atEnd)) ?_) ?_ rfl ?_
    · intro he
      cases he
    · intro ho
      cases ho
    · refine .endOfInput (.found .atEnd ?_) rfl
      intro he
      cases he
  have hclosed : ∀ t ∈ tokenize .default "1x", t.IsClosed := by
    rw [tokenize_of_lexes hl]
    simp [Token.IsClosed, Token.error?, Token.endOfInput]
  exact ⟨hclosed, tokenize_joined .default "1x" "\"\\q" hclosed⟩

end SexprLex
