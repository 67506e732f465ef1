import SexprLex.Input.Cursor
import SexprLex.Scan.Mode

/-!
# Lexers

A **lexer** scans one token at a time from a cursor. A scan is a sequence of steps, each of
which looks at one character: it goes on, ends with a token, or fails because the input could
not be read. A failed scan reports what it had read of its token; the next scan begins
afresh behind that.

Comments are tokens only on request; otherwise a scan that has read a comment starts again
behind it.

* `Scan.step` — one step.
* `Scan.size` — what a scan has before it; every step that goes on makes it smaller.
* `Scan.run` — all steps.
* `Lexer.scan` — the scan of one token.
-/

namespace SexprLex

/-- What a lexer reports. -/
structure Options where
  /-- Whether comments are tokens. -/
  emitComments : Bool
  deriving DecidableEq, Repr

/-- Comments are no tokens unless asked for. -/
def Options.default : Options := ⟨false⟩

/-- A scan that failed because the input could not be read. -/
structure ScanFailure where
  fault : Fault
  /-- Where the token begins that was being read. -/
  start : Position
  /-- Where reading failed. -/
  position : Position
  /-- What was read of the token. -/
  raw : String
  deriving DecidableEq

/-- The written form: where, and what. -/
def ScanFailure.render (e : ScanFailure) : String :=
  e.position.render ++ ": failed to read source: " ++ e.fault.text

/-- A scan under way. -/
structure Scan where
  cursor : Cursor
  mode : Scan.Mode
  /-- Where the token begins, or in a gap the position of the cursor. -/
  start : Position
  /-- The characters of the token so far. -/
  raw : String

namespace Scan

/-- A scan that begins where the cursor stands. -/
def fresh (cursor : Cursor) : Scan := ⟨cursor, .gap, cursor.position, ""⟩

/-- Where one step leads. -/
inductive Step
  /-- The scan goes on. -/
  | more (scan : Scan)
  /-- The scan ends with a token. -/
  | token (token : Token) (cursor : Cursor)
  /-- The scan fails. -/
  | failed (failure : ScanFailure) (cursor : Cursor)

/-- Ends the token that begins at `start` and covers `raw` where the cursor stands. A comment
that nobody asked for is dropped. -/
def finish (options : Options) (cursor : Cursor) (start : Position) (raw : String)
    (outcome : Outcome) : Step :=
  if outcome.isComment && !options.emitComments then .more (fresh cursor)
  else .token (outcome.toToken start cursor.position raw) cursor

/-- Looks at the next character and makes the move of the mode. -/
def step (options : Options) : Scan → Step
  | ⟨cursor, mode, start, raw⟩ =>
    match cursor.peek with
    | (.error fault, cursor) => .failed ⟨fault, start, cursor.position, raw⟩ cursor
    | (.ok none, cursor) => finish options cursor start raw mode.atEnd
    | (.ok (some c), cursor) =>
      match mode.next c cursor.position with
      | .skip => .more (fresh (cursor.pass c))
      | .take mode => .more ⟨cursor.pass c, mode, start, raw.push c⟩
      | .close outcome => finish options (cursor.pass c) start (raw.push c) outcome
      | .stop outcome => finish options cursor start raw outcome

/-! ## Steps come to an end -/

/-- What the scan has before it: twice what the cursor can still meet, and one more inside a
token. -/
def size (s : Scan) : Nat :=
  2 * s.cursor.remaining +
    match s.mode with
    | .gap => 0
    | _ => 1

theorem size_le (s : Scan) : s.size ≤ 2 * s.cursor.remaining + 1 := by
  unfold size
  split <;> omega

theorem size_of_gap {s : Scan} (h : s.mode = .gap) : s.size = 2 * s.cursor.remaining := by
  rw [size, h]
  rfl

theorem size_of_ne_gap {s : Scan} (h : s.mode ≠ .gap) :
    s.size = 2 * s.cursor.remaining + 1 := by
  unfold size
  split
  · contradiction
  · rfl

/-- A token goes on only by dropping a comment. -/
theorem eq_fresh_of_finish {options : Options} {cursor : Cursor} {start : Position}
    {raw : String} {outcome : Outcome} {s' : Scan}
    (h : finish options cursor start raw outcome = .more s') :
    outcome.isComment = true ∧ s' = fresh cursor := by
  unfold finish at h
  split at h
  · next hc =>
    cases h
    exact ⟨(Bool.and_eq_true _ _ ▸ hc).1, rfl⟩
  · cases h

/-- A token that ends is made of what was read, and the cursor stays. -/
theorem eq_of_finish {options : Options} {cursor cursor' : Cursor} {start : Position}
    {raw : String} {outcome : Outcome} {t : Token}
    (h : finish options cursor start raw outcome = .token t cursor') :
    t = outcome.toToken start cursor.position raw ∧ cursor' = cursor := by
  unfold finish at h
  split at h <;> cases h
  exact ⟨rfl, rfl⟩

theorem finish_ne_failed {options : Options} {cursor cursor' : Cursor} {start : Position}
    {raw : String} {outcome : Outcome} {failure : ScanFailure} :
    finish options cursor start raw outcome ≠ .failed failure cursor' := by
  unfold finish
  split <;> simp

/-- A step that goes on leaves less for the cursor to meet, unless it drops a comment. -/
theorem remaining_of_more {options : Options} {s s' : Scan} (h : s.step options = .more s') :
    s'.cursor.remaining < s.cursor.remaining ∨
      s'.cursor.remaining ≤ s.cursor.remaining ∧ s.mode ≠ .gap ∧ s'.mode = .gap := by
  obtain ⟨cursor₀, mode, start, raw⟩ := s
  rw [step] at h
  split at h
  · cases h
  · next cursor hp =>
    obtain ⟨hc, rfl⟩ := eq_fresh_of_finish h
    refine Or.inr ⟨Cursor.remaining_peek_le hp, ?_, rfl⟩
    rintro rfl
    cases hc
  · next c cursor hp =>
    have hlt := Cursor.remaining_pass_lt hp
    split at h
    · cases h
      exact Or.inl hlt
    · cases h
      exact Or.inl hlt
    · obtain ⟨-, rfl⟩ := eq_fresh_of_finish h
      exact Or.inl hlt
    · next hm =>
      obtain ⟨-, rfl⟩ := eq_fresh_of_finish h
      refine Or.inr ⟨Cursor.remaining_peek_le hp, ?_, rfl⟩
      rintro rfl
      exact Mode.next_gap_ne_stop _ _ _ hm

/-- A step that goes on leaves less before the scan. -/
theorem size_lt_of_step {options : Options} {s s' : Scan} (h : s.step options = .more s') :
    s'.size < s.size := by
  rcases remaining_of_more h with hlt | ⟨hle, hmode, hmode'⟩
  · have hs : 2 * s.cursor.remaining ≤ s.size := Nat.le_add_right ..
    have := size_le s'
    omega
  · rw [size_of_ne_gap hmode, size_of_gap hmode']
    omega

/-! ## Running -/

/-- Runs a scan to its end. -/
def run (options : Options) (s : Scan) : Except ScanFailure Token × Cursor :=
  match _h : s.step options with
  | .more s' => s'.run options
  | .token t cursor => (.ok t, cursor)
  | .failed failure cursor => (.error failure, cursor)
termination_by s.size
decreasing_by exact size_lt_of_step ‹_›

theorem run_of_more {options : Options} {s s' : Scan} (h : s.step options = .more s') :
    s.run options = s'.run options := by
  rw [run]
  split <;> simp_all

theorem run_of_token {options : Options} {s : Scan} {t : Token} {cursor : Cursor}
    (h : s.step options = .token t cursor) : s.run options = (.ok t, cursor) := by
  rw [run]
  split <;> simp_all

theorem run_of_failed {options : Options} {s : Scan} {failure : ScanFailure} {cursor : Cursor}
    (h : s.step options = .failed failure cursor) :
    s.run options = (.error failure, cursor) := by
  rw [run]
  split <;> simp_all

/-! ## Tokens and failures use up the input -/

/-- Whether a scan has ended with anything but the end of the input. -/
def usesInput (result : Except ScanFailure Token) : Bool :=
  match result with
  | .ok t => !t.isEndOfInput
  | .error _ => true

theorem remaining_of_token {options : Options} {s : Scan} {t : Token} {cursor' : Cursor}
    (h : s.step options = .token t cursor') :
    cursor'.remaining ≤ s.cursor.remaining ∧
      (s.mode = .gap → t.isEndOfInput = false → cursor'.remaining < s.cursor.remaining) := by
  obtain ⟨cursor₀, mode, start, raw⟩ := s
  rw [step] at h
  split at h
  · cases h
  · next cursor hp =>
    obtain ⟨rfl, rfl⟩ := eq_of_finish h
    refine ⟨Cursor.remaining_peek_le hp, fun hg ht => ?_⟩
    cases hg
    cases ht
  · next c cursor hp =>
    have hlt := Cursor.remaining_pass_lt hp
    split at h
    · cases h
    · cases h
    · obtain ⟨-, rfl⟩ := eq_of_finish h
      exact ⟨Nat.le_of_lt hlt, fun _ _ => hlt⟩
    · next hm =>
      obtain ⟨-, rfl⟩ := eq_of_finish h
      refine ⟨Cursor.remaining_peek_le hp, fun hg _ => ?_⟩
      cases hg
      exact absurd hm (Mode.next_gap_ne_stop _ _ _)

theorem remaining_of_failed {options : Options} {s : Scan} {failure : ScanFailure}
    {cursor' : Cursor} (h : s.step options = .failed failure cursor') :
    cursor'.remaining < s.cursor.remaining := by
  obtain ⟨cursor₀, mode, start, raw⟩ := s
  rw [step] at h
  split at h
  · next hp =>
    cases h
    exact Cursor.remaining_peek_lt hp
  · exact absurd h finish_ne_failed
  · split at h
    · cases h
    · cases h
    · exact absurd h finish_ne_failed
    · exact absurd h finish_ne_failed

/-- A scan never adds to its input, and one that begins in a gap uses some of it up unless it
finds the end. -/
theorem remaining_run (options : Options) (s : Scan) :
    (s.run options).2.remaining ≤ s.cursor.remaining ∧
      (s.mode = .gap → usesInput (s.run options).1 = true →
        (s.run options).2.remaining < s.cursor.remaining) := by
  fun_induction run options s with
  | case1 s s' h ih =>
    rcases remaining_of_more h with hlt | ⟨hle, hmode, -⟩
    · have hrun := Nat.lt_of_le_of_lt ih.1 hlt
      exact ⟨Nat.le_of_lt hrun, fun _ _ => hrun⟩
    · exact ⟨Nat.le_trans ih.1 hle, fun hg => absurd hg hmode⟩
  | case2 s t cursor h =>
    have hs := remaining_of_token h
    exact ⟨hs.1, fun hg hu => hs.2 hg (by simpa [usesInput] using hu)⟩
  | case3 s failure cursor h =>
    have hs := remaining_of_failed h
    exact ⟨Nat.le_of_lt hs, fun _ _ => hs⟩

end Scan

/-- A cursor from which tokens are scanned. -/
structure Lexer where
  cursor : Cursor
  options : Options
  deriving DecidableEq

namespace Lexer

/-- The lexer of all of a reader's input. -/
def ofReader (options : Options) (reader : Reader) : Lexer := ⟨.ofReader reader, options⟩

/-- Where the lexer stands: behind what it has scanned. -/
def position (l : Lexer) : Position := l.cursor.position

/-- Scans the next token. At the end of the input that is the end of the input, again and
again. -/
def scan (l : Lexer) : Except ScanFailure Token × Lexer :=
  let (result, cursor) := (Scan.fresh l.cursor).run l.options
  (result, { l with cursor })

/-- Every token but the end of the input uses up some of the input, and so does every
failure. -/
theorem remaining_scan_lt {l l' : Lexer} {result : Except ScanFailure Token}
    (h : l.scan = (result, l')) (hu : Scan.usesInput result = true) :
    l'.cursor.remaining < l.cursor.remaining := by
  cases h
  exact (Scan.remaining_run l.options (Scan.fresh l.cursor)).2 rfl hu

end Lexer

end SexprLex
