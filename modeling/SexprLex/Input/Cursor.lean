import SexprLex.Input.Utf8
import SexprLex.Text.Position

/-!
# Cursors

A **cursor** goes over the characters of a reader with one character of lookahead, and knows
the position of the next character.

* `Cursor.peek` — the next character, which stays where it is.
* `Cursor.advance` — the next character, which the cursor passes.
* `Cursor.drain` — all characters up to the first end of input or fault.

Once the cursor has met the end of the input it stays there and does not ask the reader again.
A fault is returned to whoever asked and is not remembered: the next request asks the reader
anew, and the position stays where it was.
-/

namespace SexprLex

/-- What a cursor knows about the character before which it stands. -/
inductive Lookahead
  /-- Nothing: the reader has not been asked. -/
  | unread
  /-- There is none, the input has ended. -/
  | ended
  /-- It is `c`. -/
  | char (c : Char)
  deriving DecidableEq

/-- A place in the characters of a reader. -/
structure Cursor where
  reader : Reader
  ahead : Lookahead
  position : Position
  deriving DecidableEq

namespace Cursor

/-- The cursor before the first character of a reader. -/
def ofReader (reader : Reader) : Cursor := ⟨reader, .unread, .start⟩

/-- The next character, or `none` at the end of the input. The cursor does not pass it. -/
def peek (s : Cursor) : Answer Char × Cursor :=
  match s.ahead with
  | .char c => (.ok (some c), s)
  | .ended => (.ok none, s)
  | .unread =>
    match s.reader.decode with
    | (.ok (some c), reader) => (.ok (some c), { s with reader, ahead := .char c })
    | (.ok none, reader) => (.ok none, { s with reader, ahead := .ended })
    | (.error fault, reader) => (.error fault, { s with reader })

/-- The cursor behind the character `c` that it has just seen. -/
def pass (s : Cursor) (c : Char) : Cursor :=
  { s with ahead := .unread, position := s.position.advance c }

/-- The next character, or `none` at the end of the input. The cursor passes it. -/
def advance (s : Cursor) : Answer Char × Cursor :=
  match s.peek with
  | (.ok (some c), s) => (.ok (some c), s.pass c)
  | (.ok none, s) => (.ok none, s)
  | (.error fault, s) => (.error fault, s)

/-- Whether the input ends here. -/
def atEnd (s : Cursor) : Except Fault Bool × Cursor :=
  match s.peek with
  | (.ok c?, s) => (.ok c?.isNone, s)
  | (.error fault, s) => (.error fault, s)

/-! ## What is left -/

/-- How many characters and faults the cursor can still meet, at most. -/
def remaining (s : Cursor) : Nat :=
  match s.ahead with
  | .char _ => s.reader.remaining + 1
  | .unread => s.reader.remaining
  | .ended => 0

theorem remaining_pass (s : Cursor) (c : Char) : (s.pass c).remaining = s.reader.remaining := rfl

theorem peek_of_char {s : Cursor} {c : Char} (h : s.ahead = .char c) :
    s.peek = (.ok (some c), s) := by
  rw [peek, h]

theorem peek_of_ended {s : Cursor} (h : s.ahead = .ended) : s.peek = (.ok none, s) := by
  rw [peek, h]

/-- A character that is seen is remembered. -/
theorem ahead_of_peek_char {s s' : Cursor} {c : Char} (h : s.peek = (.ok (some c), s')) :
    s'.ahead = .char c := by
  unfold peek at h
  split at h
  · cases h
    assumption
  · cases h
  · split at h <;> cases h
    rfl

/-- An end that is seen is remembered. -/
theorem ahead_of_peek_none {s s' : Cursor} (h : s.peek = (.ok none, s')) :
    s'.ahead = .ended := by
  unfold peek at h
  split at h
  · cases h
  · cases h
    assumption
  · split at h <;> cases h
    rfl

@[simp] theorem position_peek (s : Cursor) : s.peek.2.position = s.position := by
  unfold peek
  split <;> try rfl
  split <;> rfl

/-- Looking ahead uses nothing up. -/
theorem remaining_peek_le {s s' : Cursor} {c? : Option Char} (h : s.peek = (.ok c?, s')) :
    s'.remaining ≤ s.remaining := by
  unfold peek at h
  split at h
  · cases h
    exact Nat.le_refl _
  · cases h
    exact Nat.le_refl _
  · next hs =>
    rw [show s.remaining = s.reader.remaining by rw [remaining, hs]]
    split at h
    · next hr =>
      have hle := Reader.remaining_decode hr
      cases h
      exact hle
    · cases h
      exact Nat.zero_le _
    · cases h

/-- A fault is used up by whoever meets it. -/
theorem remaining_peek_lt {s s' : Cursor} {fault : Fault} (h : s.peek = (.error fault, s')) :
    s'.remaining < s.remaining := by
  unfold peek at h
  split at h
  · cases h
  · cases h
  · next hs =>
    rw [show s.remaining = s.reader.remaining by rw [remaining, hs]]
    split at h
    · cases h
    · cases h
    · next hr =>
      have hle := Reader.remaining_decode hr
      cases h
      rw [remaining, hs]
      exact hle

/-- A character that the cursor passes is used up. -/
theorem remaining_pass_lt {s s' : Cursor} {c : Char} (h : s.peek = (.ok (some c), s')) :
    (s'.pass c).remaining < s.remaining := by
  have hle := remaining_peek_le h
  have hs' : s'.remaining = s'.reader.remaining + 1 := by
    rw [remaining, ahead_of_peek_char h]
  rw [remaining_pass]
  omega

theorem remaining_advance_lt {s s' : Cursor} {c : Char} (h : s.advance = (.ok (some c), s')) :
    s'.remaining < s.remaining := by
  unfold advance at h
  split at h
  · next hp =>
    cases h
    exact remaining_pass_lt hp
  · cases h
  · cases h

/-! ## Draining -/

/-- A text and the fault behind it; without a fault it is all of the input. -/
structure Drained where
  text : String
  fault? : Option Fault

/-- Goes on to the first end of input or fault and adds what it passes to `text`. -/
def drainOnto (text : String) (s : Cursor) : Drained × Cursor :=
  match _h : s.advance with
  | (.ok (some c), s') => drainOnto (text.push c) s'
  | (.ok none, s') => (⟨text, none⟩, s')
  | (.error fault, s') => (⟨text, some fault⟩, s')
termination_by s.remaining
decreasing_by exact remaining_advance_lt ‹_›

/-- Passes all characters up to the first end of input or fault. -/
def drain (s : Cursor) : Drained × Cursor := s.drainOnto ""

end Cursor

end SexprLex
