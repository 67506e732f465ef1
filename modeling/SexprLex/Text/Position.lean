/-!
# Positions in a text

A **position** names a place between two characters: the line and the column, both counted
from one, and the number of characters before it. Lines and columns have a ceiling,
`Position.ceiling`, and stay there once they reach it; the offset has none.

* `Position.advance` — the position after one more character.
* `Position.advanceAll` — the position after a whole text.
* `Position.compare` — line, then column, then offset.
-/

namespace SexprLex

/-- The greatest line and the greatest column, `2 ^ 32 - 1`. -/
def Position.ceiling : Nat := 4294967295

/-- A place in a text. Neither the line nor the column passes the ceiling. -/
structure Position where
  line : Nat
  column : Nat
  offset : Nat
  line_le : line ≤ Position.ceiling
  column_le : column ≤ Position.ceiling
  deriving DecidableEq

namespace Position

/-- The place before the first character. -/
def start : Position := ⟨1, 1, 0, by decide, by decide⟩

instance : Inhabited Position := ⟨start⟩

/-- The position with these counts, if they are within the ceiling. -/
def ofCounts? (line column offset : Nat) : Option Position :=
  if h : line ≤ ceiling ∧ column ≤ ceiling then
    some ⟨line, column, offset, h.1, h.2⟩
  else
    none

/-- The next count, or the ceiling again. -/
def bump (count : Nat) : Nat := min ceiling (count + 1)

theorem bump_le (count : Nat) : bump count ≤ ceiling := Nat.min_le_left ..

/-- The position after the character `c`. A line ends with a newline and only with that: a
carriage return or a tab is one column like any other character. -/
def advance (p : Position) (c : Char) : Position :=
  if c = '\n' then
    ⟨bump p.line, 1, p.offset + 1, bump_le _, by decide⟩
  else
    ⟨p.line, bump p.column, p.offset + 1, p.line_le, bump_le _⟩

/-- The position after all of `text`. -/
def advanceAll (p : Position) (text : List Char) : Position := text.foldl advance p

/-- The order of positions: by line, then by column, then by offset. -/
def compare (p q : Position) : Ordering :=
  (Ord.compare p.line q.line).then
    ((Ord.compare p.column q.column).then (Ord.compare p.offset q.offset))

instance : Ord Position := ⟨compare⟩

/-- The written form: the line and the column with a colon between them. -/
def render (p : Position) : String := toString p.line ++ ":" ++ toString p.column

/-! ## One character, many characters -/

@[ext] theorem ext {p q : Position} (hl : p.line = q.line) (hc : p.column = q.column)
    (ho : p.offset = q.offset) : p = q := by
  cases p
  cases q
  simp_all

@[simp] theorem offset_advance (p : Position) (c : Char) :
    (p.advance c).offset = p.offset + 1 := by
  unfold advance
  split <;> rfl

@[simp] theorem advanceAll_nil (p : Position) : p.advanceAll [] = p := rfl

@[simp] theorem advanceAll_cons (p : Position) (c : Char) (text : List Char) :
    p.advanceAll (c :: text) = (p.advance c).advanceAll text := rfl

theorem advanceAll_append (p : Position) (a b : List Char) :
    p.advanceAll (a ++ b) = (p.advanceAll a).advanceAll b := List.foldl_append ..

@[simp] theorem offset_advanceAll (p : Position) (text : List Char) :
    (p.advanceAll text).offset = p.offset + text.length := by
  induction text generalizing p with
  | nil => rfl
  | cons c text ih =>
    rw [advanceAll_cons, ih, offset_advance, List.length_cons]
    omega

/-- Lines go up with the newlines and stay at the ceiling. -/
theorem line_advanceAll (p : Position) (text : List Char) :
    (p.advanceAll text).line = min ceiling (p.line + text.count '\n') := by
  induction text generalizing p with
  | nil => exact (Nat.min_eq_right p.line_le).symm
  | cons c text ih =>
    rw [advanceAll_cons, ih, List.count_cons]
    by_cases hc : c = '\n'
    · simp only [advance, hc, beq_self_eq_true, if_true, bump]
      omega
    · simp [advance, hc]

end Position

end SexprLex
