import Mathlib.Data.List.DropRight
import Mathlib.Order.Basic
import SexprLex.Text.Position

/-!
# Positions follow the text

A position is reached one character at a time, and each step keeps the line and the column under
their ceiling. It can be said at once where a whole text leads, and places in a text are in order
even where the column has come to its ceiling.

**Theorem (`counts_and_orders`).** From any position a text leads to the counts that
`Position.Counts` says: one minimum for the line and one for the column, over the whole text. And
if a text has fewer newlines than the ceiling, then its places are ordered as their numbers are.

Both come from the counts. A text that holds a newline leads to a later line, since the lines are
not at the ceiling, and there the column plays no part. A text without one stays on its line and
does not lead back to an earlier column, and if the column is at the ceiling the offset decides
(`compare_advanceAll`).
-/

namespace SexprLex.Position

/-! ## Where a text leads -/

/-- The characters behind the last newline of a text. -/
def lastLine (text : List Char) : List Char := text.rtakeWhile (· != '\n')

/-- The text leads from `p` to `q`. -/
structure Counts (p : Position) (text : List Char) (q : Position) : Prop where
  line : q.line = min ceiling (p.line + text.count '\n')
  offset : q.offset = p.offset + text.length
  /-- Behind a newline columns are counted anew, from one. -/
  column : q.column = if '\n' ∈ text then min ceiling (1 + (lastLine text).length)
    else min ceiling (p.column + text.length)

theorem lastLine_concat (text : List Char) (c : Char) :
    lastLine (text ++ [c]) = if c = '\n' then [] else lastLine text ++ [c] := by
  rw [lastLine, List.rtakeWhile_concat]
  by_cases hc : c = '\n' <;> simp [hc, lastLine]

theorem column_advance (p : Position) (c : Char) :
    (p.advance c).column = if c = '\n' then 1 else min ceiling (p.column + 1) := by
  unfold advance
  split <;> rfl

theorem column_advanceAll (p : Position) (text : List Char) :
    (p.advanceAll text).column = if '\n' ∈ text then min ceiling (1 + (lastLine text).length)
      else min ceiling (p.column + text.length) := by
  induction text using List.reverseRecOn with
  | nil => simpa using (Nat.min_eq_right p.column_le).symm
  | append_singleton text c ih =>
    rw [advanceAll_append, advanceAll_cons, advanceAll_nil, column_advance, lastLine_concat, ih]
    by_cases hc : c = '\n'
    · simp [hc, ceiling]
    · -- Two minima with the ceiling are one.
      have hmem : '\n' ∈ text ++ [c] ↔ '\n' ∈ text := by simp [Ne.symm hc]
      simp only [hc, if_false, hmem, List.length_append, List.length_singleton]
      split <;> omega

theorem counts_advanceAll (p : Position) (text : List Char) :
    Counts p text (p.advanceAll text) :=
  ⟨line_advanceAll p text, offset_advanceAll p text, column_advanceAll p text⟩

/-! ## The order of positions -/

theorem compare_eq_lt {p q : Position} :
    p.compare q = .lt ↔ p.line < q.line ∨
      p.line = q.line ∧ (p.column < q.column ∨ p.column = q.column ∧ p.offset < q.offset) := by
  simp only [compare, Ordering.then_eq_lt, Nat.compare_eq_lt, Nat.compare_eq_eq]

theorem swap_compare (p q : Position) : (p.compare q).swap = q.compare p := by
  simp only [compare, Ordering.swap_then, Nat.compare_swap]

@[simp] theorem compare_self (p : Position) : p.compare p = .eq := by
  simp [compare]

/-- **No text leads back**, so long as the lines stay within the ceiling. -/
theorem compare_advanceAll {p : Position} {text : List Char} (hne : text ≠ [])
    (hlines : p.line + text.count '\n' ≤ ceiling) : p.compare (p.advanceAll text) = .lt := by
  obtain ⟨hline, hoffset, hcolumn⟩ := counts_advanceAll p text
  have hlength := List.length_pos_of_ne_nil hne
  have hle := p.column_le
  rw [compare_eq_lt, hline, Nat.min_eq_right hlines, hoffset, hcolumn]
  by_cases hmem : '\n' ∈ text
  · have hcount := List.count_pos_iff.2 hmem
    exact Or.inl (by omega)
  · rw [List.count_eq_zero_of_not_mem hmem, if_neg hmem]
    -- The offset decides if the column has been at the ceiling already.
    exact Or.inr ⟨rfl, by omega⟩

/-! ## Places in a text -/

/-- The place before the character of this number. -/
def before (text : List Char) (i : Nat) : Position := start.advanceAll (text.take i)

theorem compare_before_of_lt {text : List Char} (hlines : text.count '\n' < ceiling) {i j : Nat}
    (hij : i < j) (hj : j ≤ text.length) : (before text i).compare (before text j) = .lt := by
  obtain ⟨n, rfl⟩ := Nat.exists_eq_add_of_lt hij
  have hsplit : text.take (i + n + 1) = text.take i ++ (text.drop i).take (n + 1) := by
    rw [Nat.add_assoc, List.take_add]
  rw [before, before, hsplit, advanceAll_append]
  apply compare_advanceAll
  · intro hnil
    have hlength := congrArg List.length hnil
    rw [List.length_take, List.length_drop, List.length_nil] at hlength
    omega
  · -- The newlines up to here and from here on are some of those of the text.
    have hcount : ((text.take i).count '\n' + ((text.drop i).take (n + 1)).count '\n') ≤
        text.count '\n' := by
      rw [← List.count_append, ← hsplit]
      exact (List.take_sublist _ _).count_le _
    have hone : start.line = 1 := rfl
    rw [line_advanceAll, hone]
    omega

/-- **Positions follow the text and its order.** -/
theorem counts_and_orders :
    (∀ (p : Position) (text : List Char), Counts p text (p.advanceAll text)) ∧
      ∀ text : List Char, text.count '\n' < ceiling → ∀ i j, i ≤ text.length →
        j ≤ text.length → (before text i).compare (before text j) = Ord.compare i j := by
  refine ⟨counts_advanceAll, fun text hlines i j hi hj => ?_⟩
  rcases Nat.lt_trichotomy i j with hij | rfl | hij
  · rw [compare_before_of_lt hlines hij hj, Nat.compare_eq_lt.2 hij]
  · rw [compare_self, Nat.compare_eq_eq.2 rfl]
  · rw [← swap_compare, compare_before_of_lt hlines hij hi, Nat.compare_eq_gt.2 hij]
    rfl

/-- A line so long that the column is at its ceiling before its last characters. -/
theorem counts_and_orders_long_line :
    (List.replicate (ceiling + 2) 'a').count '\n' < ceiling ∧
      (before (List.replicate (ceiling + 2) 'a') ceiling).compare
        (before (List.replicate (ceiling + 2) 'a') (ceiling + 1)) = .lt := by
  have hlines : (List.replicate (ceiling + 2) 'a').count '\n' < ceiling := by
    rw [List.count_replicate]
    decide
  refine ⟨hlines, ?_⟩
  rw [counts_and_orders.2 _ hlines ceiling (ceiling + 1) (by simp) (by simp)]
  decide

end SexprLex.Position
