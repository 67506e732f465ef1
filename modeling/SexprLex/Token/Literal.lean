import SexprLex.Text.Position

/-!
# String literals

The **body** of a string literal, the part between its quotes, is a sequence of plain
characters and of backslash pairs. Four pairs are escapes and stand for one character each; any
other pair makes the literal invalid. The first such pair is the one that is reported.
-/

namespace SexprLex.Literal

/-- The character that a backslash followed by `c` stands for. -/
def unescape? (c : Char) : Option Char :=
  match c with
  | 'n' => some '\n'
  | 't' => some '\t'
  | '"' => some '"'
  | '\\' => some '\\'
  | _ => none

/-- A backslash pair that is no escape. -/
structure BadEscape where
  /-- The position of the backslash. -/
  position : Position
  /-- The character behind the backslash. -/
  escape : Char
  deriving DecidableEq

/-- A character that is pushed comes before what is appended. -/
theorem push_append_ofList (s : String) (c : Char) (w : List Char) :
    s.push c ++ String.ofList w = s ++ String.ofList (c :: w) := by
  rw [← String.toList_inj]
  simp

/-- The meaning of a body so far: the text it stands for, or its first bad escape. -/
abbrev Body := Except BadEscape String

namespace Body

/-- The body that holds nothing. -/
def empty : Body := .ok ""

/-- One more plain character. -/
def plain (body : Body) (c : Char) : Body :=
  match body with
  | .ok text => .ok (text.push c)
  | .error bad => .error bad

/-- One more pair, a backslash at the given position followed by `c`. -/
def pair (body : Body) (backslash : Position) (c : Char) : Body :=
  match body with
  | .ok text =>
    match unescape? c with
    | some d => .ok (text.push d)
    | none => .error ⟨backslash, c⟩
  | .error bad => .error bad

@[simp] theorem plain_error (bad : BadEscape) (c : Char) :
    plain (.error bad) c = .error bad := rfl

@[simp] theorem pair_error (bad : BadEscape) (backslash : Position) (c : Char) :
    pair (.error bad) backslash c = .error bad := rfl

end Body

end SexprLex.Literal
