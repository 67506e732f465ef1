/-!
# Numbers

A **number** is an optional sign, at least one digit, optionally a point with at least one digit
behind it, and optionally an exponent: `e` or `E`, an optional sign and at least one digit. It
is a float if it has a point or an exponent, else an integer.

Numbers are recognised character by character. `Progress` is what the characters so far amount
to; the first character that no number goes on with **breaks** it, and it stays broken.

* `Progress.feed` — one more character.
* `Progress.finish` — what the characters amount to if no more come.
* `classify` — both, for a whole text.
-/

namespace SexprLex.Number

/-- The two kinds of number. -/
inductive Kind
  | integer
  | float
  deriving DecidableEq, Repr

/-- How far the characters so far have come. -/
inductive Progress
  /-- No character yet. -/
  | empty
  /-- A sign. -/
  | sign
  /-- Digits, perhaps behind a sign. -/
  | whole
  /-- A point, and no digit behind it yet. -/
  | point
  /-- Digits behind the point. -/
  | fraction
  /-- The letter that begins an exponent. -/
  | exponent
  /-- The sign of the exponent. -/
  | exponentSign
  /-- Digits of the exponent. -/
  | exponentDigits
  /-- No number, because of the character `offending`. -/
  | broken (offending : Char)
  deriving DecidableEq, Repr

/-- Whether `c` is a sign. -/
def isSign (c : Char) : Bool := c == '+' || c == '-'

/-- Whether `c` begins an exponent. -/
def isExponentMark (c : Char) : Bool := c == 'e' || c == 'E'

namespace Progress

/-- One more character. -/
def feed (p : Progress) (c : Char) : Progress :=
  match p with
  | .empty => if isSign c then .sign else if c.isDigit then .whole else .broken c
  | .sign => if c.isDigit then .whole else .broken c
  | .whole =>
    if c.isDigit then .whole
    else if c = '.' then .point
    else if isExponentMark c then .exponent
    else .broken c
  | .point => if c.isDigit then .fraction else .broken c
  | .fraction =>
    if c.isDigit then .fraction else if isExponentMark c then .exponent else .broken c
  | .exponent =>
    if isSign c then .exponentSign else if c.isDigit then .exponentDigits else .broken c
  | .exponentSign | .exponentDigits => if c.isDigit then .exponentDigits else .broken c
  | .broken offending => .broken offending

/-- Many more characters. -/
def feedAll (p : Progress) (text : List Char) : Progress := text.foldl feed p

/-- What the characters amount to if no more come: a number of some kind, or no number, with
the offending character if there is one. Without one the number has merely broken off. -/
def finish : Progress → Except (Option Char) Kind
  | .whole => .ok .integer
  | .fraction | .exponentDigits => .ok .float
  | .broken offending => .error (some offending)
  | .empty | .sign | .point | .exponent | .exponentSign => .error none

@[simp] theorem feed_broken (offending c : Char) :
    (broken offending).feed c = .broken offending := rfl

@[simp] theorem feedAll_nil (p : Progress) : p.feedAll [] = p := rfl

@[simp] theorem feedAll_cons (p : Progress) (c : Char) (text : List Char) :
    p.feedAll (c :: text) = (p.feed c).feedAll text := rfl

theorem feedAll_append (p : Progress) (a b : List Char) :
    p.feedAll (a ++ b) = (p.feedAll a).feedAll b := List.foldl_append ..

end Progress

/-- What a whole text amounts to. -/
def classify (text : List Char) : Except (Option Char) Kind :=
  (Progress.empty.feedAll text).finish

end SexprLex.Number
