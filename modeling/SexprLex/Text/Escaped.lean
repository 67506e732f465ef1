import SexprLex.Text.Unprintable

/-!
# Escaped text

Text is **escaped** so that it stays on one line and shows what it holds. NUL, tab, newline,
carriage return and the backslash have two-character escapes, unprintable characters are
written by number between braces, and everything else is itself.

The two quotation marks depend on what the text is put between, which is the whole of
`Marks`: a mark that would end the text is escaped, the other one is not.

* `escapeString` — a text between double quotes.
* `escapeChar` — a character between single quotes.
* `escapeBare` — a character with nothing around it, both marks escaped.
-/

namespace SexprLex.Text

/-- Which of the two quotation marks are escaped. -/
structure Marks where
  double : Bool
  single : Bool
  deriving DecidableEq, Repr

namespace Marks

/-- Between double quotes. -/
def insideDouble : Marks := ⟨true, false⟩

/-- Between single quotes. -/
def insideSingle : Marks := ⟨false, true⟩

/-- With nothing around. -/
def bare : Marks := ⟨true, true⟩

end Marks

/-- The number of a character in hexadecimal, between braces behind `\u`. -/
def numbered (c : Char) : List Char :=
  ['\\', 'u', '{'] ++ Nat.toDigits 16 c.toNat ++ ['}']

/-- The escaped form of one character. -/
def escape (marks : Marks) (c : Char) : List Char :=
  match c with
  | '\x00' => ['\\', '0']
  | '\t' => ['\\', 't']
  | '\n' => ['\\', 'n']
  | '\r' => ['\\', 'r']
  | '\\' => ['\\', '\\']
  | '"' => if marks.double then ['\\', '"'] else ['"']
  | '\'' => if marks.single then ['\\', '\''] else ['\'']
  | c => if isUnprintable c then numbered c else [c]

/-- The escaped form of a text, character by character. -/
def escapeAll (marks : Marks) (text : List Char) : List Char := text.flatMap (escape marks)

/-- A text between double quotes. -/
def escapeString (s : String) : String :=
  String.ofList ('"' :: escapeAll .insideDouble s.toList ++ ['"'])

/-- A character between single quotes. -/
def escapeChar (c : Char) : String :=
  String.ofList ('\'' :: escape .insideSingle c ++ ['\''])

/-- A character with nothing around it. -/
def escapeBare (c : Char) : String := String.ofList (escape .bare c)

end SexprLex.Text
