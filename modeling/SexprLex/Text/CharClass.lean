/-!
# Character classes

Every character is in exactly one **class**, and the class is all that decides how a token
begins. Some classes are **delimiters**: they end a symbol or a number that they follow. The
end of the input delimits as well.

A single quote is a class of its own but no delimiter, so `a'b` is one symbol.
-/

namespace SexprLex

/-- What a character can begin. -/
inductive CharClass
  | whitespace
  | leftParen
  | rightParen
  | quote
  | semicolon
  | doubleQuote
  | digit
  | sign
  | other
  deriving DecidableEq, Repr

namespace CharClass

/-- The class of a character. Only four characters are whitespace and only the ten ASCII digits
are digits. -/
def ofChar (c : Char) : CharClass :=
  match c with
  | ' ' | '\t' | '\n' | '\r' => .whitespace
  | '(' => .leftParen
  | ')' => .rightParen
  | '\'' => .quote
  | ';' => .semicolon
  | '"' => .doubleQuote
  | '+' | '-' => .sign
  | _ => if c.isDigit then .digit else .other

/-- The classes that end a symbol or a number. -/
def isDelimiter : CharClass → Bool
  | .whitespace | .leftParen | .rightParen | .semicolon | .doubleQuote => true
  | .quote | .digit | .sign | .other => false

/-- The name under which a class is reported. -/
def name : CharClass → String
  | .whitespace => "Whitespace"
  | .leftParen => "LeftParen"
  | .rightParen => "RightParen"
  | .quote => "Quote"
  | .semicolon => "Semicolon"
  | .doubleQuote => "DoubleQuote"
  | .digit => "Digit"
  | .sign => "Sign"
  | .other => "Other"

end CharClass

/-- Whether `c` ends a symbol or a number that it follows. -/
def isDelimiter (c : Char) : Bool := (CharClass.ofChar c).isDelimiter

/-- Whether a symbol or a number ends before what comes next: a delimiter or the end of the
input. -/
def delimits : Option Char → Bool
  | none => true
  | some c => isDelimiter c

@[simp] theorem delimits_none : delimits none = true := rfl

@[simp] theorem delimits_some (c : Char) : delimits (some c) = isDelimiter c := rfl

end SexprLex
