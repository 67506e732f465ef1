import SexprLex.Text.CharClass
import SexprLex.Token.Basic
import SexprLex.Token.Literal
import SexprLex.Token.Number

/-!
# Scanning modes

A scan reads one token, character by character. Its **mode** is what the characters so far have
begun: nothing yet, a sign that may still become a number, a symbol, a number, a string, a pair
inside a string, or a comment.

Faced with the next character, a mode makes one of four **moves**: skip it, take it, close the
token with it, or stop the token before it. A token that ends has an **outcome**, which together
with its position and the characters it covers determines the token.

* `Mode.next` — the move of a mode on a character.
* `Mode.atEnd` — the outcome of a mode at the end of the input.
* `Outcome.toToken` — the token of an outcome.
-/

namespace SexprLex.Scan

open Literal (Body)

/-- What the characters of a scan have begun. -/
inductive Mode
  /-- Nothing: only whitespace so far. -/
  | gap
  /-- A sign, which begins a number if a digit follows and a symbol otherwise. -/
  | sign (sign : Char)
  /-- A symbol. -/
  | symbol
  /-- A number, as far as it has come. -/
  | number (progress : Number.Progress)
  /-- A string, with the meaning of its body so far. -/
  | string (body : Body)
  /-- A string, just behind the backslash of a pair. -/
  | pair (body : Body) (backslash : Position)
  /-- A comment. -/
  | comment

/-- What a scan has found when its token ends. -/
inductive Outcome
  | leftParen
  | rightParen
  | quote
  | symbol
  | number (result : Except (Option Char) Number.Kind)
  | string (body : Body)
  | unterminatedString
  | comment
  | endOfInput

/-- How a scan goes on with the character before it. -/
inductive Move
  /-- The character is whitespace before the token. -/
  | skip
  /-- The character belongs to the token, and the token goes on. -/
  | take (mode : Mode)
  /-- The character belongs to the token and is its last. -/
  | close (outcome : Outcome)
  /-- The token has ended, and the character is behind it. -/
  | stop (outcome : Outcome)

namespace Mode

/-- The move on the first character of a token. -/
def first (c : Char) : Move :=
  match CharClass.ofChar c with
  | .whitespace => .skip
  | .leftParen => .close .leftParen
  | .rightParen => .close .rightParen
  | .quote => .close .quote
  | .semicolon => .take .comment
  | .doubleQuote => .take (.string .empty)
  | .digit => .take (.number (Number.Progress.empty.feed c))
  | .sign => .take (.sign c)
  | .other => .take .symbol

/-- The move on the character `c` at `position`. A symbol or a number ends before a delimiter, a
string with its closing quote, a comment before a newline. -/
def next (mode : Mode) (c : Char) (position : Position) : Move :=
  match mode with
  | .gap => first c
  | .sign s =>
    if isDelimiter c then .stop .symbol
    else if c.isDigit then .take (.number ((Number.Progress.empty.feed s).feed c))
    else .take .symbol
  | .symbol => if isDelimiter c then .stop .symbol else .take .symbol
  | .number progress =>
    if isDelimiter c then .stop (.number progress.finish) else .take (.number (progress.feed c))
  | .string body =>
    if c = '"' then .close (.string body)
    else if c = '\\' then .take (.pair body position)
    else .take (.string (body.plain c))
  | .pair body backslash => .take (.string (body.pair backslash c))
  | .comment => if c = '\n' then .stop .comment else .take .comment

/-- The outcome at the end of the input. -/
def atEnd : Mode → Outcome
  | .gap => .endOfInput
  | .sign _ | .symbol => .symbol
  | .number progress => .number progress.finish
  | .string _ | .pair _ _ => .unterminatedString
  | .comment => .comment

end Mode

namespace Outcome

/-- The kind of the token that begins at `start` and covers the characters `raw`. -/
def kind (outcome : Outcome) (start : Position) (raw : String) : TokenKind :=
  match outcome with
  | .leftParen => .leftParen
  | .rightParen => .rightParen
  | .quote => .quote
  | .symbol => .symbol
  | .number (.ok .integer) => .integer
  | .number (.ok .float) => .float
  | .number (.error offending) => .error ⟨.malformedNumber raw offending, start⟩
  | .string (.ok _) => .string
  | .string (.error bad) => .error ⟨.invalidEscape bad.escape, bad.position⟩
  | .unterminatedString => .error ⟨.unterminatedString, start⟩
  | .comment => .comment
  | .endOfInput => .endOfInput

/-- The lexeme of the token that covers the characters `raw`. -/
def lexeme (outcome : Outcome) (raw : String) : String :=
  match outcome with
  | .string (.ok text) => text
  | _ => raw

/-- The token that begins at `start`, stops at `stop` and covers the characters `raw`. -/
def toToken (outcome : Outcome) (start stop : Position) (raw : String) : Token :=
  ⟨outcome.kind start raw, outcome.lexeme raw, start, stop⟩

/-- Whether what was found is a comment. -/
def isComment : Outcome → Bool
  | .comment => true
  | _ => false

end Outcome

/-! ## Where tokens begin and end -/

/-- Before its first character a token cannot stop. -/
theorem Mode.next_gap_ne_stop (c : Char) (position : Position) (outcome : Outcome) :
    Mode.gap.next c position ≠ .stop outcome := by
  intro h
  simp only [Mode.next, Mode.first] at h
  split at h <;> cases h

/-- A character once taken leads out of the gap. -/
theorem Mode.next_ne_take_gap (mode : Mode) (c : Char) (position : Position) :
    mode.next c position ≠ .take .gap := by
  intro h
  cases mode with
  | gap =>
    simp only [Mode.next, Mode.first] at h
    split at h <;> cases h
  | sign s =>
    simp only [Mode.next] at h
    split at h
    · cases h
    · split at h <;> cases h
  | symbol =>
    simp only [Mode.next] at h
    split at h <;> cases h
  | number progress =>
    simp only [Mode.next] at h
    split at h <;> cases h
  | string body =>
    simp only [Mode.next] at h
    split at h
    · cases h
    · split at h <;> cases h
  | pair body backslash => cases h
  | comment =>
    simp only [Mode.next] at h
    split at h <;> cases h

end SexprLex.Scan
