import SexprLex.Input.Fault
import SexprLex.Text.Escaped
import SexprLex.Text.Position

/-!
# Lexical errors

A **lexical error** is a cause and a position. There are four causes; all else that is reported
of an error follows from its cause: the message, the offending character, the help, and whether
the input can be read on behind it.
-/

namespace SexprLex

/-- Why a part of the input is no token. -/
inductive LexError.Cause
  /-- The input could not be read. -/
  | readFailure (fault : Fault)
  /-- A string literal without its closing quote. -/
  | unterminatedString
  /-- A backslash followed by `escape`, which is no escape. -/
  | invalidEscape (escape : Char)
  /-- A text that begins as a number and is none. The offending character is the first one that
  no number goes on with; there is none if the number has merely broken off. -/
  | malformedNumber (lexeme : String) (offending : Option Char)
  deriving DecidableEq

/-- A lexical error: its cause and where it is. -/
structure LexError where
  cause : LexError.Cause
  position : Position
  deriving DecidableEq

namespace LexError

namespace Cause

/-- The name of the kind of cause. -/
def name : Cause → String
  | .readFailure _ => "IoFailure"
  | .unterminatedString => "UnterminatedString"
  | .invalidEscape _ => "InvalidEscape"
  | .malformedNumber _ _ => "MalformedNumber"

/-- What is wrong, in one line unless the text it quotes has several. The escape is shown
escaped, the malformed number as it is. -/
def message : Cause → String
  | .readFailure fault => "failed to read source: " ++ fault.text
  | .unterminatedString => "unterminated string literal"
  | .invalidEscape escape => "invalid escape sequence `\\" ++ Text.escapeBare escape ++ "`"
  | .malformedNumber lexeme _ => "malformed number `" ++ lexeme ++ "`"

@[simp] theorem message_readFailure (fault : Fault) :
    (readFailure fault).message = "failed to read source: " ++ fault.text := rfl

@[simp] theorem message_unterminatedString :
    unterminatedString.message = "unterminated string literal" := rfl

@[simp] theorem message_invalidEscape (escape : Char) :
    (invalidEscape escape).message =
      "invalid escape sequence `\\" ++ Text.escapeBare escape ++ "`" := rfl

@[simp] theorem message_malformedNumber (lexeme : String) (offending : Option Char) :
    (malformedNumber lexeme offending).message = "malformed number `" ++ lexeme ++ "`" := rfl

/-- The character that is to blame. -/
def offending? : Cause → Option Char
  | .readFailure _ => none
  | .unterminatedString => some '"'
  | .invalidEscape escape => some escape
  | .malformedNumber _ offending => offending

/-- How to mend it. -/
def help? : Cause → Option String
  | .readFailure _ => none
  | .unterminatedString => some "add a closing `\"`"
  | .invalidEscape _ => some "valid escapes are: \\n, \\t, \\\", \\\\"
  | .malformedNumber _ _ => some "numbers look like `42`, `-7`, `2.5` or `1.5e-3`"

/-- The fault, if the input could not be read. -/
def fault? : Cause → Option Fault
  | .readFailure fault => some fault
  | .unterminatedString | .invalidEscape _ | .malformedNumber _ _ => none

/-- Whether the input cannot be read on behind the error. -/
def isFatal (cause : Cause) : Bool := cause.fault?.isSome

end Cause

/-- What is wrong. -/
def message (e : LexError) : String := e.cause.message

/-- The written form: where, and what. -/
def render (e : LexError) : String := e.position.render ++ ": " ++ e.message

end LexError

end SexprLex
