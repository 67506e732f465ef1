import SexprLex.Token.LexError

/-!
# Tokens

A **token** is a kind, a lexeme and the positions where it begins and stops. The lexeme is the
text that the token covers, except for a string literal, where it is the text that the literal
stands for.

The stream of tokens ends with a **terminal** token: the end of the input or a failure to read it.
-/

namespace SexprLex

/-- The kinds of token. -/
inductive TokenKind
  | leftParen
  | rightParen
  | quote
  | symbol
  | integer
  | float
  | string
  | comment
  | endOfInput
  | error (error : LexError)
  deriving DecidableEq

namespace TokenKind

/-- The name under which a kind is reported. -/
def name : TokenKind → String
  | .leftParen => "LeftParen"
  | .rightParen => "RightParen"
  | .quote => "Quote"
  | .symbol => "Symbol"
  | .integer => "Integer"
  | .float => "Float"
  | .string => "String"
  | .comment => "Comment"
  | .endOfInput => "EndOfInput"
  | .error _ => "Error"

end TokenKind

/-- A token. -/
structure Token where
  kind : TokenKind
  lexeme : String
  start : Position
  stop : Position
  deriving DecidableEq

namespace Token

/-- The end of the input, which covers nothing. -/
def endOfInput (position : Position) : Token := ⟨.endOfInput, "", position, position⟩

/-- The error of an error token. -/
def error? (t : Token) : Option LexError :=
  match t.kind with
  | .error e => some e
  | _ => none

/-- Whether the token is an error. -/
def isError (t : Token) : Bool := t.error?.isSome

/-- Whether the token is the end of the input. -/
def isEndOfInput (t : Token) : Bool := t.kind == .endOfInput

/-- Whether nothing comes behind the token: it is the end of the input, or a failure to read
it. -/
def isTerminal (t : Token) : Bool :=
  match t.kind with
  | .endOfInput => true
  | .error e => e.cause.isFatal
  | _ => false

/-- The written form: where the token begins, the name of its kind, and the lexeme between
double quotes. An error has its message in place of the lexeme, the end of the input has
neither. -/
def render (t : Token) : String :=
  let heading := t.start.render ++ "  " ++ t.kind.name
  match t.kind with
  | .endOfInput => heading
  | .error e => heading ++ "  " ++ e.message
  | _ => heading ++ "  " ++ Text.escapeString t.lexeme

end Token

end SexprLex
