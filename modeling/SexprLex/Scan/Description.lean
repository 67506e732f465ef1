import SexprLex.Scan.TokenStream

/-!
# Descriptions

What a cursor, a lexer or a token stream looks like from inside, on one line: the name of the
thing and its fields between braces. Texts stand between double quotes and characters between
single ones, both escaped.
-/

namespace SexprLex

/-- The name of a thing and its fields, each with its name. -/
def describeFields (name : String) (fields : List (String × String)) : String :=
  let described := fields.map fun field => field.1 ++ ": " ++ field.2
  name ++ " \x7b " ++ ", ".intercalate described ++ " \x7d"

/-- A value that may be missing. -/
def describeOption {α : Type} (describe : α → String) : Option α → String
  | none => "None"
  | some a => "Some(" ++ describe a ++ ")"

/-- The two truth values. -/
def describeBool : Bool → String
  | true => "true"
  | false => "false"

/-- The three counts of a position. -/
def Position.describe (p : Position) : String :=
  describeFields "Position"
    [("line", toString p.line), ("column", toString p.column), ("offset", toString p.offset)]

/-- What is known of the next character: nothing, that there is none, or which it is. -/
def Lookahead.describe : Lookahead → String
  | .unread => describeOption (describeOption Text.escapeChar) none
  | .ended => describeOption (describeOption Text.escapeChar) (some none)
  | .char c => describeOption (describeOption Text.escapeChar) (some (some c))

/-- What a cursor knows and where it stands. The reader is left out, which the two dots say. -/
def Cursor.describe (s : Cursor) : String :=
  "CharSource \x7b peeked: " ++ s.ahead.describe ++ ", pos: " ++ s.position.describe ++ ", .. \x7d"

/-- Whether comments are tokens. -/
def Options.describe (options : Options) : String :=
  describeFields "LexerConfig" [("emit_comments", describeBool options.emitComments)]

/-- The cursor and the options of a lexer. -/
def Lexer.describe (l : Lexer) : String :=
  describeFields "Lexer" [("source", l.cursor.describe), ("config", l.options.describe)]

/-- The kind of a cause, with the kind of the fault if there is one. -/
def LexError.Cause.describe (cause : LexError.Cause) : String :=
  match cause.fault? with
  | some fault => describeFields cause.name [("kind", fault.kind.name)]
  | none => cause.name

/-- A lexical error, with all that follows from its cause. -/
def LexError.describe (e : LexError) : String :=
  describeFields "LexError"
    [("kind", e.cause.describe), ("message", Text.escapeString e.message),
      ("position", e.position.describe),
      ("offending_char", describeOption Text.escapeChar e.cause.offending?)]

/-- The kind of a token, with the error of an error token. A string literal goes by a longer name
here than in a dump. -/
def TokenKind.describe (kind : TokenKind) : String :=
  match kind with
  | .error e => "Error(" ++ e.describe ++ ")"
  | .string => "StringLiteral"
  | kind => kind.name

/-- A token with all its fields. -/
def Token.describe (t : Token) : String :=
  describeFields "Token"
    [("kind", t.kind.describe), ("lexeme", Text.escapeString t.lexeme),
      ("start", t.start.describe), ("end", t.stop.describe)]

/-- The end of the input is described by where it is, a failure by its token. -/
def TokenStream.Phase.describe (phase : TokenStream.Phase) : String :=
  match phase with
  | .active => "Active"
  | .ended terminal _ =>
    if terminal.isEndOfInput then "Done(" ++ terminal.start.describe ++ ")"
    else "Failed(" ++ terminal.describe ++ ")"

/-- The lexer of a stream and how far the stream has come. -/
def TokenStream.describe (s : TokenStream) : String :=
  describeFields "TokenStream"
    [("lexer", s.lexer.describe), ("phase", s.phase.describe),
      ("fused", describeBool s.isExhausted)]

end SexprLex
