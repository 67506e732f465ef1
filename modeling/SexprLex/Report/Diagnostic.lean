import SexprLex.Token.LexError

/-!
# Diagnostics

A **diagnostic** tells a person about a lexical error: where it is and what is wrong, then how
to mend it, and for a malformed number which character was unexpected.
-/

namespace SexprLex.Diagnostic

/-- The character that a note points out. The other causes with an offending character name it
in their message already. -/
def unexpected? : LexError.Cause → Option Char
  | .malformedNumber _ offending => offending
  | .readFailure _ | .unterminatedString | .invalidEscape _ => none

/-- The lines below the first one, each with the newline before it. -/
def details (cause : LexError.Cause) : String :=
  let help := match cause.help? with
    | some help => "\n  = help: " ++ help
    | none => ""
  let note := match unexpected? cause with
    | some c => "\n  = note: unexpected `" ++ Text.escapeBare c ++ "`"
    | none => ""
  help ++ note

/-- The diagnostic of an error in the file at `path`, without a newline behind it. -/
def render (path : String) (e : LexError) : String :=
  path ++ ":" ++ e.position.render ++ ": error: " ++ e.message ++ details e.cause

end SexprLex.Diagnostic
