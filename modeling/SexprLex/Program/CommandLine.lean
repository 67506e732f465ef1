import SexprLex.Program.LoadError
import SexprLex.Report.Dump

/-!
# The command line

The program has four commands: `lex` dumps the tokens of a file, `check` reports its lexical
errors, `help` and `version` tell about the program. The arguments determine the command, or a
**misuse** if they make no sense; the command and the file it names determine the **response**.

* `Command.ofArgs` — the command of the arguments.
* `respond` — the response to the arguments.
-/

namespace SexprLex

/-- What the program is asked to do. -/
inductive Command
  | help
  | version
  | lex (path : String) (options : Options)
  | check (path : String)
  deriving DecidableEq

/-- Why the arguments make no sense. -/
inductive Misuse
  | unknownCommand (name : String)
  | unexpectedArgument (argument : String)
  | lexWithoutPath
  | checkNeedsOnePath
  deriving DecidableEq

namespace Command

/-- Reads the arguments behind `lex`. There may be any number of flags and must be one path,
which does not begin with a hyphen. -/
def lexOfArgs (options : Options) (path? : Option String) :
    List String → Except Misuse Command
  | [] =>
    match path? with
    | some path => .ok (.lex path options)
    | none => .error .lexWithoutPath
  | argument :: rest =>
    if argument = "--comments" ∨ argument = "-c" then lexOfArgs ⟨true⟩ path? rest
    else if argument.toList.head? ≠ some '-' ∧ path? = none then
      lexOfArgs options (some argument) rest
    else .error (.unexpectedArgument argument)

/-- Reads the arguments. Without any the program tells how it is used. -/
def ofArgs : List String → Except Misuse Command
  | [] => .ok .help
  | "lex" :: rest => lexOfArgs .default none rest
  | "check" :: rest =>
    match rest with
    | [path] => .ok (.check path)
    | _ => .error .checkNeedsOnePath
  | "help" :: _ | "--help" :: _ | "-h" :: _ => .ok .help
  | "version" :: _ | "--version" :: _ | "-V" :: _ => .ok .version
  | name :: _ => .error (.unknownCommand name)

end Command

/-- How the program answers: an exit status and the bytes of its two output streams. -/
structure Response where
  status : Nat
  out : ByteArray
  err : ByteArray

namespace Response

/-- The response that consists of these texts. -/
def ofTexts (status : Nat) (out err : String) : Response := ⟨status, out.toUTF8, err.toUTF8⟩

/-- How the program is used. -/
def usage : String :=
  "Lisper lexer\n" ++
  "\n" ++
  "Usage: lisper <command> [options]\n" ++
  "\n" ++
  "Commands:\n" ++
  "  lex <file.lisper>     Print the token stream, one token per line\n" ++
  "      --comments        Include comment tokens\n" ++
  "  check <file.lisper>   Report lexical errors only\n" ++
  "  help                  Show this message\n" ++
  "  version               Show version information\n" ++
  "\n" ++
  "Set RUST_LOG (e.g. RUST_LOG=lisper_lexer=trace) to trace the lexer.\n"

/-- The name of the program and its version. -/
def version : String := "lisper 0.1.0\n"

/-- The response to arguments that make no sense. -/
def ofMisuse : Misuse → Response
  | .unknownCommand name => ofTexts 1 usage ("Unknown command: " ++ name ++ "\n\n")
  | .unexpectedArgument argument =>
    ofTexts 1 "" ("error: unexpected argument '" ++ argument ++ "'\n")
  | .lexWithoutPath => ofTexts 1 "" "Usage: lisper lex <file.lisper> [--comments]\n"
  | .checkNeedsOnePath => ofTexts 1 "" "Usage: lisper check <file.lisper>\n"

/-- The response of a report: what it has written and, if a write failed, a last line about
that. -/
def ofReport (report : Report) : Response :=
  match report.result with
  | .ok summary =>
    ⟨summary.exitStatus, report.sinks.out.content, report.sinks.diagnostics.content⟩
  | .error fault =>
    let line := "error: failed to write output: " ++ fault.text ++ "\n"
    ⟨1, report.sinks.out.content, report.sinks.diagnostics.content ++ line.toUTF8⟩

/-- The response to a command that reads a source. -/
def ofSource (source : Except LoadError (List UInt8)) (report : Reader → Report) : Response :=
  match source with
  | .ok bytes => ofReport (report (.ofBytes bytes))
  | .error e => ofTexts 1 "" ("error: " ++ e.message ++ "\n")

end Response

/-- Carries out a command; `opened` is what opening its path led to. -/
def Command.run (command : Command) (opened : String → Except Fault Node) : Response :=
  match command with
  | .help => .ofTexts 0 Response.usage ""
  | .version => .ofTexts 0 Response.version ""
  | .lex path options =>
    .ofSource (loadSource path (opened path)) fun reader => dump path options reader .unlimited
  | .check path =>
    .ofSource (loadSource path (opened path)) fun reader => SexprLex.check path reader .unlimited

/-- Answers the arguments; `opened` tells what opening a path leads to. -/
def respond (args : List String) (opened : String → Except Fault Node) : Response :=
  match Command.ofArgs args with
  | .ok command => command.run opened
  | .error misuse => .ofMisuse misuse

end SexprLex
