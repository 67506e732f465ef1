import SexprLex.Report.Diagnostic
import SexprLex.Report.Sink
import SexprLex.Scan.TokenStream

/-!
# Reports on a token stream

A **report** takes the tokens of a stream one by one and writes about each of them, before it
asks for the next. It counts tokens and errors, and ends with the stream or with the first write
that fails; then nothing more is read.

* `dump` — every token on a line of the output, and a diagnostic for every error.
* `check` — diagnostics only; comments are no tokens.
-/

namespace SexprLex

/-- How many tokens there were, and how many of them were errors. -/
structure Summary where
  tokens : Nat
  errors : Nat
  deriving DecidableEq, Repr

namespace Summary

/-- No tokens. -/
def empty : Summary := ⟨0, 0⟩

/-- One more token. -/
def add (s : Summary) (t : Token) : Summary :=
  ⟨s.tokens + 1, if t.isError then s.errors + 1 else s.errors⟩

/-- The exit status: zero if there were no errors. -/
def exitStatus (s : Summary) : Nat := if s.errors = 0 then 0 else 1

end Summary

/-- Where a report goes: the output proper and the diagnostics. -/
structure Sinks where
  out : Sink
  diagnostics : Sink

namespace Sinks

/-- Two empty sinks that take everything. -/
def unlimited : Sinks := ⟨.unlimited, .unlimited⟩

/-- Writes a line to the output. -/
def writeOut (sinks : Sinks) (line : String) : Option Fault × Sinks :=
  let (fault?, out) := sinks.out.write (line ++ "\n")
  (fault?, { sinks with out })

/-- Writes a line to the diagnostics. -/
def writeDiagnostic (sinks : Sinks) (line : String) : Option Fault × Sinks :=
  let (fault?, diagnostics) := sinks.diagnostics.write (line ++ "\n")
  (fault?, { sinks with diagnostics })

end Sinks

/-- What has become of a report. -/
structure Report where
  /-- The counts, or the fault of the write that failed. -/
  result : Except Fault Summary
  /-- What has been written. -/
  sinks : Sinks
  /-- What is left of the stream. -/
  stream : TokenStream

namespace Report

/-- Writes the diagnostic of an error token; about other tokens it has nothing to say. -/
def diagnose (path : String) (t : Token) (sinks : Sinks) : Option Fault × Sinks :=
  match t.error? with
  | some e => sinks.writeDiagnostic (Diagnostic.render path e)
  | none => (none, sinks)

/-- Writes the line of a token, and then its diagnostic if it is an error. -/
def dumpToken (path : String) (t : Token) (sinks : Sinks) : Option Fault × Sinks :=
  match sinks.writeOut t.render with
  | (none, sinks) => diagnose path t sinks
  | (some fault, sinks) => (some fault, sinks)

/-- Takes the tokens of a stream one by one and lets `write` report on each. -/
def run (write : Token → Sinks → Option Fault × Sinks) (summary : Summary) (sinks : Sinks)
    (stream : TokenStream) : Report :=
  match _h : stream.next? with
  | (none, stream') => ⟨.ok summary, sinks, stream'⟩
  | (some t, stream') =>
    match write t sinks with
    | (some fault, sinks') => ⟨.error fault, sinks', stream'⟩
    | (none, sinks') => run write (summary.add t) sinks' stream'
termination_by stream.size
decreasing_by exact TokenStream.size_lt_of_next? ‹_›

end Report

/-- Dumps the tokens of a reader's input; `path` is what the diagnostics call it. -/
def dump (path : String) (options : Options) (reader : Reader) (sinks : Sinks) : Report :=
  Report.run (Report.dumpToken path) .empty sinks (.ofReader options reader)

/-- Checks a reader's input; `path` is what the diagnostics call it. -/
def check (path : String) (reader : Reader) (diagnostics : Sink) : Report :=
  Report.run (Report.diagnose path) .empty ⟨.unlimited, diagnostics⟩
    (.ofReader .default reader)

end SexprLex
