import SexprLex.Proofs.Report.Agreement
import SexprLex.Proofs.Report.Unambiguous

/-!
# Control characters in reports

A source may hold characters that act on a terminal. A report shows them escaped wherever it quotes
the source, but for one place: the message of a malformed number has the number as it is.

**Theorem (`report_controls`).** Let the path hold no control character. Then a dump and a check of
any bytes write lines whose control characters are those of the malformed numbers, as
`Report.QuotesNumbers` says: the line and the diagnostic of a malformed number have the control
characters of the number, in order, and all others have none. So the report is free of control
characters, but for the newlines at the ends of its lines, exactly if every malformed number is.

**Theorem (`dump_bell`).** A digit and a bell are a malformed number, and the bell gets
into the output and the diagnostics.

The control characters of a text that is put together are those of its parts, one after another
(`Text.controls_append`), so each line is taken apart into what the program writes, what it has
escaped, and what it quotes as it is.
-/

namespace SexprLex

/-! ## Control characters of a text -/

namespace Text

/-- The control characters of a text, in order. -/
def controls (text : String) : List Char := text.toList.filter fun c => decide (IsControl c)

/-- No control character in it. -/
def Clean (text : String) : Prop := controls text = []

instance (text : String) : Decidable (Clean text) :=
  inferInstanceAs (Decidable (controls text = []))

@[simp] theorem controls_append (a b : String) : controls (a ++ b) = controls a ++ controls b := by
  rw [controls, String.toList_append, List.filter_append]
  rfl

@[simp] theorem controls_empty : controls "" = [] := rfl

theorem controls_eq_nil {text : String} :
    controls text = [] ↔ ∀ c ∈ text.toList, ¬ IsControl c := by
  simp [controls, List.filter_eq_nil_iff]

@[simp] theorem controls_escapeString (s : String) : controls (escapeString s) = [] := by
  have hbody := not_isControl_escapeAll .insideDouble s.toList
  have hquote : ¬ IsControl '"' := by decide
  rw [controls_eq_nil, escapeString, String.toList_ofList, List.forall_mem_append,
    List.forall_mem_cons, List.forall_mem_singleton]
  exact ⟨⟨hquote, hbody⟩, hquote⟩

@[simp] theorem controls_escapeBare (c : Char) : controls (escapeBare c) = [] := by
  rw [controls_eq_nil, escapeBare, String.toList_ofList]
  exact not_isControl_escape .bare c

@[simp] theorem controls_repr (n : Nat) : controls n.repr = [] := by
  rw [controls_eq_nil, Nat.toList_repr]
  exact forall_mem_toDigits (by decide) (by decide) n

end Text

open Text

@[simp] theorem Position.controls_render (p : Position) : controls p.render = [] := by
  have hcolon : controls ":" = [] := by decide
  simp [render, hcolon]

@[simp] theorem TokenKind.controls_name (kind : TokenKind) : controls kind.name = [] := by
  rw [controls_eq_nil]
  cases kind <;> simp [name, IsControl]

/-! ## What messages quote as it is -/

namespace LexError.Cause

/-- The part of the source that a message has as it is. -/
def quoted : Cause → String
  | .malformedNumber lexeme _ => lexeme
  | .readFailure _ | .unterminatedString | .invalidEscape _ => ""

/-- The fault, if there is one, tells of itself without control characters. -/
def FaultClean (cause : Cause) : Prop := ∀ f, cause.fault? = some f → Clean f.text

/-- **A message has the control characters of what it quotes.** -/
theorem controls_message {cause : Cause} (h : cause.FaultClean) :
    controls cause.message = controls cause.quoted := by
  cases cause with
  | readFailure fault =>
    have hfault : controls fault.text = [] := h fault rfl
    have hwords : controls "failed to read source: " = [] := by decide
    simp [quoted, hfault, hwords]
  | unterminatedString => decide
  | invalidEscape escape =>
    have hwords : controls "invalid escape sequence `\\" = [] := by decide
    have hend : controls "`" = [] := by decide
    simp [quoted, hwords, hend]
  | malformedNumber lexeme offending =>
    have hwords : controls "malformed number `" = [] := by decide
    have hend : controls "`" = [] := by decide
    simp [quoted, hwords, hend]

end LexError.Cause

/-! ## Lines -/

/-- The part of the source that the line of a token has as it is. -/
def Token.quoted (t : Token) : String :=
  match t.error? with
  | some e => e.cause.quoted
  | none => ""

/-- The fault of a token that tells of a failure is told without control characters. -/
def Token.FaultClean (t : Token) : Prop := ∀ e, t.error? = some e → e.cause.FaultClean

theorem Token.controls_render {t : Token} (h : t.FaultClean) :
    controls t.render = controls t.quoted := by
  have hblanks : controls "  " = [] := by decide
  have htail : controls t.tail = controls t.quoted := by
    cases hkind : t.kind with
    | error e =>
      have he : t.error? = some e := by rw [error?, hkind]
      simp only [tail, hkind, quoted, he, controls_append, hblanks, List.nil_append]
      exact LexError.Cause.controls_message (h e he)
    | _ => simp [tail, hkind, quoted, error?, hblanks]
  simp [render_eq, hblanks, htail]

namespace Diagnostic

/-- How to mend an error and what was unexpected, line by line. -/
def detailLines (cause : LexError.Cause) : List String :=
  cause.help?.toList.map ("  = help: " ++ ·) ++
    (unexpected? cause).toList.map ("  = note: unexpected `" ++ escapeBare · ++ "`")

/-- The lines of a diagnostic. -/
def lines (path : String) (e : LexError) : List String :=
  (path ++ ":" ++ e.position.render ++ ": error: " ++ e.message) :: detailLines e.cause

theorem unlines_lines (path : String) (e : LexError) :
    unlines (lines path e) = render path e ++ "\n" := by
  rw [lines, detailLines, render, details, ← String.toList_inj]
  cases e.cause.help? <;> cases unexpected? e.cause <;> simp [unlines, String.join_cons]

theorem unlines_flatMap_lines (path : String) (es : List LexError) :
    unlines (es.flatMap (lines path)) = unlines (es.map (render path)) := by
  induction es with
  | nil => rfl
  | cons e es ih =>
    rw [List.flatMap_cons, unlines_append, unlines_lines, ih]
    simp [unlines, String.join_cons]

theorem controls_help {cause : LexError.Cause} {help : String} (h : cause.help? = some help) :
    controls help = [] := by
  cases cause <;> cases h <;> decide

theorem controls_detailLines (cause : LexError.Cause) :
    ∀ line ∈ detailLines cause, controls line = [] := by
  have hhelp : controls "  = help: " = [] := by decide
  have hnote : controls "  = note: unexpected `" = [] := by decide
  have hend : controls "`" = [] := by decide
  rw [detailLines, List.forall_mem_append, List.forall_mem_map, List.forall_mem_map]
  constructor
  · intro help hmem
    rw [controls_append, hhelp, controls_help (Option.mem_toList.1 hmem), List.append_nil]
  · intro c _
    rw [controls_append, controls_append, hnote, controls_escapeBare, hend, List.append_nil,
      List.append_nil]

/-- **A diagnostic has the control characters of what it quotes.** -/
theorem controls_lines {path : String} (hpath : Clean path) {e : LexError}
    (h : e.cause.FaultClean) : (lines path e).flatMap controls = controls e.cause.quoted := by
  have hpath : controls path = [] := hpath
  have hcolon : controls ":" = [] := by decide
  have herror : controls ": error: " = [] := by decide
  have hmessage : controls e.message = controls e.cause.quoted :=
    LexError.Cause.controls_message h
  have hdetails := List.flatMap_eq_nil_iff.2 (controls_detailLines e.cause)
  rw [lines, List.flatMap_cons, hdetails]
  simp [hpath, hcolon, herror, hmessage]

end Diagnostic

/-! ## Faults among the tokens -/

namespace Scan

theorem Outcome.fault?_of_error? {o : Outcome} {start stop : Position} {raw : String}
    {e : LexError} (h : (o.toToken start stop raw).error? = some e) : e.cause.fault? = none := by
  unfold Token.error? at h
  split at h
  · next hkind =>
    cases h
    simp only [toToken] at hkind
    unfold kind at hkind
    split at hkind <;> cases hkind <;> rfl
  · cases h

/-- A fault that a token tells of has been met. -/
theorem Lexes.fault_mem {emit : Bool} {p : Position} {items : List Item} {ts : List Token}
    (h : Lexes emit p items ts) {t : Token} (ht : t ∈ ts) {e : LexError} (he : t.error? = some e)
    {f : Fault} (hf : e.cause.fault? = some f) : .error f ∈ items := by
  induction h with
  | token hs _ hu _ ih =>
    rw [hs.items_eq]
    rcases List.mem_cons.1 ht with rfl | ht
    · cases hu
      rw [Outcome.fault?_of_error? he] at hf
      cases hf
    · exact List.mem_append_right _ (ih ht)
  | endOfInput hs hu =>
    rw [List.mem_singleton.1 ht] at he
    cases hu
    rw [Outcome.fault?_of_error? he] at hf
    cases hf
  | failure hs hu =>
    rw [List.mem_singleton.1 ht] at he
    cases hu
    cases he
    cases hf
    rw [hs.items_eq]
    simp

end Scan

/-- The bytes of a source fail only by being malformed. -/
theorem Reader.faultClean_of_mem_tokens {bytes : List UInt8} {options : Options} {t : Token}
    (ht : t ∈ (ofBytes bytes).tokens options) : t.FaultClean := by
  intro e he f hf
  obtain ⟨ts, hl⟩ := Scan.exists_lexes options.emitComments .start (ofBytes bytes).items
  rw [tokens_of_lexes hl] at ht
  rcases Reader.of_mem_items_fault (hl.fault_mem ht he hf) with rfl | hfailure
  · decide
  · exact absurd hfailure (failure_notMem_ofBytes bytes f)

/-! ## Reports -/

namespace Report

/-- The lines of the diagnostics of the errors among some tokens. -/
def diagnosticLines (path : String) (ts : List Token) : List String :=
  (ts.filterMap Token.error?).flatMap (Diagnostic.lines path)

theorem unlines_diagnosticLines (path : String) (ts : List Token) :
    unlines (diagnosticLines path ts) = diagnosticsOf path ts :=
  Diagnostic.unlines_flatMap_lines path _

/-- A dump and a check of the tokens `ts` quote malformed numbers as they are, and nothing else. -/
structure QuotesNumbers (path : String) (ts : List Token) (dumped checked : Report) : Prop where
  /-- The reports are made of lines, each with a newline behind it. -/
  out : dumped.sinks.out.content = (unlines (ts.map Token.render)).toUTF8
  diagnostics : dumped.sinks.diagnostics.content = (unlines (diagnosticLines path ts)).toUTF8
  checked : checked.sinks.diagnostics.content = (unlines (diagnosticLines path ts)).toUTF8
  /-- A line has the control characters of the malformed number that it is about, if it is about
  one. -/
  controls_line : ∀ t ∈ ts, controls t.render = controls t.quoted
  controls_diagnostic : ∀ t ∈ ts, ∀ e, t.error? = some e →
    (Diagnostic.lines path e).flatMap controls = controls t.quoted
  /-- All lines are free of control characters exactly if the malformed numbers are. -/
  clean_iff : (∀ line ∈ ts.map Token.render ++ diagnosticLines path ts, Clean line) ↔
    ∀ t ∈ ts, Clean t.quoted

theorem clean_lines_iff {path : String} {ts : List Token}
    (hline : ∀ t ∈ ts, controls t.render = controls t.quoted)
    (hdiagnostic : ∀ t ∈ ts, ∀ e, t.error? = some e →
      (Diagnostic.lines path e).flatMap controls = controls t.quoted) :
    (∀ line ∈ ts.map Token.render ++ diagnosticLines path ts, Clean line) ↔
      ∀ t ∈ ts, Clean t.quoted := by
  rw [List.forall_mem_append, List.forall_mem_map]
  constructor
  · rintro ⟨hclean, -⟩ t ht
    exact (hline t ht).symm.trans (hclean t ht)
  · intro hclean
    refine ⟨fun t ht => (hline t ht).trans (hclean t ht), fun line hmem => ?_⟩
    obtain ⟨e, he, hmem⟩ := List.mem_flatMap.1 hmem
    obtain ⟨t, ht, he⟩ := List.mem_filterMap.1 he
    exact List.flatMap_eq_nil_iff.1 ((hdiagnostic t ht e he).trans (hclean t ht)) line hmem

end Report

/-- **Only malformed numbers bring control characters into a report.** -/
theorem report_controls {path : String} (hpath : Clean path) (options : Options)
    (bytes : List UInt8) :
    Report.QuotesNumbers path ((Reader.ofBytes bytes).tokens options)
      (dump path options (.ofBytes bytes) .unlimited)
      (check path (.ofBytes bytes) .unlimited) := by
  obtain ⟨-, hout, hdiag⟩ := dump_unlimited path options (.ofBytes bytes)
  have hcheck := check_diagnostics path options (.ofBytes bytes)
  have hline : ∀ t ∈ (Reader.ofBytes bytes).tokens options,
      controls t.render = controls t.quoted :=
    fun t ht => Token.controls_render (Reader.faultClean_of_mem_tokens ht)
  have hdiagnostic : ∀ t ∈ (Reader.ofBytes bytes).tokens options, ∀ e, t.error? = some e →
      (Diagnostic.lines path e).flatMap controls = controls t.quoted := by
    intro t ht e he
    rw [Diagnostic.controls_lines hpath (Reader.faultClean_of_mem_tokens ht e he), Token.quoted, he]
  rw [← Report.unlines_diagnosticLines] at hdiag hcheck
  exact ⟨hout, hdiag, hcheck, hline, hdiagnostic, Report.clean_lines_iff hline hdiagnostic⟩

/-- A digit and a bell. -/
theorem report_controls_number_and_bell :
    Clean "a" ∧ Report.QuotesNumbers "a" ((Reader.ofBytes [0x31, 0x07]).tokens .default)
      (dump "a" .default (.ofBytes [0x31, 0x07]) .unlimited)
      (check "a" (.ofBytes [0x31, 0x07]) .unlimited) := by
  have hpath : Clean "a" := by decide
  exact ⟨hpath, report_controls hpath .default [0x31, 0x07]⟩

/-- **The bell behind a digit gets through.** -/
theorem dump_bell : Clean "a" ∧ IsControl '\x07' ∧ ∃ out diagnostics : String,
    (dump "a" .default (.ofText "1\x07") .unlimited).sinks.out.content = out.toUTF8 ∧
      (dump "a" .default (.ofText "1\x07") .unlimited).sinks.diagnostics.content =
        diagnostics.toUTF8 ∧
      '\x07' ∈ out.toList ∧ '\x07' ∈ diagnostics.toList := by
  have hlexes : ∃ ts, Scan.Lexes Options.default.emitComments .start (Reader.ofText "1\x07").items
      (⟨.error ⟨.malformedNumber "1\x07" (some '\x07'), .start⟩, "1\x07", .start,
        Position.start.advanceAll ['1', '\x07']⟩ :: ts) := by
    rw [Reader.items_ofText]
    exact ⟨_, .token (.found (.take rfl (.take rfl .atEnd)) (fun he => by cases he))
      (fun ho => by cases ho) rfl (.endOfInput (.found .atEnd (fun he => by cases he)) rfl)⟩
  obtain ⟨ts, hlexes⟩ := hlexes
  obtain ⟨-, hout, hdiag⟩ := dump_unlimited "a" .default (.ofText "1\x07")
  rw [Reader.tokens_of_lexes hlexes] at hout hdiag
  refine ⟨by decide, by decide, _, _, hout, hdiag, ?_, ?_⟩
  · simp [Report.linesOf, toList_unlines_cons, Token.render, LexError.message]
  · simp [Report.diagnosticsOf, toList_unlines_cons, Token.error?, Diagnostic.render,
      LexError.message]

end SexprLex
