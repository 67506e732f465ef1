import SexprLex.Proofs.Report.Writing
import SexprLex.Proofs.Scan.Comments

/-!
# Dumps and checks agree

A check is a dump without its output: it asks for the tokens without comments, and writes the
diagnostics only. It finds the same errors.

**Theorem (`dump_agrees_with_check`).** For every reader and both options, and with sinks that
take everything, a dump and a check of the same input agree as `Report.Agree` says: they write the
same diagnostics, those of the errors in order, and come to the same exit status; the dump has
counted more tokens than the check by as many as are comments.

Both reports are known from the tokens (`dump_unlimited`, `check_unlimited`), and the tokens of
the check are those of the dump with the comments left out (`TokenStream.collect_default`). A
comment is no error, so leaving it out changes no diagnostic.
-/

namespace SexprLex

namespace Report

/-- A dump of the tokens `ts`, with the counts `d`, and a check, with the counts `c`, agree. -/
structure Agree (path : String) (ts : List Token) (dumped checked : Report) (d c : Summary) :
    Prop where
  dump_result : dumped.result = .ok d
  check_result : checked.result = .ok c
  /-- The diagnostics are those of the errors, in order. -/
  dump_diagnostics : dumped.sinks.diagnostics.content = (diagnosticsOf path ts).toUTF8
  check_diagnostics : checked.sinks.diagnostics.content = dumped.sinks.diagnostics.content
  dump_errors : d.errors = ts.countP Token.isError
  check_errors : c.errors = d.errors
  exitStatus_eq : c.exitStatus = d.exitStatus
  /-- All is well exactly if there are no diagnostics. -/
  exitStatus_eq_zero : d.exitStatus = 0 ↔ dumped.sinks.diagnostics.content = .empty
  /-- Only the comments are counted by the dump alone. -/
  tokens_eq : d.tokens = c.tokens + ts.countP Token.isComment

/-! ## Errors among the tokens -/

theorem isComment_eq_false_of_error? {t : Token} {e : LexError} (h : t.error? = some e) :
    t.isComment = false := by
  unfold Token.error? at h
  split at h
  · next hkind => rw [Token.isComment, hkind]; rfl
  · cases h

theorem diagnosticsOf_filter (path : String) (ts : List Token) :
    diagnosticsOf path (ts.filter (!·.isComment)) = diagnosticsOf path ts := by
  rw [diagnosticsOf, diagnosticsOf]
  congr 2
  induction ts with
  | nil => rfl
  | cons t ts ih =>
    rw [List.filter_cons, List.filterMap_cons]
    cases he : t.error? with
    | none =>
      split
      · rw [List.filterMap_cons, he, ih]
      · exact ih
    | some e =>
      rw [isComment_eq_false_of_error? he, Bool.not_false, if_pos rfl, List.filterMap_cons, he, ih]

theorem countP_isError_filter (ts : List Token) :
    (ts.filter (!·.isComment)).countP Token.isError = ts.countP Token.isError := by
  rw [List.countP_filter]
  refine List.countP_congr fun t _ => ?_
  cases he : t.error? with
  | none => simp [Token.isError, he]
  | some e => simp [Token.isError, he, isComment_eq_false_of_error? he]

theorem length_filter_add_countP (ts : List Token) :
    (ts.filter (!·.isComment)).length + ts.countP Token.isComment = ts.length := by
  rw [← List.countP_eq_length_filter, Nat.add_comm]
  have h := List.length_eq_countP_add_countP Token.isComment (l := ts)
  simpa using h.symm

/-- There is nothing to diagnose exactly if there are no errors. -/
theorem diagnosticsOf_eq_empty {path : String} {ts : List Token} :
    diagnosticsOf path ts = "" ↔ ts.countP Token.isError = 0 := by
  rw [diagnosticsOf, Text.unlines_eq_empty, List.map_eq_nil_iff, List.filterMap_eq_nil_iff,
    List.countP_eq_zero]
  simp [Token.isError]

end Report

theorem Summary.exitStatus_filter (ts : List Token) :
    (ofTokens (ts.filter (!·.isComment))).exitStatus = (ofTokens ts).exitStatus := by
  rw [exitStatus, exitStatus, ofTokens, ofTokens, Report.countP_isError_filter]

theorem Reader.tokens_default (r : Reader) (options : Options) :
    r.tokens .default = (r.tokens options).filter (!·.isComment) :=
  TokenStream.collect_default options r

/-- The diagnostics of a check are those of the tokens, with comments or without. -/
theorem check_diagnostics (path : String) (options : Options) (r : Reader) :
    (check path r .unlimited).sinks.diagnostics.content =
      (Report.diagnosticsOf path (r.tokens options)).toUTF8 := by
  rw [(check_unlimited path r).2, r.tokens_default options, Report.diagnosticsOf_filter]

/-- **Dumps and checks agree.** -/
theorem dump_agrees_with_check (path : String) (options : Options) (r : Reader) :
    (∃ d c, Report.Agree path (r.tokens options) (dump path options r .unlimited)
      (check path r .unlimited) d c) ∧ (r.tokens .default).countP Token.isComment = 0 := by
  have htokens : r.tokens .default = (r.tokens options).filter (!·.isComment) :=
    TokenStream.collect_default options r
  obtain ⟨hd, -, hdiag⟩ := dump_unlimited path options r
  obtain ⟨hc, hdiag'⟩ := check_unlimited path r
  rw [htokens] at hc hdiag'
  rw [Report.diagnosticsOf_filter] at hdiag'
  have herrors := Report.countP_isError_filter (r.tokens options)
  refine ⟨⟨_, _, hd, hc, hdiag, hdiag'.trans hdiag.symm, rfl, herrors, ?_, ?_, ?_⟩, ?_⟩
  · rw [Summary.exitStatus, Summary.exitStatus, Summary.ofTokens, Summary.ofTokens, herrors]
  · rw [hdiag, Sink.toUTF8_eq_empty, Report.diagnosticsOf_eq_empty, Summary.exitStatus]
    simp [Summary.ofTokens]
  · exact (Report.length_filter_add_countP (r.tokens options)).symm
  · rw [htokens]
    simp [List.countP_filter]

end SexprLex
