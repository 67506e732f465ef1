import SexprLex.Proofs.Scan.Coverage

/-!
# Comments change nothing else

Where comments are tokens a scan ends behind a comment and the next one begins there. Where they
are not, the comment belongs to the gap and the scan goes on.

**Theorem (`collect_without_comments`).** For every reader, the tokens and results that are found
without comments are those that are found with comments, the comments left out.

The proof compares the rules of the two scans. A scan that finds no comment is the same with both
options (`Scans.dropping`), and one that finds a comment can be put before any scan that drops
comments (`Scans.before`). So the results with comments, the comments left out, are results without
them (`Finds.dropping`), and a stream hands out the results up to the first failure
(`TokenStream.collect_eq_handedOut`).
-/

namespace SexprLex

/-- Whether the token is a comment. -/
def Token.isComment (t : Token) : Bool := t.kind == .comment

namespace Scan

/-- Whether the result is a comment. -/
def Result.isComment : Result → Bool
  | .ok t => t.isComment
  | .error _ => false

theorem isComment_toToken {o : Outcome} {start stop : Position} {raw : String} :
    (o.toToken start stop raw).isComment = true ↔ o = .comment := by
  unfold Outcome.toToken Token.isComment Outcome.kind
  split <;> simp

theorem isComment_result {start : Position} {w : List Char} {e : Except Fault Outcome} :
    Result.isComment (result start w e) = true ↔ e = .ok .comment := by
  cases e with
  | error fault => simp [result, Result.isComment]
  | ok o => rw [result, Result.isComment, isComment_toToken, Except.ok.injEq]

/-! ## Scans with and without comments -/

theorem Scans.dropping {p : Position} {items rest : List Item} {gap w : List Char}
    {e : Except Fault Outcome} (h : Scans true p items gap w e rest) (he : e ≠ .ok .comment) :
    Scans false p items gap w e rest := by
  induction h with
  | blank hm _ ih => exact .blank hm (ih he)
  | comment hemit => cases hemit
  | found hr _ => exact .found hr fun hcomment => absurd hcomment he

theorem Scans.before {p : Position} {items items' rest : List Item} {gap w gap' w' : List Char}
    {e e' : Except Fault Outcome} (h : Scans true p items gap w e items') (he : e = .ok .comment)
    (h' : Scans false ((p.advanceAll gap).advanceAll w) items' gap' w' e' rest) :
    Scans false p items (gap ++ w ++ gap') w' e' rest := by
  induction h with
  | blank hm _ ih => exact .blank hm (ih he h')
  | comment hemit => cases hemit
  | found hr _ =>
    subst he
    exact .comment rfl hr h'

theorem Finds.before {p : Position} {items items' : List Item} {gap w : List Char}
    {as : List Result} (h : Scans true p items gap w (.ok .comment) items')
    (h' : Finds false ((p.advanceAll gap).advanceAll w) items' as) : Finds false p items as := by
  cases h' with
  | endOfInput hs =>
    rw [← Position.advanceAll_append p, ← Position.advanceAll_append p]
    exact .endOfInput (h.before rfl hs)
  | more hs he hf =>
    rw [← Position.advanceAll_append p, ← Position.advanceAll_append p] at hf ⊢
    exact .more (h.before rfl hs) he hf

/-- **Dropped comments are found comments left out.** -/
theorem Finds.dropping {p : Position} {items : List Item} {as : List Result}
    (h : Finds true p items as) : Finds false p items (as.filter (!·.isComment)) := by
  induction h with
  | endOfInput hs => exact .endOfInput (hs.dropping (by simp))
  | @more p items rest gap w e as hs he _ ih =>
    by_cases hcomment : e = .ok .comment
    · -- What is found next without comments, or the end, is found from here.
      subst hcomment
      exact .before hs ih
    · have hkeep : (!Result.isComment (result (p.advanceAll gap) w e)) = true := by
        rw [Bool.not_eq_true', ← Bool.not_eq_true, isComment_result]
        exact hcomment
      rw [List.filter_cons, if_pos hkeep]
      exact .more (hs.dropping hcomment) he ih

theorem Scans.ne_comment {p : Position} {items rest : List Item} {gap w : List Char}
    {e : Except Fault Outcome} (h : Scans false p items gap w e rest) : e ≠ .ok .comment := by
  induction h with
  | blank _ _ ih => exact ih
  | comment _ _ _ ih => exact ih
  | found _ he =>
    intro hcomment
    cases he hcomment

theorem Finds.filter_eq_self {p : Position} {items : List Item} {as : List Result}
    (h : Finds false p items as) : as.filter (!·.isComment) = as := by
  have hkeep : ∀ {start : Position} {w : List Char} {e : Except Fault Outcome},
      e ≠ .ok .comment → (!Result.isComment (result start w e)) = true := by
    intro start w e he
    rwa [Bool.not_eq_true', ← Bool.not_eq_true, isComment_result]
  rw [List.filter_eq_self]
  induction h with
  | endOfInput => exact List.forall_mem_singleton.2 (hkeep (by simp))
  | more hs _ _ ih => exact List.forall_mem_cons.2 ⟨hkeep hs.ne_comment, ih⟩

end Scan

open Scan

/-! ## What a stream hands out of the results -/

/-- The tokens that are handed out for some results: up to the first failure. -/
def Scan.handedOut : List Result → List Token
  | [] => []
  | .ok t :: as => t :: handedOut as
  | .error e :: _ => [e.toToken]

theorem Scan.handedOut_filter (as : List Result) :
    handedOut (as.filter (!·.isComment)) = (handedOut as).filter (!·.isComment) := by
  induction as with
  | nil => rfl
  | cons a as ih =>
    cases a with
    | error e => rfl
    | ok t =>
      have hsame : Result.isComment (.ok t) = t.isComment := rfl
      rw [handedOut, List.filter_cons, List.filter_cons, hsame]
      by_cases ht : (!t.isComment) = true
      · rw [if_pos ht, if_pos ht, handedOut, ih]
      · rw [if_neg ht, if_neg ht, ih]

theorem Scan.Finds.lexes {emit : Bool} {p : Position} {items : List Item} {as : List Result}
    (h : Finds emit p items as) : Lexes emit p items (handedOut as) := by
  induction h with
  | endOfInput hs => exact .endOfInput hs rfl
  | @more p items rest gap w e as hs he _ ih =>
    cases e with
    | error fault => exact .failure hs rfl
    | ok o => exact .token hs (fun ho => he (congrArg _ ho)) rfl ih

theorem TokenStream.collect_eq_handedOut (l : Lexer) :
    (collect ⟨l, .active⟩).1 = handedOut l.results :=
  collect_of_lexes l.finds_results.lexes rfl rfl rfl

/-- A stream without comments hands out what one with any options does, the comments left out. -/
theorem TokenStream.collect_default (options : Options) (r : Reader) :
    (ofReader .default r).collect.1 = (ofReader options r).collect.1.filter (!·.isComment) := by
  have hfinds := Lexer.finds_results (.ofReader options r)
  have hresults : (Lexer.ofReader .default r).results =
      (Lexer.ofReader options r).results.filter (!·.isComment) := by
    obtain ⟨emit⟩ := options
    cases emit with
    | true => exact Lexer.results_of_finds (Finds.dropping hfinds) rfl rfl rfl
    | false => exact (Finds.filter_eq_self hfinds).symm
  rw [ofReader, ofReader, collect_eq_handedOut, collect_eq_handedOut, hresults, handedOut_filter]

/-- **Comments change nothing else.** -/
theorem collect_without_comments (r : Reader) :
    (TokenStream.ofReader ⟨true⟩ r).collect.1.filter (!·.isComment) =
        (TokenStream.ofReader ⟨false⟩ r).collect.1 ∧
      (Lexer.ofReader ⟨true⟩ r).results.filter (!·.isComment) =
        (Lexer.ofReader ⟨false⟩ r).results := by
  have hfinds : Finds true .start r.items (Lexer.ofReader ⟨true⟩ r).results :=
    Lexer.finds_results (.ofReader ⟨true⟩ r)
  have hresults : (Lexer.ofReader ⟨false⟩ r).results =
      (Lexer.ofReader ⟨true⟩ r).results.filter (!·.isComment) :=
    Lexer.results_of_finds hfinds.dropping rfl rfl rfl
  refine ⟨?_, hresults.symm⟩
  rw [TokenStream.ofReader, TokenStream.ofReader, TokenStream.collect_eq_handedOut,
    TokenStream.collect_eq_handedOut, hresults, handedOut_filter]

end SexprLex
