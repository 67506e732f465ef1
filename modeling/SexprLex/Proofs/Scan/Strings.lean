import SexprLex.Proofs.Scan.Munch

/-!
# Strings in a text

A string is decoded while it is read: each character is kept, replaced or left out as it comes, and
the first bad pair is remembered. What the token says is nevertheless a matter of the body as a
whole, cut into its pieces.

**Theorem (`tokenize_strings`).** A token that begins with a double quote says what `DecodesString`
says of the text behind that quote. Conversely every text can be spelled as a body, and however it
is spelled, the literal is one string token that stands for the text.

A reading has only one way to go (`Reads.unique`), so what a string token is can be read off the
derivations for closed and for open strings (`reads_closed`, `reads_unclosed`). What the body means
is the theory of `Body.addAll`.
-/

namespace SexprLex

open Literal (Body Piece Spells closing? pieces)
open Scan

/-- The token `t` is what the text `behind` its opening quote makes of it. -/
structure Token.DecodesString (t : Token) (behind : List Char) : Prop where
  /-- The pieces are the body, cut up, and every backslash of it begins a pair. -/
  pieces_eq : ∀ i, closing? behind = some i →
    (pieces (behind.take i)).flatMap Piece.chars = behind.take i ∧
      .plain '\\' ∉ pieces (behind.take i)
  /-- A literal in which all pairs are escapes stands for what its pieces stand for. -/
  literal : ∀ i, closing? behind = some i → (pieces (behind.take i)).all Piece.isValid = true →
    t.kind = .string ∧ t.lexeme = String.ofList ((pieces (behind.take i)).map Piece.meaning)
  /-- The first pair that is no escape is reported where its backslash is, and the lexeme is the
  literal as it is written. -/
  invalid : ∀ i, closing? behind = some i → (pieces (behind.take i)).all Piece.isValid = false →
    ∃ before c after, pieces (behind.take i) = before ++ .pair c :: after ∧
      before.all Piece.isValid = true ∧ (Piece.pair c).isValid = false ∧
      t.kind = .error ⟨.invalidEscape c, t.start.advanceAll ('"' :: before.flatMap Piece.chars)⟩ ∧
      t.lexeme = String.ofList ('"' :: (behind.take i ++ ['"']))
  /-- Without a closing quote the string is reported where it begins, whatever is in it. -/
  unterminated : closing? behind = none → t.kind = .error ⟨.unterminatedString, t.start⟩

namespace Scan

variable {p : Position} {behind w : List Char} {o : Outcome} {rest : List Item}

theorem Reads.of_closed (h : Reads .gap p (('"' :: behind).map .ok) w (.ok o) rest) {i : Nat}
    (hclose : closing? behind = some i) :
    w = '"' :: (behind.take i ++ ['"']) ∧
      o = .string (Body.empty.addAll (p.advance '"') (behind.take i)) ∧
      rest = (behind.drop (i + 1)).map .ok := by
  obtain ⟨rfl, ho, rfl⟩ := h.unique (.take rfl (reads_closed hclose .empty _))
  cases ho
  exact ⟨by rw [Literal.take_succ_closing hclose], rfl, rfl⟩

theorem Reads.of_unclosed (h : Reads .gap p (('"' :: behind).map .ok) w (.ok o) rest)
    (hclose : closing? behind = none) : o = .unterminatedString := by
  obtain ⟨-, ho, -⟩ := h.unique (.take rfl (reads_unclosed hclose .empty _))
  cases ho
  rfl

theorem Reads.decodesString (h : Reads .gap p (('"' :: behind).map .ok) w (.ok o) rest)
    (stop : Position) : (o.toToken p stop (String.ofList w)).DecodesString behind where
  pieces_eq _ hclose := ⟨Literal.flatMap_chars_pieces _, Literal.plain_backslash_notMem hclose⟩
  literal i hclose hvalid := by
    obtain ⟨-, rfl, -⟩ := h.of_closed hclose
    rw [Body.empty, Body.addAll_of_valid hvalid, String.empty_append]
    exact ⟨rfl, rfl⟩
  invalid i hclose hinvalid := by
    obtain ⟨rfl, rfl, -⟩ := h.of_closed hclose
    obtain ⟨before, c, after, hpieces, hbefore, hc, hmeaning⟩ :=
      Body.addAll_of_invalid hinvalid (p.advance '"') ""
    rw [Body.empty, hmeaning]
    exact ⟨before, c, after, hpieces, hbefore, hc, rfl, rfl⟩
  unterminated hclose := by
    obtain rfl := h.of_unclosed hclose
    rfl

end Scan

/-- However a text is spelled, the literal stands for it. -/
theorem tokenize_of_spells (options : Options) {body : List Char} {text : String}
    (h : Spells body text.toList) :
    tokenize options (String.ofList ('"' :: (body ++ ['"']))) =
      [⟨.string, text, .start, Position.start.advanceAll ('"' :: (body ++ ['"']))⟩,
        .endOfInput (Position.start.advanceAll ('"' :: (body ++ ['"'])))] := by
  have hclose := h.closing? []
  obtain ⟨hvalid, hmeaning⟩ := h.pieces
  have hmeans : Body.empty.addAll (Position.start.advance '"') body = .ok text := by
    rw [Body.empty, Body.addAll_of_valid hvalid, hmeaning, String.empty_append,
      String.ofList_toList]
  have hr : Reads .gap .start (('"' :: (body ++ ['"'])).map .ok) ('"' :: (body ++ ['"']))
      (.ok (.string (.ok text))) [] := by
    have hclosed := reads_closed hclose .empty (Position.start.advance '"')
    rw [Literal.take_succ_closing hclose, List.take_left, hmeans,
      List.drop_of_length_le (by simp)] at hclosed
    exact .take rfl hclosed
  apply tokenize_of_lexes
  rw [String.toList_ofList]
  exact .token (.found hr (by simp)) (by simp) rfl (.endOfInput (.found .atEnd (by simp)) rfl)

/-- **Strings are decoded exactly.** -/
theorem tokenize_strings (options : Options) :
    (∀ (text : String), ∀ t ∈ tokenize options text, ∀ behind,
      text.toList.drop t.start.offset = '"' :: behind → t.DecodesString behind) ∧
    ∀ text : String, (∃ body, Spells body text.toList) ∧ ∀ body, Spells body text.toList →
      tokenize options (String.ofList ('"' :: (body ++ ['"']))) =
        [⟨.string, text, .start, Position.start.advanceAll ('"' :: (body ++ ['"']))⟩,
          .endOfInput (Position.start.advanceAll ('"' :: (body ++ ['"'])))] := by
  refine ⟨?_, fun text => ⟨Literal.exists_spells _, fun _ => tokenize_of_spells options⟩⟩
  intro text t ht behind hbehind
  obtain ⟨ts, hl⟩ := exists_lexes options.emitComments .start (text.toList.map .ok)
  rw [tokenize_of_lexes hl] at ht
  obtain ⟨before, w, after, o, htext, rfl, hr⟩ := hl.exists_reads rfl ht
  have hoffset : (Position.start.advanceAll before).offset = before.length :=
    (Position.offset_advanceAll ..).trans (Nat.zero_add _)
  rw [htext, Outcome.toToken, hoffset, List.append_assoc, List.drop_left] at hbehind
  rw [hbehind] at hr
  exact hr.decodesString _

/-- A literal that holds an escaped quote and nothing else. -/
theorem tokenize_strings_escaped_quote :
    Spells ['\\', '"'] "\"".toList ∧ ∃ t ∈ tokenize .default "\"\\\"\"",
      "\"\\\"\"".toList.drop t.start.offset = ['"', '\\', '"', '"'] ∧
      t.DecodesString ['\\', '"', '"'] := by
  have hs : Spells ['\\', '"'] "\"".toList :=
    .escaped (show ('"', '"') ∈ Literal.escapes by decide) .nil
  have htokens := ((tokenize_strings .default).2 "\"").2 _ hs
  have ht : ⟨.string, "\"", .start, Position.start.advanceAll ['"', '\\', '"', '"']⟩ ∈
      tokenize .default "\"\\\"\"" := by
    rw [show "\"\\\"\"" = String.ofList ('"' :: (['\\', '"'] ++ ['"'])) from rfl, htokens]
    exact List.mem_cons_self
  exact ⟨hs, _, ht, rfl, (tokenize_strings .default).1 _ _ ht _ rfl⟩

end SexprLex
