import Mathlib.Data.List.Forall2
import SexprLex.Proofs.Input.Script
import SexprLex.Proofs.Report.Writing
import SexprLex.Proofs.Scan.Lexemes
import SexprLex.Proofs.Text.Escaping

/-!
# Dumps can be read back

A dump has one line for each token, and the lines tell the tokens apart.

**Theorem (`dump_unambiguous`).** Let a source have no failing read, or only ones whose texts are
one line. Its dump has as many newlines as there are tokens, each at the end of the line of one of
them. If two such sources have the same dump, then their tokens agree one by one in everything a
line shows (`Token.LooksLike`): where they begin, the name of the kind, and the lexeme or message.

A line is taken apart from the left. Numbers end before what is no digit and names before a blank,
so the rest of the line is what the lexeme or the message was put into. A lexeme is put there
escaped and is read back (`escapeAll_inj`). A message is put there as it is. Only that of a
malformed number quotes the source as it is, and what it quotes holds nothing that ends a number
(`Undelimited.oneLine`), so no newline.
-/

namespace SexprLex

/-! ## Lines -/

namespace Text

/-- No newline in it. -/
def OneLine (text : String) : Prop := '\n' ∉ text.toList

theorem oneLine_append {a b : String} : OneLine (a ++ b) ↔ OneLine a ∧ OneLine b := by
  simp [OneLine, not_or]

theorem toList_unlines_cons (line : String) (lines : List String) :
    (unlines (line :: lines)).toList = line.toList ++ '\n' :: (unlines lines).toList := by
  simp [unlines, String.join_cons]

theorem count_newline_unlines {lines : List String} (h : ∀ line ∈ lines, OneLine line) :
    (unlines lines).toList.count '\n' = lines.length := by
  induction lines with
  | nil => rfl
  | cons line lines ih =>
    obtain ⟨hline, hlines⟩ := List.forall_mem_cons.1 h
    rw [toList_unlines_cons, List.count_append, List.count_eq_zero_of_not_mem hline,
      List.count_cons_self, ih hlines, Nat.zero_add, List.length_cons]

/-- **Lines can be told apart.** -/
theorem unlines_inj {lines lines' : List String} (h : ∀ line ∈ lines, OneLine line)
    (h' : ∀ line ∈ lines', OneLine line) (heq : unlines lines = unlines lines') :
    lines = lines' := by
  induction lines generalizing lines' with
  | nil => exact (unlines_eq_empty.1 (heq.symm.trans unlines_nil)).symm
  | cons line lines ih =>
    cases lines' with
    | nil => exact unlines_eq_empty.1 (heq.trans unlines_nil)
    | cons line' lines' =>
      obtain ⟨hline, hlines⟩ := List.forall_mem_cons.1 h
      obtain ⟨hline', hlines'⟩ := List.forall_mem_cons.1 h'
      rw [← String.toList_inj, toList_unlines_cons, toList_unlines_cons] at heq
      obtain ⟨hfirst, hrest⟩ := line_inj hline hline' heq
      rw [String.toList_inj.1 hfirst, ih hlines hlines' (String.toList_inj.1 hrest)]

theorem newline_notMem {text : List Char} (h : ∀ c ∈ text, ¬ IsControl c) : '\n' ∉ text :=
  fun hmem => h _ hmem (by decide)

theorem oneLine_escapeString (s : String) : OneLine (escapeString s) := by
  have hbody : '\n' ∉ escapeAll .insideDouble s.toList :=
    newline_notMem (not_isControl_escapeAll .insideDouble s.toList)
  simpa [OneLine, escapeString] using hbody

theorem oneLine_escapeBare (c : Char) : OneLine (escapeBare c) := by
  rw [OneLine, escapeBare, String.toList_ofList]
  exact newline_notMem (not_isControl_escape .bare c)

end Text

/-! ## What the lexer sees to -/

namespace Token

/-- What a token says besides its place and its kind: its lexeme, or the message of an error. -/
def content (t : Token) : String :=
  match t.kind with
  | .error e => e.message
  | _ => t.lexeme

/-- The line of the token is one line and leaves nothing of the content out. -/
structure Showable (t : Token) : Prop where
  message : ∀ e, t.kind = .error e → Text.OneLine e.message
  lexeme : t.kind = .endOfInput → t.lexeme = ""

/-- The lines of the two tokens show the same. -/
structure LooksLike (t t' : Token) : Prop where
  line : t.start.line = t'.start.line
  column : t.start.column = t'.start.column
  name : t.kind.name = t'.kind.name
  content : t.content = t'.content

end Token

namespace Scan

theorem Undelimited.oneLine {w : List Char} (h : Undelimited w) :
    Text.OneLine (String.ofList w) := by
  rw [Text.OneLine, String.toList_ofList]
  intro hmem
  cases h _ hmem

/-- **What is found can be shown.** -/
theorem Outcome.showable_toToken {o : Outcome} {w : List Char} (h : o.Fits w)
    (start stop : Position) : (o.toToken start stop (String.ofList w)).Showable := by
  constructor
  · intro e he
    rw [toToken] at he
    unfold kind at he
    split at he <;> cases he
    · have hraw := Undelimited.oneLine h.2
      simpa [LexError.message, Text.oneLine_append, Text.OneLine] using hraw
    · next bad =>
      have hescape := Text.oneLine_escapeBare bad.escape
      simpa [LexError.message, Text.oneLine_append, Text.OneLine] using hescape
    · simp [LexError.message, Text.OneLine]
  · intro he
    rw [toToken] at he
    unfold kind at he
    split at he <;> cases he
    obtain rfl : w = [] := h
    rfl

theorem showable_toToken_failure {fault : Fault} (h : Text.OneLine fault.text)
    (start position : Position) (raw : String) :
    (ScanFailure.toToken ⟨fault, start, position, raw⟩).Showable := by
  refine ⟨?_, fun he => by cases he⟩
  intro e he
  cases he
  simpa [LexError.message, Text.oneLine_append, Text.OneLine] using h

/-- The tokens of an input can be shown if its faults can. -/
theorem Lexes.showable {emit : Bool} {p : Position} {items : List Item} {ts : List Token}
    (h : Lexes emit p items ts) (hfaults : ∀ f, .error f ∈ items → Text.OneLine f.text) :
    ∀ t ∈ ts, t.Showable := by
  induction h with
  | token hs ho ht _ ih =>
    obtain ⟨items', hr⟩ := hs.reads
    rw [hs.items_eq] at hfaults
    cases ht
    exact List.forall_mem_cons.2 ⟨Outcome.showable_toToken hr.fits_gap _ _,
      ih fun f hf => hfaults f (List.mem_append_right _ hf)⟩
  | endOfInput hs ht =>
    obtain ⟨items', hr⟩ := hs.reads
    cases ht
    exact List.forall_mem_singleton.2 (Outcome.showable_toToken hr.fits_gap _ _)
  | @failure p items rest gap w fault failure hs ht =>
    rw [hs.items_eq] at hfaults
    cases ht
    exact List.forall_mem_singleton.2
      (showable_toToken_failure (hfaults fault (by simp)) _ _ _)

end Scan

/-! ## Reading a line -/

namespace Token

/-- What the line of a token has behind the name of its kind. -/
def tail (t : Token) : String :=
  match t.kind with
  | .endOfInput => ""
  | .error e => "  " ++ e.message
  | _ => "  " ++ Text.escapeString t.lexeme

theorem render_eq (t : Token) : t.render = t.start.render ++ "  " ++ t.kind.name ++ t.tail := by
  cases hkind : t.kind <;> simp [render, tail, hkind, String.append_assoc]

theorem toList_render (t : Token) :
    t.render.toList = Nat.toDigits 10 t.start.line ++ ':' ::
      (Nat.toDigits 10 t.start.column ++ ' ' :: ' ' :: (t.kind.name.toList ++ t.tail.toList)) := by
  simp [render_eq, Position.render, Nat.toList_repr]

theorem isDigit_toDigits (n : Nat) : ∀ c ∈ Nat.toDigits 10 n, c.isDigit = true :=
  fun _ hc => Nat.isDigit_of_mem_toDigits (by decide) (by decide) hc

theorem toDigits_inj {m n : Nat} (h : Nat.toDigits 10 m = Nat.toDigits 10 n) : m = n := by
  rw [← @Nat.ofDigitChars_ten_toDigits m, h, Nat.ofDigitChars_ten_toDigits]

/-- The name of a kind is one word. -/
theorem name_ne_blank (kind : TokenKind) : ∀ c ∈ kind.name.toList, (c != ' ') = true := by
  cases kind <;> simp [TokenKind.name]

theorem newline_notMem_name (kind : TokenKind) : '\n' ∉ kind.name.toList := by
  cases kind <;> simp [TokenKind.name]

theorem Showable.oneLine_tail {t : Token} (h : t.Showable) : Text.OneLine t.tail := by
  have hlexeme := Text.oneLine_escapeString t.lexeme
  cases hkind : t.kind with
  | endOfInput => simp [tail, hkind, Text.OneLine]
  | error e =>
    have hmessage := h.message e hkind
    simpa [tail, hkind, Text.oneLine_append, Text.OneLine] using hmessage
  | _ => simpa [tail, hkind, Text.oneLine_append, Text.OneLine] using hlexeme

theorem Showable.oneLine_render {t : Token} (h : t.Showable) : Text.OneLine t.render := by
  have hdigits : ∀ n, '\n' ∉ Nat.toDigits 10 n := by
    intro n hmem
    cases isDigit_toDigits n _ hmem
  have htail := h.oneLine_tail
  rw [Text.OneLine] at htail ⊢
  rw [toList_render]
  simp [hdigits, newline_notMem_name, htail]

theorem head?_tail (t : Token) : ∀ c ∈ t.tail.toList.head?, (c != ' ') = false := by
  cases hkind : t.kind <;> simp [tail, hkind]

/-- Names tell kinds apart, but for the error that an error token has. -/
theorem kind_eq_of_name_eq {kind kind' : TokenKind} (h : kind.name = kind'.name) :
    kind = kind' ∨ ∃ e e', kind = .error e ∧ kind' = .error e' := by
  cases kind <;> cases kind' <;> simp_all [TokenKind.name]

theorem content_eq_of_tail_eq {t t' : Token} (ht : t.Showable) (ht' : t'.Showable)
    (hname : t.kind.name = t'.kind.name) (h : t.tail = t'.tail) : t.content = t'.content := by
  rcases kind_eq_of_name_eq hname with hkind | ⟨e, e', he, he'⟩
  · cases hk : t.kind with
    | endOfInput =>
      have hk' := hkind.symm.trans hk
      simp only [content, hk, hk', ht.lexeme hk, ht'.lexeme hk']
    | error e => simp only [content, hk, hkind.symm.trans hk]
    | _ =>
      simp only [tail, hk, hkind.symm.trans hk, String.append_right_inj] at h
      simp only [content, hk, hkind.symm.trans hk, Text.escapeString_inj h]
  · simpa only [content, tail, he, he', String.append_right_inj] using h

/-- **A line can be read back.** -/
theorem looksLike_of_render_eq {t t' : Token} (ht : t.Showable) (ht' : t'.Showable)
    (h : t.render = t'.render) : t.LooksLike t' := by
  have hlist := congrArg String.toList h
  rw [toList_render, toList_render] at hlist
  obtain ⟨hline, hlist⟩ := Text.append_inj_of_stops Char.isDigit (isDigit_toDigits _)
    (isDigit_toDigits _) (by simp) (by simp) hlist
  obtain ⟨hcolumn, hlist⟩ := Text.append_inj_of_stops Char.isDigit (isDigit_toDigits _)
    (isDigit_toDigits _) (by simp) (by simp) (List.cons.inj hlist).2
  simp only [List.cons.injEq, true_and] at hlist
  obtain ⟨hname, htail⟩ := Text.append_inj_of_stops (· != ' ') (name_ne_blank _) (name_ne_blank _)
    (head?_tail t) (head?_tail t') hlist
  rw [String.toList_inj] at hname htail
  exact ⟨toDigits_inj hline, toDigits_inj hcolumn, hname, content_eq_of_tail_eq ht ht' hname htail⟩

end Token

/-! ## Reading a dump -/

namespace Reader

/-- Failing reads have a text of one line. So it is for a source of bytes, which has none. -/
def FailsInOneLine (r : Reader) : Prop := ∀ f, .failure f ∈ r.events → Text.OneLine f.text

theorem failsInOneLine_ofBytes (bytes : List UInt8) : (ofBytes bytes).FailsInOneLine := by
  intro f hf
  exact absurd hf (failure_notMem_ofBytes bytes f)

theorem oneLine_of_mem_items {r : Reader} (h : r.FailsInOneLine) (f : Fault)
    (hf : .error f ∈ r.items) : Text.OneLine f.text := by
  rcases r.of_mem_items_fault hf with rfl | hf
  · simp [Fault.malformedText, Text.OneLine]
  · exact h f hf

theorem tokens_of_lexes {r : Reader} {options : Options} {ts : List Token}
    (h : Scan.Lexes options.emitComments .start r.items ts) : r.tokens options = ts :=
  TokenStream.collect_of_lexes h rfl (Cursor.items_ofReader r) (Cursor.position_ofReader r)

theorem showable_of_mem_tokens {r : Reader} (h : r.FailsInOneLine) (options : Options) :
    ∀ t ∈ r.tokens options, t.Showable := by
  obtain ⟨ts, hl⟩ := Scan.exists_lexes options.emitComments .start r.items
  rw [tokens_of_lexes hl]
  exact hl.showable (oneLine_of_mem_items h)

end Reader

namespace Report

/-- The output of the dump, with the counts `d`, is the lines of the tokens `ts`, and has no
newlines but those at the ends of the lines. -/
structure LineByLine (ts : List Token) (dumped : Report) (d : Summary) : Prop where
  result : dumped.result = .ok d
  out : dumped.sinks.out.content = (linesOf ts).toUTF8
  oneLine : ∀ t ∈ ts, Text.OneLine t.render
  newlines : (linesOf ts).toList.count '\n' = d.tokens

theorem count_newline_linesOf {ts : List Token} (h : ∀ t ∈ ts, t.Showable) :
    (linesOf ts).toList.count '\n' = ts.length := by
  rw [linesOf, Text.count_newline_unlines, List.length_map]
  exact List.forall_mem_map.2 fun t ht => (h t ht).oneLine_render

theorem looksLike_of_linesOf_eq {ts ts' : List Token} (h : ∀ t ∈ ts, t.Showable)
    (h' : ∀ t ∈ ts', t.Showable) (heq : linesOf ts = linesOf ts') :
    List.Forall₂ Token.LooksLike ts ts' := by
  have hlines := Text.unlines_inj (List.forall_mem_map.2 fun t ht => (h t ht).oneLine_render)
    (List.forall_mem_map.2 fun t ht => (h' t ht).oneLine_render) heq
  have hrender : List.Forall₂ (fun t t' => t.render = t'.render) ts ts' := by
    rw [← List.forall₂_eq_eq_eq, List.forall₂_map_left_iff, List.forall₂_map_right_iff] at hlines
    exact hlines
  obtain ⟨hlen, hzip⟩ := List.forall₂_iff_zip.1 hrender
  refine List.forall₂_iff_zip.2 ⟨hlen, fun hmem => ?_⟩
  obtain ⟨ht, ht'⟩ := List.of_mem_zip hmem
  exact Token.looksLike_of_render_eq (h _ ht) (h' _ ht') (hzip hmem)

end Report

/-- **Dumps are unambiguous.** -/
theorem dump_unambiguous (path path' : String) (options options' : Options) {r r' : Reader}
    (hr : r.FailsInOneLine) (hr' : r'.FailsInOneLine) :
    (∃ d, Report.LineByLine (r.tokens options) (dump path options r .unlimited) d) ∧
      ((dump path options r .unlimited).sinks.out.content =
          (dump path' options' r' .unlimited).sinks.out.content →
        List.Forall₂ Token.LooksLike (r.tokens options) (r'.tokens options')) := by
  have hts := r.showable_of_mem_tokens hr options
  have hts' := r'.showable_of_mem_tokens hr' options'
  obtain ⟨hresult, hout, -⟩ := dump_unlimited path options r
  obtain ⟨-, hout', -⟩ := dump_unlimited path' options' r'
  refine ⟨⟨_, hresult, hout, fun t ht => (hts t ht).oneLine_render,
    Report.count_newline_linesOf hts⟩, ?_⟩
  rw [hout, hout', Sink.toUTF8_inj]
  exact Report.looksLike_of_linesOf_eq hts hts'

/-- The letters `a` and `b`, each before a byte that begins no character. Neither letter is shown,
since the error token that covers it has its message on the line. -/
theorem dump_unambiguous_malformed :
    Reader.FailsInOneLine (.ofBytes [0x61, 0xFF]) ∧ Reader.FailsInOneLine (.ofBytes [0x62, 0xFF]) ∧
      (∃ d, Report.LineByLine (Reader.tokens (.ofBytes [0x61, 0xFF]) .default)
        (dump "a" .default (.ofBytes [0x61, 0xFF]) .unlimited) d) ∧
      (dump "a" .default (.ofBytes [0x61, 0xFF]) .unlimited).sinks.out.content =
        (dump "b" .default (.ofBytes [0x62, 0xFF]) .unlimited).sinks.out.content ∧
      List.Forall₂ Token.LooksLike (Reader.tokens (.ofBytes [0x61, 0xFF]) .default)
        (Reader.tokens (.ofBytes [0x62, 0xFF]) .default) := by
  have hfails : Reader.FailsInOneLine (.ofBytes [0x61, 0xFF]) := Reader.failsInOneLine_ofBytes _
  have hfails' : Reader.FailsInOneLine (.ofBytes [0x62, 0xFF]) := Reader.failsInOneLine_ofBytes _
  have htokens : ∀ (b : UInt8) (c : Char), String.utf8EncodeChar c = [b] →
      Scan.Mode.gap.next c .start = .take .symbol →
      Reader.tokens (.ofBytes [b, 0xFF]) .default = [ScanFailure.toToken
        ⟨.malformedText, .start, Position.start.advance c, String.ofList [c]⟩] := by
    intro b c hb hm
    have hitems : (Reader.ofBytes [b, 0xFF]).items = [.ok c, .error .malformedText] := by
      rw [← Reader.decodesTo_iff]
      have hchar := Event.Decodes.char (c := c) (.fault (@Event.Faults.lead 0xFF [] rfl) .nil)
      rw [hb] at hchar
      exact ⟨[], hchar, trivial⟩
    apply Reader.tokens_of_lexes
    rw [hitems]
    exact .failure (.found (.take hm .failed) (fun he => by cases he)) rfl
  have heq : (dump "a" .default (.ofBytes [0x61, 0xFF]) .unlimited).sinks.out.content =
      (dump "b" .default (.ofBytes [0x62, 0xFF]) .unlimited).sinks.out.content := by
    rw [(dump_unlimited _ _ _).2.1, (dump_unlimited _ _ _).2.1, htokens 0x61 'a' rfl rfl,
      htokens 0x62 'b' rfl rfl]
    rfl
  obtain ⟨hlines, hread⟩ := dump_unambiguous "a" "b" .default .default hfails hfails'
  exact ⟨hfails, hfails', hlines, heq, hread heq⟩

end SexprLex
