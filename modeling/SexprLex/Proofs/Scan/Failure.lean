import SexprLex.Proofs.Input.Decoding
import SexprLex.Proofs.Scan.Lexemes
import SexprLex.Proofs.Text.Escaping

/-!
# What is decided when reading fails

A stream over a reader that fails hands out the tokens it has decided and then one token for the
failure. It decides a token as early as it can and no earlier.

**Theorem (`TokenStream.collect_of_fails`).** Let a reader deliver a text and then fail. The
stream hands out some tokens `A` and a failure `F` as `FailsBehind` says: `A` is the longest list
with which the tokens of every continuation of the text begin, and `F` covers the rest of the
text, up to a gap.

The proof reads the text twice. The scan that fails has **taken** characters (`Takes`) and is in
some mode. The tokens before it are **framed** (`Scans.frame`): they are the same whatever stands
behind the text. The one that was being read is open: it stops behind the whole text if the text
ends there, and one character later if an `a` follows, and so it is decided by no text alone
(`Takes.exists_lexes`).
-/

namespace SexprLex

namespace Scan

/-! ## Parts of a gap -/

theorem Gap.of_blank {emit : Bool} {c : Char} {text : List Char} (h : Gap emit False (c :: text))
    (hc : isBlank c = true) : Gap emit False text := by
  cases h with
  | blank _ h => exact h
  | comment => cases hc
  | lastComment _ _ hends => exact hends.elim

theorem Gap.of_semicolon {emit : Bool} {text : List Char} (h : Gap emit False (';' :: text)) :
    ∃ body gap, text = body ++ '\n' :: gap ∧ '\n' ∉ body ∧ Gap emit False ('\n' :: gap) := by
  cases h with
  | blank hc => cases hc
  | comment _ hbody h => exact ⟨_, _, rfl, hbody, h⟩
  | lastComment _ _ hends => exact hends.elim

theorem Gap.of_append {emit : Bool} {gap w : List Char} (h : Gap emit False gap)
    (hw : Gap emit False (gap ++ w)) : Gap emit False w := by
  induction h with
  | nil => exact hw
  | blank hc _ ih => exact ih (hw.of_blank hc)
  | @comment body gap hemit hbody _ ih =>
    obtain ⟨body', gap', htext, hbody', hw⟩ := hw.of_semicolon
    rw [List.append_eq, List.append_assoc, List.cons_append] at htext
    obtain ⟨-, rfl⟩ := Text.line_inj hbody hbody' htext
    exact ih hw
  | lastComment _ _ hends => exact hends.elim

/-! ## Open tokens -/

/-- A scan takes characters and gets from one mode to another. -/
inductive Takes : Mode → Position → List Char → Mode → Prop
  | nil {mode : Mode} {p : Position} : Takes mode p [] mode
  | cons {mode mode' mode'' : Mode} {p : Position} {c : Char} {w : List Char} :
      mode.next c p = .take mode' → Takes mode' (p.advance c) w mode'' →
      Takes mode p (c :: w) mode''

theorem Reads.takes {mode : Mode} {p : Position} {items rest : List Item} {w : List Char}
    {fault : Fault} (h : Reads mode p items w (.error fault) rest) :
    ∃ mode', Takes mode p w mode' := by
  generalize he : (Except.error fault : Except Fault Outcome) = e at h
  induction h with
  | atEnd | close | stop => cases he
  | failed => exact ⟨_, .nil⟩
  | take hm hr ih =>
    obtain ⟨mode', ht⟩ := ih he
    exact ⟨mode', .cons hm ht⟩

theorem Takes.reads {mode mode' : Mode} {p : Position} {w v : List Char} {items rest : List Item}
    {e : Except Fault Outcome} (h : Takes mode p w mode')
    (hr : Reads mode' (p.advanceAll w) items v e rest) :
    Reads mode p (w.map .ok ++ items) (w ++ v) e rest := by
  induction h with
  | nil => exact hr
  | cons hm _ ih => exact .take hm (ih hr)

theorem Takes.concat {mode mode' mode'' : Mode} {p : Position} {w : List Char} {c : Char}
    (h : Takes mode p w mode') (hm : mode'.next c (p.advanceAll w) = .take mode'') :
    Takes mode p (w ++ [c]) mode'' := by
  induction h with
  | nil => exact .cons hm .nil
  | cons hm' _ ih => exact .cons hm' (ih hm)

theorem Mode.exists_take (mode : Mode) (p : Position) : ∃ mode', mode.next 'a' p = .take mode' := by
  cases mode <;> exact ⟨_, rfl⟩

theorem Takes.newline_notMem {p : Position} {w : List Char} {mode : Mode}
    (h : Takes .comment p w mode) : '\n' ∉ w := by
  generalize hcomment : Mode.comment = mode' at h
  induction h with
  | nil => exact List.not_mem_nil
  | cons hm _ ih =>
    subst hcomment
    simp only [Mode.next] at hm
    split_ifs at hm with hc
    cases hm
    rw [List.mem_cons, not_or]
    exact ⟨Ne.symm hc, ih rfl⟩

theorem Takes.eq_nil_of_gap {emit : Bool} {p : Position} {w : List Char} {mode : Mode}
    (h : Takes .gap p w mode) (hw : Gap emit False w) : w = [] := by
  cases hw with
  | nil => rfl
  | blank hc =>
    cases h with
    | cons hm =>
      rw [Mode.next_gap_of_isBlank hc] at hm
      cases hm
  | @comment body gap _ hbody =>
    exfalso
    cases h with
    | cons hm h =>
      cases hm
      exact h.newline_notMem (by simp)
  | lastComment _ _ hends => exact hends.elim

theorem Scans.exists_lexes {emit : Bool} {p : Position} {items rest : List Item}
    {gap w : List Char} {o : Outcome} (h : Scans emit p items gap w (.ok o) rest) :
    ∃ t ts, Lexes emit p items (t :: ts) ∧ t.stop = p.advanceAll (gap ++ w) := by
  rw [Position.advanceAll_append]
  by_cases ho : o = .endOfInput
  · subst ho
    exact ⟨_, _, .endOfInput h rfl, rfl⟩
  · obtain ⟨ts, hl⟩ := Scan.exists_lexes emit ((p.advanceAll gap).advanceAll w) rest
    exact ⟨_, _, .token h ho rfl hl, rfl⟩

/-- What was being read stops at the end of the text if the text ends there. A comment that is
dropped gives way to the end of the input. -/
theorem Takes.exists_lexes (emit : Bool) {p : Position} {gap w : List Char} {mode : Mode}
    (hgap : Gap emit False gap) (h : Takes .gap (p.advanceAll gap) w mode) :
    ∃ t ts, Lexes emit p ((gap ++ w).map .ok) (t :: ts) ∧ t.stop = p.advanceAll (gap ++ w) := by
  have hr := h.reads .atEnd
  rw [List.append_nil, List.append_nil] at hr
  rw [List.map_append]
  by_cases hdrop : mode.atEnd = .comment ∧ emit = false
  · obtain ⟨hcomment, hemit⟩ := hdrop
    rw [hcomment] at hr
    have hs := hgap.scans (.comment hemit hr (.found .atEnd fun he => by cases he))
    simpa using hs.exists_lexes
  · have hkeep : (.ok mode.atEnd : Except Fault Outcome) = .ok .comment → emit = true := by
      intro he
      by_contra hemit
      exact hdrop ⟨by simpa using he, by simpa using hemit⟩
    have hs := hgap.scans (.found hr hkeep)
    simpa using hs.exists_lexes

/-! ## Settled tokens -/

/-- Where the tokens stop that begin at `p`. -/
def lastStop (p : Position) (ts : List Token) : Position := ts.getLast?.elim p Token.stop

theorem lastStop_cons (p : Position) (t : Token) (ts : List Token) :
    lastStop p (t :: ts) = lastStop t.stop ts := by
  rw [lastStop, lastStop, List.getLast?_cons]
  cases ts.getLast? <;> rfl

/-- The tokens `ts` of a text that begins at `p` are settled, and the rest of the text is a gap
and what an open token has taken. -/
structure Settles (emit : Bool) (p : Position) (text : List Char) (ts : List Token)
    (done gap w : List Char) : Prop where
  text_eq : text = done ++ gap ++ w
  stop_eq : lastStop p ts = p.advanceAll done
  isGap : Gap emit False gap
  takes : ∃ mode, Takes .gap ((p.advanceAll done).advanceAll gap) w mode
  lexes : ∀ q ts', Lexes emit (p.advanceAll done) ((gap ++ w ++ q).map .ok) ts' →
    Lexes emit p ((text ++ q).map .ok) (ts ++ ts')

theorem exists_eq_append_of_fault {v text : List Char} {rest items : List Item} {fault : Fault}
    (h : v.map .ok ++ rest = text.map .ok ++ .error fault :: items) :
    ∃ text', text = v ++ text' ∧ rest = text'.map .ok ++ .error fault :: items := by
  induction v generalizing text with
  | nil => exact ⟨text, rfl, h⟩
  | cons c v ih =>
    cases text with
    | nil => cases h
    | cons c' text =>
      rw [List.map_cons, List.map_cons, List.cons_append, List.cons_append, List.cons.injEq] at h
      obtain ⟨hc, h⟩ := h
      cases hc
      obtain ⟨text', rfl, hrest⟩ := ih h
      exact ⟨text', rfl, hrest⟩

/-- A token that ends before a failure goes on as little with any other text in its place. -/
theorem Outcome.Allows.of_fault {o : Outcome} {text : List Char} {fault : Fault}
    {items : List Item} (h : o.Allows (text.map .ok ++ .error fault :: items)) (q : List Char) :
    o.Allows ((text ++ q).map .ok) := by
  cases text with
  | nil =>
    rw [List.map_nil, List.nil_append, allows_cons] at h
    exact fun item _ => endsBefore_of_error h item
  | cons d text =>
    rw [List.map_cons, List.cons_append, allows_cons] at h
    rw [List.cons_append, List.map_cons, allows_cons]
    exact h

theorem Settles.cons {emit : Bool} {p : Position} {items items' : List Item}
    {gap w text done gap' w' : List Char} {o : Outcome} {fault : Fault} {t : Token}
    {ts : List Token}
    (hs : Scans emit p items gap w (.ok o) (text.map .ok ++ .error fault :: items'))
    (ho : o ≠ .endOfInput) (ht : result (p.advanceAll gap) w (.ok o) = .ok t)
    (h : Settles emit ((p.advanceAll gap).advanceAll w) text ts done gap' w') :
    Settles emit p (gap ++ w ++ text) (t :: ts) (gap ++ w ++ done) gap' w' := by
  have hdone : p.advanceAll (gap ++ w ++ done) =
      ((p.advanceAll gap).advanceAll w).advanceAll done := by
    rw [Position.advanceAll_append, Position.advanceAll_append]
  have hstop : t.stop = (p.advanceAll gap).advanceAll w := by
    cases ht
    rfl
  refine ⟨?_, ?_, h.isGap, hdone ▸ h.takes, ?_⟩
  · rw [h.text_eq]
    simp
  · rw [lastStop_cons, hdone, hstop, h.stop_eq]
  · intro q ts' hl
    obtain ⟨items'', hr⟩ := hs.reads
    have hs' := hs.frame ho (hr.allows.of_fault q)
    rw [hdone] at hl
    rw [List.append_assoc, List.map_append]
    exact .token hs' ho ht (h.lexes q ts' hl)

/-- **Tokens before a failure are settled.** -/
theorem Lexes.settles {emit : Bool} {p : Position} {items items' : List Item} {ts : List Token}
    {text : List Char} {fault : Fault} (h : Lexes emit p items ts)
    (hi : items = text.map .ok ++ .error fault :: items') :
    ∃ A done gap w, Settles emit p text A done gap w ∧
      ts = A ++ [ScanFailure.toToken ⟨fault, (p.advanceAll done).advanceAll gap,
        p.advanceAll text, String.ofList w⟩] := by
  induction h generalizing text with
  | @token p items rest gap w o t ts hs ho ht hl ih =>
    rw [hs.items_eq, leaving_ok] at hi
    obtain ⟨text, rfl, rfl⟩ := exists_eq_append_of_fault hi
    obtain ⟨A, done, gap', w', hA, rfl⟩ := ih rfl
    refine ⟨t :: A, gap ++ w ++ done, gap', w', hA.cons hs ho ht, ?_⟩
    simp only [Position.advanceAll_append, List.cons_append]
  | endOfInput hs =>
    obtain ⟨items'', hr⟩ := hs.reads
    obtain ⟨-, rfl⟩ := hr.of_endOfInput
    rw [hs.items_eq, leaving_ok] at hi
    obtain ⟨text', -, hrest⟩ := exists_eq_append_of_fault hi
    exact absurd hrest.symm (by simp)
  | @failure p items rest gap w fault' failure hs ht =>
    have hgap := hs.gap_of_ne (fun he => by cases he)
    obtain ⟨items'', hr⟩ := hs.reads
    rw [hs.items_eq, leaving_error] at hi
    obtain ⟨text', rfl, hrest⟩ := exists_eq_append_of_fault hi
    cases text' with
    | cons c text' => cases hrest
    | nil =>
      cases hrest
      cases ht
      refine ⟨[], [], gap, w, ⟨?_, rfl, hgap, hr.takes, ?_⟩, ?_⟩
      · simp
      · intro q ts' hl
        simpa using hl
      · rw [List.append_nil, Position.advanceAll_append]
        rfl

/-! ## The next token is open -/

theorem prefix_of_prefix_append_cons {A B ts ts' : List Token} {t t' : Token} (hne : t ≠ t')
    (h : B <+: A ++ t :: ts) (h' : B <+: A ++ t' :: ts') : B <+: A := by
  induction A generalizing B with
  | nil =>
    cases B with
    | nil => exact List.nil_prefix
    | cons b B =>
      obtain ⟨rfl, -⟩ := List.cons_prefix_cons.1 h
      exact absurd (List.cons_prefix_cons.1 h').1 hne
  | cons a A ih =>
    cases B with
    | nil => exact List.nil_prefix
    | cons b B =>
      obtain ⟨rfl, hB⟩ := List.cons_prefix_cons.1 h
      exact List.cons_prefix_cons.2 ⟨rfl, ih hB (List.cons_prefix_cons.1 h').2⟩

variable {options : Options} {text : String} {A : List Token} {done gap w : List Char}

theorem Settles.prefix_tokenize (h : Settles options.emitComments .start text.toList A done gap w)
    (q : String) : A <+: tokenize options (text ++ q) := by
  obtain ⟨ts', hl⟩ := Scan.exists_lexes options.emitComments (Position.start.advanceAll done)
    ((gap ++ w ++ q.toList).map .ok)
  have htext := h.lexes q.toList ts' hl
  rw [← String.toList_append] at htext
  exact ⟨ts', (tokenize_of_lexes htext).symm⟩

theorem Settles.exists_next (h : Settles options.emitComments .start text.toList A done gap w)
    {q : String} {mode : Mode}
    (ht : Takes .gap ((Position.start.advanceAll done).advanceAll gap) (w ++ q.toList) mode) :
    ∃ t ts, tokenize options (text ++ q) = A ++ t :: ts ∧
      t.stop.offset = text.toList.length + q.toList.length := by
  obtain ⟨t, ts, hl, hstop⟩ := ht.exists_lexes options.emitComments h.isGap
  rw [← List.append_assoc] at hl
  have htext := h.lexes q.toList _ hl
  rw [← String.toList_append] at htext
  refine ⟨t, ts, tokenize_of_lexes htext, ?_⟩
  have hzero : Position.start.offset = 0 := rfl
  rw [hstop, Position.offset_advanceAll, Position.offset_advanceAll, h.text_eq]
  simp only [List.length_append]
  omega

/-- No token behind the settled ones is the same for all continuations. -/
theorem Settles.longest (h : Settles options.emitComments .start text.toList A done gap w)
    {B : List Token} (hB : ∀ q : String, B <+: tokenize options (text ++ q)) : B <+: A := by
  -- Two continuations are enough, none and an `a`: the next token stops at different places.
  obtain ⟨mode, ht⟩ := h.takes
  obtain ⟨mode', hm⟩ := mode.exists_take
    (((Position.start.advanceAll done).advanceAll gap).advanceAll w)
  have hend : Takes .gap ((Position.start.advanceAll done).advanceAll gap)
      (w ++ "".toList) mode := by
    rw [String.toList_empty, List.append_nil]
    exact ht
  obtain ⟨t, ts, htok, hstop⟩ := h.exists_next hend
  obtain ⟨t', ts', htok', hstop'⟩ := @Settles.exists_next options text A done gap w h "a" mode'
    (ht.concat hm)
  have hne : t ≠ t' := by
    rintro rfl
    rw [hstop] at hstop'
    simp at hstop'
  exact prefix_of_prefix_append_cons hne (htok ▸ hB "") (htok' ▸ hB "a")

end Scan

open Scan

/-- A stream whose reader fails with `fault` behind `text` hands out the tokens `A` and then
`F`. -/
structure FailsBehind (options : Options) (text : String) (fault : Fault) (A : List Token)
    (F : Token) : Prop where
  /-- The tokens of every continuation begin with `A`. -/
  settled : ∀ q : String, A <+: tokenize options (text ++ q)
  /-- Nothing longer has this property. -/
  longest : ∀ B, (∀ q : String, B <+: tokenize options (text ++ q)) → B <+: A
  kind_eq : F.kind = .error ⟨.readFailure fault, F.stop⟩
  stop_eq : F.stop = Position.start.advanceAll text.toList
  /-- The failure covers the text from its start on. -/
  lexeme_eq : F.lexeme = String.ofList (text.toList.drop F.start.offset)
  /-- Between the tokens and the failure is a gap. -/
  gap : ∃ before gap rest, text.toList = before ++ gap ++ rest ∧
    lastStop .start A = Position.start.advanceAll before ∧
    F.start = Position.start.advanceAll (before ++ gap) ∧
    Gap options.emitComments False gap
  /-- It covers nothing exactly if all of the text behind the tokens is a gap, so that no token
  and no comment is unfinished. -/
  empty : F.start = F.stop ↔ ∃ before gap, text.toList = before ++ gap ∧
    lastStop .start A = Position.start.advanceAll before ∧ Gap options.emitComments False gap

namespace Scan

variable {options : Options} {text : String} {A : List Token} {done gap w : List Char}

theorem offset_start_advanceAll (v : List Char) :
    (Position.start.advanceAll v).offset = v.length :=
  (Position.offset_advanceAll ..).trans (Nat.zero_add _)

theorem Settles.failsBehind (h : Settles options.emitComments .start text.toList A done gap w)
    (fault : Fault) :
    FailsBehind options text fault A
      (ScanFailure.toToken ⟨fault, (Position.start.advanceAll done).advanceAll gap,
        Position.start.advanceAll text.toList, String.ofList w⟩) where
  settled := h.prefix_tokenize
  longest B hB := h.longest hB
  kind_eq := rfl
  stop_eq := rfl
  lexeme_eq := by
    show String.ofList w = String.ofList (text.toList.drop
      ((Position.start.advanceAll done).advanceAll gap).offset)
    rw [← Position.advanceAll_append, offset_start_advanceAll, h.text_eq, List.drop_left]
  gap := by
    refine ⟨done, gap, w, h.text_eq, h.stop_eq, ?_, h.isGap⟩
    rw [Position.advanceAll_append]
    rfl
  empty := by
    show (Position.start.advanceAll done).advanceAll gap = Position.start.advanceAll text.toList ↔ _
    rw [← Position.advanceAll_append]
    constructor
    · intro heq
      have hlen := congrArg Position.offset heq
      rw [offset_start_advanceAll, offset_start_advanceAll, h.text_eq] at hlen
      simp only [List.length_append] at hlen
      have hw : w = [] := List.length_eq_zero_iff.1 (by omega)
      exact ⟨done, gap, by rw [h.text_eq, hw, List.append_nil], h.stop_eq, h.isGap⟩
    · rintro ⟨before, gap', htext, hstop, hgap'⟩
      have hlen := congrArg Position.offset (h.stop_eq.symm.trans hstop)
      rw [offset_start_advanceAll, offset_start_advanceAll] at hlen
      have hsplit : done ++ (gap ++ w) = before ++ gap' := by
        rw [← List.append_assoc, ← h.text_eq, htext]
      obtain ⟨rfl, rfl⟩ := List.append_inj hsplit hlen
      obtain ⟨mode, ht⟩ := h.takes
      have hw : w = [] := ht.eq_nil_of_gap (h.isGap.of_append hgap')
      rw [h.text_eq, hw, List.append_nil]

end Scan

namespace TokenStream

/-- **A failure ends the decided tokens.** -/
theorem collect_of_fails (options : Options) {r : Reader} {text : String} {es : List Event}
    {fault : Fault} (h : r.events = text.toUTF8.data.toList.map .byte ++ es)
    (hf : Event.Fails es fault) :
    ∃ A F, (ofReader options r).collect.1 = A ++ [F] ∧ FailsBehind options text fault A F := by
  rw [Utf8.toUTF8_eq_encode] at h
  obtain ⟨items, hi⟩ := Reader.items_of_fails h hf
  obtain ⟨ts, hl⟩ := Scan.exists_lexes options.emitComments .start r.items
  have hcollect := TokenStream.collect_of_lexes (l := .ofReader options r) hl rfl
    (Cursor.items_ofReader _) (Cursor.position_ofReader _)
  obtain ⟨A, done, gap, w, hA, rfl⟩ := hl.settles hi
  exact ⟨A, _, hcollect, hA.failsBehind fault⟩

/-- The letter `λ` in two chunks, and then a read that fails. -/
theorem collect_cut_character :
    (Reader.ofParts [.chunk 0xCE [], .failure ⟨.interrupted, ""⟩, .chunk 0xBB [],
        .failure ⟨.other, "gone"⟩]).events =
        "λ".toUTF8.data.toList.map .byte ++ [.failure ⟨.other, "gone"⟩] ∧
      Event.Fails [.failure ⟨.other, "gone"⟩] ⟨.other, "gone"⟩ ∧
      ∃ A F, (ofReader .default (Reader.ofParts [.chunk 0xCE [], .failure ⟨.interrupted, ""⟩,
          .chunk 0xBB [], .failure ⟨.other, "gone"⟩])).collect.1 = A ++ [F] ∧
        FailsBehind .default "λ" ⟨.other, "gone"⟩ A F :=
  have hf : Event.Fails [.failure ⟨.other, "gone"⟩] ⟨.other, "gone"⟩ :=
    @Event.Fails.read [] _ [] (Or.inl rfl)
  ⟨rfl, hf, collect_of_fails .default rfl hf⟩

end TokenStream

end SexprLex
