import Mathlib.Data.List.Forall2
import SexprLex.Proofs.Scan.Comments
import SexprLex.Proofs.Scan.Lines

/-!
# Spacing is free

The tokens of a text are the same however the text is spaced. What stands between two tokens may
be replaced by any whitespace, and where nothing stands whitespace may be put in.

**Theorem (`tokenize_respaced`).** Take the parts of a text that its tokens cover and put them
down again with whitespace between them, as `Spaces` allows. The tokens of that are those of the
text, except for their positions.

* **Elsewhere.** A reading that begins at another position takes the same characters and ends in
  the same way, but for positions (`Reads.elsewhere`): a mode decides on the character alone
  (`Mode.next_moved`).
* **Before other characters.** A token ends before whitespace, unless it is a string that is left
  open, and where it touches the next token it still ends before that (`Reads.frame`).
-/

namespace SexprLex

/-- The kinds are the same, and so are the causes of errors, from which all that is reported of
them follows. Only the positions of errors may differ. -/
def TokenKind.Alike : TokenKind → TokenKind → Prop
  | .error e, .error e' => e.cause = e'.cause
  | kind, kind' => kind = kind'

/-- The tokens are the same, but perhaps not where they are. -/
structure Token.Alike (t u : Token) : Prop where
  kind : t.kind.Alike u.kind
  lexeme : t.lexeme = u.lexeme

/-- The characters that the token covers. -/
def Token.slice (cs : List Char) (t : Token) : List Char :=
  (cs.take t.stop.offset).drop t.start.offset

/-- The parts `xs`, each with the one of `ws` behind it, and `lead` before them all. -/
def respaced (lead : List Char) (xs ws : List (List Char)) : List Char :=
  lead ++ (List.zipWith (· ++ ·) xs ws).flatten

/-- The whitespace `lead` may be put before the tokens `ts`, and of `ws` one behind each. -/
structure Spaces (ts : List Token) (lead : List Char) (ws : List (List Char)) : Prop where
  length_eq : ws.length = ts.length
  blank : ∀ w ∈ lead :: ws, ∀ x ∈ w, isBlank x = true
  /-- Tokens that are apart stay apart. -/
  apart : ∀ (i : Nat) (t u : Token), ts[i]? = some t → ts[i + 1]? = some u →
    t.stop.offset < u.start.offset → ws[i]? ≠ some []
  /-- A string that is left open is the last of all characters. -/
  openLast : ∀ (t : Token) (position : Position), ts.getLast? = some t →
    t.kind = .error ⟨.unterminatedString, position⟩ → ws.getLast? = some []

theorem respaced_nil (lead : List Char) (ws : List (List Char)) : respaced lead [] ws = lead := by
  simp [respaced]

theorem respaced_cons (lead x w : List Char) (xs ws : List (List Char)) :
    respaced lead (x :: xs) (w :: ws) = lead ++ (x ++ respaced w xs ws) := by
  simp [respaced]

theorem Spaces.tail {t : Token} {ts : List Token} {lead w : List Char} {ws : List (List Char)}
    (h : Spaces (t :: ts) lead (w :: ws)) : Spaces ts w ws where
  length_eq := Nat.succ.inj h.length_eq
  blank v hv := h.blank v (List.mem_cons_of_mem _ hv)
  apart i t u ht hu := h.apart (i + 1) t u ht hu
  openLast u position hu hopen := by
    cases ts with
    | nil => cases hu
    | cons u' ts =>
      obtain ⟨w', ws, rfl⟩ := List.exists_cons_of_length_eq_add_one (Nat.succ.inj h.length_eq)
      have hlast := h.openLast u position
      rw [List.getLast?_cons_cons, List.getLast?_cons_cons] at hlast
      exact hlast hu hopen

namespace Scan

/-! ## Elsewhere -/

/-- The map that tells no position from another. -/
def forget (_ : Position) : Position := .start

theorem Move.of_moved_eq {f : Position → Position} {move move' : Move}
    (h : move.moved f = move'.moved f) :
    match move with
    | .skip => move' = .skip
    | .take mode => ∃ mode', move' = .take mode' ∧ mode.moved f = mode'.moved f
    | .close o => ∃ o', move' = .close o' ∧ o.moved f = o'.moved f
    | .stop o => ∃ o', move' = .stop o' ∧ o.moved f = o'.moved f := by
  cases move with
  | skip =>
    cases move' with
    | skip => rfl
    | take | close | stop => cases h
  | take mode =>
    cases move' with
    | take mode' => exact ⟨mode', rfl, Move.take.inj h⟩
    | skip | close | stop => cases h
  | close o =>
    cases move' with
    | close o' => exact ⟨o', rfl, Move.close.inj h⟩
    | skip | take | stop => cases h
  | stop o =>
    cases move' with
    | stop o' => exact ⟨o', rfl, Move.stop.inj h⟩
    | skip | take | close => cases h

theorem Mode.next_forget {mode mode' : Mode} (h : mode.moved forget = mode'.moved forget)
    (c : Char) (p q : Position) :
    (mode.next c p).moved forget = (mode'.next c q).moved forget := by
  rw [← next_moved mode c p, ← next_moved mode' c q, h]
  rfl

/-- **A token is read wherever it begins.** -/
theorem Reads.elsewhere {mode mode' : Mode} {p : Position} {items rest : List Item}
    {w : List Char} {o : Outcome} (h : Reads mode p items w (.ok o) rest)
    (hmode : mode.moved forget = mode'.moved forget) (q : Position) :
    ∃ o', o.moved forget = o'.moved forget ∧ Reads mode' q items w (.ok o') rest := by
  generalize he : (Except.ok o : Except Fault Outcome) = e at h
  induction h generalizing mode' q with
  | atEnd =>
    cases he
    exact ⟨_, by rw [← Mode.atEnd_moved, hmode, Mode.atEnd_moved], .atEnd⟩
  | failed => cases he
  | @take mode mode₁ p x items rest w e hm hr ih =>
    have hnext := Mode.next_forget hmode x p q
    rw [hm] at hnext
    obtain ⟨mode₁', hm', hmode₁⟩ := Move.of_moved_eq hnext
    obtain ⟨o', ho', hr'⟩ := ih hmode₁ (q.advance x) he
    exact ⟨o', ho', .take hm' hr'⟩
  | @close mode p x items o₁ hm =>
    cases he
    have hnext := Mode.next_forget hmode x p q
    rw [hm] at hnext
    obtain ⟨o', hm', ho'⟩ := Move.of_moved_eq hnext
    exact ⟨o', ho', .close hm'⟩
  | @stop mode p x items o₁ hm =>
    cases he
    have hnext := Mode.next_forget hmode x p q
    rw [hm] at hnext
    obtain ⟨o', hm', ho'⟩ := Move.of_moved_eq hnext
    exact ⟨o', ho', .stop hm'⟩

end Scan

theorem TokenKind.alike_of_moved_eq {f : Position → Position} {kind kind' : TokenKind}
    (h : kind.moved f = kind'.moved f) : kind.Alike kind' := by
  cases kind with
  | error e =>
    cases kind' with
    | error e' => exact (LexError.mk.inj (TokenKind.error.inj h)).1
    | _ => cases h
  | _ =>
    cases kind' with
    | error e' => cases h
    | _ => exact h

namespace Scan

theorem alike_toToken {o o' : Outcome} (h : o.moved forget = o'.moved forget)
    (start stop start' stop' : Position) (raw : String) :
    (o.toToken start stop raw).Alike (o'.toToken start' stop' raw) := by
  have hmoved : (o.toToken start stop raw).moved forget =
      (o'.toToken start' stop' raw).moved forget := by
    rw [← Outcome.toToken_moved, ← Outcome.toToken_moved, h]
    rfl
  obtain ⟨hkind, hlexeme, -, -⟩ := Token.mk.inj hmoved
  exact ⟨TokenKind.alike_of_moved_eq hkind, hlexeme⟩

/-! ## In front of other characters -/

theorem Outcome.endsBefore_of_isBlank {o : Outcome} (hopen : o ≠ .unterminatedString)
    (hgap : o ≠ .endOfInput) (hcomment : o ≠ .comment) {x : Char} (hx : isBlank x = true) :
    o.endsBefore (.ok x) = true := by
  have hdelim : isDelimiter x = true := by
    simp only [isBlank, Bool.or_eq_true, beq_iff_eq] at hx
    rcases hx with ((rfl | rfl) | rfl) | rfl <;> rfl
  cases o with
  | leftParen | rightParen | quote | string body => rfl
  | symbol | number result => exact hdelim
  | unterminatedString => exact absurd rfl hopen
  | endOfInput => exact absurd rfl hgap
  | comment => exact absurd rfl hcomment

theorem Gap.of_blanks {emit : Bool} {w : List Char} (h : ∀ x ∈ w, isBlank x = true) :
    Gap emit False w := by
  induction w with
  | nil => exact .nil
  | cons x w ih =>
    obtain ⟨hx, hw⟩ := List.forall_mem_cons.1 h
    exact .blank hx (ih hw)

theorem Outcome.Allows.eq_nil {items : List Item} (h : Outcome.unterminatedString.Allows items) :
    items = [] := by
  cases items with
  | nil => rfl
  | cons item items =>
    rw [allows_cons] at h
    cases h

/-! ## The tokens of a text -/

theorem Lexes.of_nil {emit : Bool} {p : Position} {items : List Item} {t : Token}
    {ts : List Token} (h : Lexes emit p items (t :: ts)) (hi : items = []) : ts = [] := by
  cases h with
  | token hs ho =>
    obtain ⟨items', hr⟩ := hs.reads
    have hnil := hs.items_eq
    rw [hi, List.map_append, eq_comm] at hnil
    simp [hr.ne_nil ho] at hnil
  | endOfInput | failure => rfl

/-- A token that begins where the rest of a text does is what this begins with. -/
theorem Lexes.slice_of_touches {emit : Bool} {before text : List Char} {t : Token}
    {ts : List Token} (h : Lexes emit (Position.start.advanceAll before) (text.map .ok) (t :: ts))
    (hts : ts ≠ []) (htouch : t.start.offset ≤ before.length) :
    t.slice (before ++ text) ≠ [] ∧ ∃ after, text = t.slice (before ++ text) ++ after := by
  cases h with
  | @token _ _ _ gap w o _ _ hs ho ht _ =>
    obtain ⟨after, rfl, -, hr⟩ := hs.reads_text
    have hcovers : Covers (Position.start.advanceAll (before ++ gap)) w (.ok t) := by
      rw [Position.advanceAll_append, ← ht]
      exact covers_result hr
    have hstart : t.start.offset = 0 + (before ++ gap).length := hcovers.start_offset
    obtain rfl : gap = [] := by
      rw [List.length_append] at hstart
      exact List.length_eq_zero_iff.1 (by omega)
    rw [List.append_nil] at hcovers
    have hslice : t.slice (before ++ (w ++ after)) = w := by
      rw [← List.append_assoc]
      exact hcovers.slice_eq
    rw [List.nil_append, hslice]
    exact ⟨hr.ne_nil ho, after, rfl⟩
  | endOfInput | failure => exact absurd rfl hts

/-- **A token ends in front of what is put behind it.** -/
theorem Reads.allows_respaced {p : Position} {before x after w : List Char} {o : Outcome}
    {stop : Position} {ts us : List Token} {lead : List Char} {ws : List (List Char)}
    (hr : Reads .gap p ((x ++ after).map .ok) x (.ok o) (after.map .ok))
    (hgap : o ≠ .endOfInput) (hcomment : o ≠ .comment) (hus : us ≠ [])
    (hl : Lexes false (Position.start.advanceAll before) (after.map .ok) (ts ++ us))
    (hstop : stop = Position.start.advanceAll before)
    (hs : Spaces (o.toToken p stop (String.ofList x) :: ts) lead (w :: ws)) :
    o.Allows ((respaced w (ts.map (Token.slice (before ++ after))) ws).map .ok) := by
  have hallows := hr.allows
  have hblank := hs.blank w (List.mem_cons_of_mem _ List.mem_cons_self)
  have hlen : ws.length = ts.length := Nat.succ.inj hs.length_eq
  by_cases hopen : o = .unterminatedString
  · -- Behind a string that is left open there are no characters, and so no tokens.
    subst hopen
    have hnil : ts = [] := by
      cases ts with
      | nil => rfl
      | cons u ts => exact absurd (List.append_eq_nil_iff.1 (hl.of_nil hallows.eq_nil)).2 hus
    subst hnil
    obtain rfl := List.eq_nil_of_length_eq_zero hlen
    have hlast := hs.openLast _ p rfl rfl
    obtain rfl : w = [] := Option.some.inj hlast
    exact Outcome.allows_nil _
  · cases w with
    | cons y w =>
      exact Outcome.allows_cons.2 (Outcome.endsBefore_of_isBlank hopen hgap hcomment
        (List.forall_mem_cons.1 hblank).1)
    | nil =>
      cases ts with
      | nil => exact o.allows_nil
      | cons u ts =>
        obtain ⟨v, ws, rfl⟩ := List.exists_cons_of_length_eq_add_one hlen
        have htouch : u.start.offset ≤ before.length := by
          by_contra hapart
          refine hs.apart 0 _ u rfl rfl ?_ rfl
          have hoffset : stop.offset = 0 + before.length := by
            rw [hstop]
            exact Position.offset_advanceAll ..
          show stop.offset < u.start.offset
          omega
        have hmore : ts ++ us ≠ [] := fun h => hus (List.append_eq_nil_iff.1 h).2
        obtain ⟨hne, after', hafter⟩ := hl.slice_of_touches hmore htouch
        rw [hafter, List.map_append, Outcome.allows_append hne] at hallows
        rw [List.map_cons, respaced_cons, List.nil_append, List.map_append,
          Outcome.allows_append hne]
        exact hallows

theorem Reads.lexes {p q : Position} {items rest : List Item} {x lead v : List Char}
    {o : Outcome} {us : List Token} (hr : Reads .gap p items x (.ok o) rest)
    (hgap : o ≠ .endOfInput) (hcomment : o ≠ .comment) (hallows : o.Allows (v.map .ok))
    (hlead : ∀ y ∈ lead, isBlank y = true)
    (hl : Lexes false ((q.advanceAll lead).advanceAll x) (v.map .ok) us) :
    ∃ u, Lexes false q ((lead ++ (x ++ v)).map .ok) (u :: us) ∧
      ∀ start stop, (o.toToken start stop (String.ofList x)).Alike u := by
  obtain ⟨o', ho', hr'⟩ := (hr.frame hallows).elsewhere rfl (q.advanceAll lead)
  have hne : ∀ o₁, (∀ body, o₁ ≠ .string body) → o ≠ o₁ → o' ≠ o₁ := by
    intro o₁ hstring ho heq
    rw [← Outcome.moved_eq_iff hstring, ← ho', Outcome.moved_eq_iff hstring] at heq
    exact ho heq
  have hfound : Scans false (q.advanceAll lead) (x.map .ok ++ v.map .ok) [] x (.ok o')
      (v.map .ok) :=
    .found hr' fun h => absurd (Except.ok.inj h) (hne .comment (by simp) hcomment)
  have hblanks : Gap false False lead := .of_blanks hlead
  have hscans := hblanks.scans hfound
  rw [List.append_nil] at hscans
  have hlexes := Lexes.token hscans (hne .endOfInput (by simp) hgap) rfl hl
  rw [← List.map_append, ← List.map_append] at hlexes
  exact ⟨_, hlexes, fun start stop => alike_toToken ho' start stop _ _ _⟩

/-- **Spacing is free**, wherever the tokens begin. -/
theorem Lexes.respaced {p : Position} {items : List Item} {ts : List Token}
    (h : Lexes false p items ts) {before text : List Char}
    (hp : p = Position.start.advanceAll before) (hi : items = text.map .ok) :
    ∃ ts', ts = ts' ++ [.endOfInput (p.advanceAll text)] ∧
      ∀ lead ws v, Spaces ts' lead ws →
        v = respaced lead (ts'.map (Token.slice (before ++ text))) ws →
        ∀ q, ∃ us, Lexes false q (v.map .ok) (us ++ [.endOfInput (q.advanceAll v)]) ∧
          List.Forall₂ Token.Alike ts' us := by
  induction h generalizing before text with
  | @token p items rest gap x o t ts hs ho ht hl ih =>
    subst hi
    obtain ⟨after, rfl, rfl, hr⟩ := hs.reads_text
    have hbehind : (p.advanceAll gap).advanceAll x =
        Position.start.advanceAll (before ++ gap ++ x) := by
      rw [hp, Position.advanceAll_append, Position.advanceAll_append]
    obtain ⟨ts', rfl, hrest⟩ := ih hbehind rfl
    refine ⟨t :: ts', ?_, ?_⟩
    · rw [Position.advanceAll_append, Position.advanceAll_append, List.cons_append]
    · rintro lead ws v hws rfl q
      cases ht
      obtain ⟨w, ws, rfl⟩ := List.exists_cons_of_length_eq_add_one hws.length_eq
      have htext : before ++ (gap ++ x ++ after) = before ++ gap ++ x ++ after := by simp
      have hcovers : Covers (Position.start.advanceAll (before ++ gap)) x
          (result (p.advanceAll gap) x (.ok o)) := by
        rw [hp, ← Position.advanceAll_append]
        exact covers_result hr
      have hslice : Token.slice (before ++ gap ++ x ++ after) _ = x := hcovers.slice_eq
      rw [List.map_cons, respaced_cons, htext, hslice, Position.advanceAll_append,
        Position.advanceAll_append]
      have hcomment : o ≠ .comment := fun h => hs.ne_comment (congrArg _ h)
      have hallows := hr.allows_respaced ho hcomment (by simp) (hbehind ▸ hl) hbehind hws
      obtain ⟨us, hlus, halike⟩ := hrest w ws _ hws.tail rfl ((q.advanceAll lead).advanceAll x)
      obtain ⟨u, hlu, hu⟩ := hr.lexes ho hcomment hallows (hws.blank lead List.mem_cons_self) hlus
      exact ⟨u :: us, hlu, .cons (hu _ _) halike⟩
  | @endOfInput p items rest gap x t hs ht =>
    subst hi
    obtain ⟨after, rfl, rfl, hr⟩ := hs.reads_text
    obtain ⟨rfl, hafter⟩ := hr.of_endOfInput
    obtain rfl := List.map_eq_nil_iff.1 hafter
    cases ht
    refine ⟨[], by rw [List.append_nil, List.append_nil]; rfl, ?_⟩
    rintro lead ws v hws rfl q
    rw [List.map_nil, respaced_nil]
    have hblanks : Gap false False lead := .of_blanks (hws.blank lead List.mem_cons_self)
    have hend : Scans false (q.advanceAll lead) [] [] [] (.ok .endOfInput) [] :=
      .found .atEnd (by simp)
    have hscans := hblanks.scans hend
    rw [List.append_nil, List.append_nil] at hscans
    exact ⟨[], .endOfInput hscans rfl, .nil⟩
  | failure hs => exact absurd hi (hs.error_ne_text text)

end Scan

open Scan

/-- **Spacing is free.** -/
theorem tokenize_respaced (text : String) :
    ∃ ts, tokenize .default text =
        ts ++ [.endOfInput (Position.start.advanceAll text.toList)] ∧
      ∀ lead ws v, Spaces ts lead ws →
        v = respaced lead (ts.map (Token.slice text.toList)) ws →
        ∃ us, tokenize .default (String.ofList v) =
            us ++ [.endOfInput (Position.start.advanceAll v)] ∧
          List.Forall₂ Token.Alike ts us := by
  obtain ⟨ts, hts⟩ := exists_lexes false .start (text.toList.map .ok)
  obtain ⟨ts', rfl, hrespaced⟩ := hts.respaced (Position.advanceAll_nil .start).symm rfl
  refine ⟨ts', tokenize_of_lexes hts, ?_⟩
  intro lead ws v hws hv
  obtain ⟨us, hl, halike⟩ := hrespaced lead ws v hws hv .start
  refine ⟨us, tokenize_of_lexes ?_, halike⟩
  rw [String.toList_ofList]
  exact hl

/-- A comment gives way to a tab, and before the parenthesis a blank is put in. Nothing may be put
behind the string that is left open. -/
theorem tokenize_respaced_comment :
    ∃ ts, tokenize .default "(1x;c\n\"a" =
        ts ++ [.endOfInput (Position.start.advanceAll "(1x;c\n\"a".toList)] ∧
      Spaces ts [' '] [[], ['\t'], []] ∧
      " (1x\t\"a".toList =
        respaced [' '] (ts.map (Token.slice "(1x;c\n\"a".toList)) [[], ['\t'], []] ∧
      ∃ us, tokenize .default " (1x\t\"a" =
          us ++ [.endOfInput (Position.start.advanceAll " (1x\t\"a".toList)] ∧
        List.Forall₂ Token.Alike ts us := by
  obtain ⟨ts, hts, hrespaced⟩ := tokenize_respaced "(1x;c\n\"a"
  have hl : Lexes Options.default.emitComments .start ("(1x;c\n\"a".toList.map .ok)
      ([Outcome.leftParen.toToken .start (Position.start.advanceAll ['(']) "(",
        (Outcome.number (.error (some 'x'))).toToken (Position.start.advanceAll ['('])
          (Position.start.advanceAll ['(', '1', 'x']) "1x",
        Outcome.unterminatedString.toToken (Position.start.advanceAll "(1x;c\n".toList)
          (Position.start.advanceAll "(1x;c\n\"a".toList) "\"a"] ++
        [.endOfInput (Position.start.advanceAll "(1x;c\n\"a".toList)]) := by
    rw [show "(1x;c\n\"a".toList = ['(', '1', 'x', ';', 'c', '\n', '"', 'a'] from rfl]
    refine .token (.found (.close rfl) (by simp)) (by simp) rfl ?_
    refine .token (.found (.take rfl (.take rfl (.stop rfl))) (by simp)) (by simp) rfl ?_
    refine .token (.comment rfl (.take rfl (.take rfl (.stop rfl))) (.blank rfl
      (.found (.take rfl (.take rfl .atEnd)) (by simp [Mode.atEnd]))))
      (by simp [Mode.atEnd]) rfl ?_
    exact .endOfInput (.found .atEnd (by simp)) rfl
  have hsame := hts
  rw [tokenize_of_lexes hl] at hsame
  have hts' := List.append_cancel_right hsame
  have hspaces : Spaces ts [' '] [[], ['\t'], []] := by
    rw [← hts']
    refine ⟨rfl, by simp [isBlank], ?_, fun t position _ _ => rfl⟩
    intro i t u ht hu hapart
    rcases i with _ | _ | i
    · cases ht
      cases hu
      exact absurd hapart (Nat.lt_irrefl _)
    · simp
    · cases hu
  have hv : " (1x\t\"a".toList =
      respaced [' '] (ts.map (Token.slice "(1x;c\n\"a".toList)) [[], ['\t'], []] := by
    rw [← hts']
    rfl
  exact ⟨ts, hts, hspaces, hv, hrespaced _ _ _ hspaces hv⟩

end SexprLex
