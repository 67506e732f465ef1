import SexprLex.Proofs.Input.Items
import SexprLex.Scan.TokenStream

/-!
# Scans as derivations

What a scan does depends on the position and on the items before it, and on nothing else. Here
this is put as rules over lists of items, with no cursor in them.

**Reading.** `Reads mode p items w e rest` says that a scan which is in a mode at `p`, with `items`
before it, takes the characters `w` and then ends as `e` says, with an outcome or a fault, with
`rest` left.

**Scanning.** `Scans emit p items gap w e rest` says the same of a whole scan: it passes a gap of
whitespace and, unless comments are tokens, of comments, and then reads one token.

**Lexing.** `Lexes emit p items ts` says that `ts` are the tokens from `p` on, up to the terminal
one.

* `Scan.run_of_reads`, `Lexer.scan_of_scans`, `TokenStream.collect_of_lexes` — the runs do what
  the rules say.
* `exists_reads`, `exists_scans`, `exists_lexes` — the rules leave nothing out.
* `tokenize_of_lexes` — the tokens of a text, in terms of the rules.
-/

namespace SexprLex

namespace Scan

/-- How a scan in a mode goes on until its token ends or reading fails. -/
inductive Reads : Mode → Position → List Item → List Char → Except Fault Outcome → List Item → Prop
  | atEnd {mode : Mode} {p : Position} : Reads mode p [] [] (.ok mode.atEnd) []
  | failed {mode : Mode} {p : Position} {fault : Fault} {items : List Item} :
      Reads mode p (.error fault :: items) [] (.error fault) items
  | take {mode mode' : Mode} {p : Position} {c : Char} {items rest : List Item} {w : List Char}
      {e : Except Fault Outcome} : mode.next c p = .take mode' →
      Reads mode' (p.advance c) items w e rest → Reads mode p (.ok c :: items) (c :: w) e rest
  | close {mode : Mode} {p : Position} {c : Char} {items : List Item} {o : Outcome} :
      mode.next c p = .close o → Reads mode p (.ok c :: items) [c] (.ok o) items
  | stop {mode : Mode} {p : Position} {c : Char} {items : List Item} {o : Outcome} :
      mode.next c p = .stop o → Reads mode p (.ok c :: items) [] (.ok o) (.ok c :: items)

/-- How a scan passes a gap and reads what is behind it. -/
inductive Scans (emit : Bool) :
    Position → List Item → List Char → List Char → Except Fault Outcome → List Item → Prop
  | blank {p : Position} {c : Char} {items rest : List Item} {gap w : List Char}
      {e : Except Fault Outcome} : Mode.gap.next c p = .skip →
      Scans emit (p.advance c) items gap w e rest →
      Scans emit p (.ok c :: items) (c :: gap) w e rest
  | comment {p : Position} {items items' rest : List Item} {body gap w : List Char}
      {e : Except Fault Outcome} : emit = false → Reads .gap p items body (.ok .comment) items' →
      Scans emit (p.advanceAll body) items' gap w e rest →
      Scans emit p items (body ++ gap) w e rest
  | found {p : Position} {items rest : List Item} {w : List Char} {e : Except Fault Outcome} :
      Reads .gap p items w e rest → (e = .ok .comment → emit = true) →
      Scans emit p items [] w e rest

/-- What a scan returns that begins at `start`, takes `w` and ends as `e` says. -/
def result (start : Position) (w : List Char) : Except Fault Outcome → Except ScanFailure Token
  | .ok o => .ok (o.toToken start (start.advanceAll w) (String.ofList w))
  | .error fault => .error ⟨fault, start, start.advanceAll w, String.ofList w⟩

/-- What a scan that ends as `e` says leaves, the fault included. -/
def leaving (e : Except Fault Outcome) (rest : List Item) : List Item :=
  match e with
  | .ok _ => rest
  | .error fault => .error fault :: rest

@[simp] theorem leaving_ok (o : Outcome) (rest : List Item) : leaving (.ok o) rest = rest := rfl

@[simp] theorem leaving_error (fault : Fault) (rest : List Item) :
    leaving (.error fault) rest = .error fault :: rest := rfl

/-- The tokens from a position on, up to the terminal one. -/
inductive Lexes (emit : Bool) : Position → List Item → List Token → Prop
  | token {p : Position} {items rest : List Item} {gap w : List Char} {o : Outcome} {t : Token}
      {ts : List Token} : Scans emit p items gap w (.ok o) rest → o ≠ .endOfInput →
      result (p.advanceAll gap) w (.ok o) = .ok t →
      Lexes emit ((p.advanceAll gap).advanceAll w) rest ts → Lexes emit p items (t :: ts)
  | endOfInput {p : Position} {items rest : List Item} {gap w : List Char} {t : Token} :
      Scans emit p items gap w (.ok .endOfInput) rest →
      result (p.advanceAll gap) w (.ok .endOfInput) = .ok t → Lexes emit p items [t]
  | failure {p : Position} {items rest : List Item} {gap w : List Char} {fault : Fault}
      {failure : ScanFailure} : Scans emit p items gap w (.error fault) rest →
      result (p.advanceAll gap) w (.error fault) = .error failure →
      Lexes emit p items [failure.toToken]

/-! ## Runs follow the rules -/

/-- What a step leads to in the end. -/
def Step.outcome (options : Options) : Step → Except ScanFailure Token × Cursor
  | .more s => s.run options
  | .token t cursor => (.ok t, cursor)
  | .failed failure cursor => (.error failure, cursor)

theorem run_eq_outcome (options : Options) (s : Scan) :
    s.run options = (s.step options).outcome options := by
  cases h : s.step options with
  | more s' => exact run_of_more h
  | token t cursor => exact run_of_token h
  | failed failure cursor => exact run_of_failed h

/-- The step at which a scan ends as `e` says. -/
def conclude (options : Options) (cursor : Cursor) (start : Position) (raw : String) :
    Except Fault Outcome → Step
  | .ok o => finish options cursor start raw o
  | .error fault => .failed ⟨fault, start, cursor.position, raw⟩ cursor

theorem run_of_reads {options : Options} {mode : Mode} {p : Position} {items rest : List Item}
    {w : List Char} {e : Except Fault Outcome} (h : Reads mode p items w e rest) {cursor : Cursor}
    (start : Position) (raw : String) (hi : cursor.items = items) (hp : cursor.position = p) :
    ∃ cursor', cursor'.items = rest ∧ cursor'.position = p.advanceAll w ∧
      run options ⟨cursor, mode, start, raw⟩ =
        (conclude options cursor' start (raw ++ String.ofList w) e).outcome options := by
  induction h generalizing cursor raw with
  | atEnd =>
    obtain ⟨cursor', hc, hp', hi'⟩ := Cursor.peek_of_items_nil hi
    refine ⟨cursor', hi', hp'.trans hp, ?_⟩
    rw [run_eq_outcome, step, hc, String.ofList_nil, String.append_empty]
    rfl
  | failed =>
    obtain ⟨cursor', hc, hp', hi'⟩ := Cursor.peek_of_items_fault hi
    refine ⟨cursor', hi', hp'.trans hp, ?_⟩
    rw [run_eq_outcome, step, hc, String.ofList_nil, String.append_empty]
    rfl
  | take hm hr ih =>
    obtain ⟨cursor₁, hc, hp₁, -, hi₁⟩ := Cursor.peek_of_items_char hi
    obtain ⟨cursor', hi', hp', hrun⟩ := ih (raw.push _) hi₁ (by rw [Cursor.position_pass, hp₁, hp])
    refine ⟨cursor', hi', hp', ?_⟩
    rw [run_eq_outcome, step, hc]
    simp only [hp₁, hp, hm]
    rw [Step.outcome, hrun, Literal.push_append_ofList]
  | close hm =>
    obtain ⟨cursor₁, hc, hp₁, -, hi₁⟩ := Cursor.peek_of_items_char hi
    refine ⟨cursor₁.pass _, hi₁, by rw [Cursor.position_pass, hp₁, hp]; rfl, ?_⟩
    rw [run_eq_outcome, step, hc, ← Literal.push_append_ofList, String.ofList_nil,
      String.append_empty]
    simp only [hp₁, hp, hm]
    rfl
  | stop hm =>
    obtain ⟨cursor₁, hc, hp₁, hi₁, -⟩ := Cursor.peek_of_items_char hi
    refine ⟨cursor₁, hi₁, hp₁.trans hp, ?_⟩
    rw [run_eq_outcome, step, hc, String.ofList_nil, String.append_empty]
    simp only [hp₁, hp, hm]
    rfl

/-- A reading that ends with anything but a dropped comment is the end of the scan. -/
theorem outcome_conclude {options : Options} {cursor : Cursor} {start : Position} {w : List Char}
    {e : Except Fault Outcome} (he : e = .ok .comment → options.emitComments = true)
    (hp : cursor.position = start.advanceAll w) :
    (conclude options cursor start (String.ofList w) e).outcome options =
      (result start w e, cursor) := by
  cases e with
  | error fault => rw [conclude, result, hp, Step.outcome]
  | ok o =>
    have hkeep : (o.isComment && !options.emitComments) = false := by
      cases o with
      | comment => simp [he rfl]
      | _ => rfl
    rw [conclude, finish, hkeep, result, hp]
    rfl

theorem run_of_scans {options : Options} {p : Position} {items rest : List Item}
    {gap w : List Char} {e : Except Fault Outcome}
    (h : Scans options.emitComments p items gap w e rest) {cursor : Cursor}
    (hi : cursor.items = items) (hp : cursor.position = p) :
    ∃ cursor', cursor'.items = rest ∧ cursor'.position = (p.advanceAll gap).advanceAll w ∧
      run options (fresh cursor) = (result (p.advanceAll gap) w e, cursor') := by
  induction h generalizing cursor with
  | blank hm hs ih =>
    obtain ⟨cursor₁, hc, hp₁, -, hi₁⟩ := Cursor.peek_of_items_char hi
    obtain ⟨cursor', hi', hp', hrun⟩ := ih hi₁ (by rw [Cursor.position_pass, hp₁, hp])
    refine ⟨cursor', hi', hp', ?_⟩
    rw [run_eq_outcome, fresh, step, hc]
    simp only [hp₁, hp, hm]
    exact hrun
  | comment hemit hr hs ih =>
    obtain ⟨cursor₁, hi₁, hp₁, hrun⟩ := run_of_reads hr cursor.position "" hi hp
    obtain ⟨cursor', hi', hp', hrun'⟩ := ih hi₁ hp₁
    rw [Position.advanceAll_append]
    refine ⟨cursor', hi', hp', ?_⟩
    rw [fresh, hrun, conclude, finish, hemit]
    exact hrun'
  | found hr he =>
    obtain ⟨cursor', hi', hp', hrun⟩ := run_of_reads hr cursor.position "" hi hp
    refine ⟨cursor', hi', hp', ?_⟩
    rw [fresh, hrun, String.empty_append, outcome_conclude he (by rw [hp', hp]), hp]
    rfl

end Scan

open Scan

/-- **Scanning follows the rules.** -/
theorem Lexer.scan_of_scans {l : Lexer} {p : Position} {items rest : List Item}
    {gap w : List Char} {e : Except Fault Outcome}
    (h : Scans l.options.emitComments p items gap w e rest) (hi : l.cursor.items = items)
    (hp : l.position = p) :
    ∃ l', l.scan = (result (p.advanceAll gap) w e, l') ∧ l'.options = l.options ∧
      l'.cursor.items = rest ∧ l'.position = (p.advanceAll gap).advanceAll w := by
  obtain ⟨cursor, hi', hp', hrun⟩ := run_of_scans h hi hp
  exact ⟨{ l with cursor }, by rw [scan, hrun], rfl, hi', hp'⟩

theorem Scan.isEndOfInput_toToken {o : Outcome} {start stop : Position} {raw : String} :
    (o.toToken start stop raw).isEndOfInput = true ↔ o = .endOfInput := by
  unfold Outcome.toToken Token.isEndOfInput Outcome.kind
  split <;> simp

namespace TokenStream

theorem collect_of_token {l l' : Lexer} {t : Token} (h : l.scan = (.ok t, l'))
    (ht : t.isEndOfInput = false) :
    (collect ⟨l, .active⟩).1 = t :: (collect ⟨l', .active⟩).1 := by
  have hn : next? ⟨l, .active⟩ = (some t, ⟨l', .active⟩) := by
    simp [next?, isExhausted, read, h, ht, handOut]
  rw [collect_of_next?_some hn]

theorem collect_of_terminal {l : Lexer} (l' : Lexer) {t : Token}
    (h : (read ⟨l, .active⟩) = (t, ⟨l', .ended t false⟩)) : (collect ⟨l, .active⟩).1 = [t] := by
  have hn : next? ⟨l, .active⟩ = (some t, ⟨l', .ended t true⟩) := by
    simp [next?, isExhausted, h, handOut]
  have hd : next? ⟨l', .ended t true⟩ = (none, ⟨l', .ended t true⟩) := by
    simp [next?, isExhausted]
  rw [collect_of_next?_some hn, collect_of_next?_none hd]

/-- **Collecting follows the rules.** -/
theorem collect_of_lexes {emit : Bool} {p : Position} {items : List Item} {ts : List Token}
    (h : Lexes emit p items ts) {l : Lexer} (hemit : l.options.emitComments = emit)
    (hi : l.cursor.items = items) (hp : l.position = p) : (collect ⟨l, .active⟩).1 = ts := by
  induction h generalizing l with
  | token hs ho ht hl ih =>
    obtain ⟨l', hscan, hopt, hi', hp'⟩ := Lexer.scan_of_scans (hemit ▸ hs) hi hp
    rw [ht] at hscan
    cases ht
    rw [collect_of_token hscan, ih (by rw [hopt, hemit]) hi' hp']
    rw [← Bool.not_eq_true, isEndOfInput_toToken]
    exact ho
  | endOfInput hs ht =>
    obtain ⟨l', hscan, -⟩ := Lexer.scan_of_scans (hemit ▸ hs) hi hp
    rw [ht] at hscan
    cases ht
    exact collect_of_terminal l' (by simp [read, hscan, isEndOfInput_toToken])
  | failure hs ht =>
    obtain ⟨l', hscan, -⟩ := Lexer.scan_of_scans (hemit ▸ hs) hi hp
    rw [ht] at hscan
    exact collect_of_terminal l' (by simp [read, hscan])

end TokenStream

/-! ## The rules leave nothing out -/

namespace Scan

theorem Mode.skip_of_next {mode : Mode} {c : Char} {p : Position} (h : mode.next c p = .skip) :
    mode = .gap := by
  cases mode with
  | gap => rfl
  | sign s | string body =>
    simp only [Mode.next] at h
    split at h
    · cases h
    · split at h <;> cases h
  | symbol | number progress | comment =>
    simp only [Mode.next] at h
    split at h <;> cases h
  | pair body backslash => cases h

theorem exists_reads (mode : Mode) (p : Position) (items : List Item)
    (h : ∀ c rest, items = .ok c :: rest → mode.next c p ≠ .skip) :
    ∃ w e rest, Reads mode p items w e rest := by
  induction items generalizing mode p with
  | nil => exact ⟨_, _, _, .atEnd⟩
  | cons item items ih =>
    cases item with
    | error fault => exact ⟨_, _, _, .failed⟩
    | ok c =>
      cases hm : mode.next c p with
      | skip => exact absurd hm (h c items rfl)
      | take mode' =>
        have hmode : mode' ≠ .gap := by
          rintro rfl
          exact Mode.next_ne_take_gap _ _ _ hm
        obtain ⟨w, e, rest, hr⟩ := ih mode' (p.advance c)
          fun c rest _ hskip => hmode (Mode.skip_of_next hskip)
        exact ⟨_, _, _, .take hm hr⟩
      | close o => exact ⟨_, _, _, .close hm⟩
      | stop o => exact ⟨_, _, _, .stop hm⟩

/-- A reading has only one way to go. -/
theorem Reads.unique {mode : Mode} {p : Position} {items rest rest' : List Item}
    {w w' : List Char} {e e' : Except Fault Outcome} (h : Reads mode p items w e rest)
    (h' : Reads mode p items w' e' rest') : w = w' ∧ e = e' ∧ rest = rest' := by
  induction h generalizing w' with
  | atEnd =>
    cases h'
    exact ⟨rfl, rfl, rfl⟩
  | failed =>
    cases h'
    exact ⟨rfl, rfl, rfl⟩
  | take hm _ ih =>
    cases h' with
    | take hm' hr' =>
      rw [hm] at hm'
      cases hm'
      obtain ⟨rfl, rfl, rfl⟩ := ih hr'
      exact ⟨rfl, rfl, rfl⟩
    | close hm' | stop hm' =>
      rw [hm] at hm'
      cases hm'
  | close hm =>
    cases h' with
    | close hm' =>
      rw [hm] at hm'
      cases hm'
      exact ⟨rfl, rfl, rfl⟩
    | take hm' | stop hm' =>
      rw [hm] at hm'
      cases hm'
  | stop hm =>
    cases h' with
    | stop hm' =>
      rw [hm] at hm'
      cases hm'
      exact ⟨rfl, rfl, rfl⟩
    | take hm' | close hm' =>
      rw [hm] at hm'
      cases hm'

theorem Reads.items_eq {mode : Mode} {p : Position} {items rest : List Item} {w : List Char}
    {e : Except Fault Outcome} (h : Reads mode p items w e rest) :
    items = w.map .ok ++ leaving e rest := by
  induction h with
  | atEnd | failed | close | stop => rfl
  | take hm hr ih => rw [ih, List.map_cons, List.cons_append]

/-- A token takes at least one character. -/
theorem Reads.ne_nil {p : Position} {items rest : List Item} {w : List Char} {o : Outcome}
    (h : Reads .gap p items w (.ok o) rest) (ho : o ≠ .endOfInput) : w ≠ [] := by
  cases h with
  | atEnd => exact absurd rfl ho
  | take hm hr => exact List.cons_ne_nil _ _
  | close hm => exact List.cons_ne_nil _ _
  | stop hm => exact absurd hm (Mode.next_gap_ne_stop _ _ _)

theorem Scans.items_eq {emit : Bool} {p : Position} {items rest : List Item} {gap w : List Char}
    {e : Except Fault Outcome} (h : Scans emit p items gap w e rest) :
    items = (gap ++ w).map .ok ++ leaving e rest := by
  induction h with
  | blank hm hs ih => rw [ih, List.cons_append, List.map_cons, List.cons_append]
  | comment hemit hr hs ih =>
    rw [hr.items_eq, leaving_ok, ih]
    simp
  | found hr he => exact hr.items_eq

theorem Scans.reads {emit : Bool} {p : Position} {items rest : List Item} {gap w : List Char}
    {e : Except Fault Outcome} (h : Scans emit p items gap w e rest) :
    ∃ items', Reads .gap (p.advanceAll gap) items' w e rest := by
  induction h with
  | blank hm hs ih => exact ih
  | comment hemit hr hs ih =>
    rw [Position.advanceAll_append]
    exact ih
  | found hr he => exact ⟨_, hr⟩

theorem exists_scans (emit : Bool) (p : Position) (items : List Item) :
    ∃ gap w e rest, Scans emit p items gap w e rest := by
  induction hn : items.length using Nat.strongRecOn generalizing p items with
  | ind n ih =>
    by_cases hskip : ∃ c rest, items = .ok c :: rest ∧ Mode.gap.next c p = .skip
    · obtain ⟨c, rest, rfl, hm⟩ := hskip
      obtain ⟨gap, w, e, rest', hs⟩ := ih rest.length (by simp [← hn]) (p.advance c) rest rfl
      exact ⟨_, _, _, _, .blank hm hs⟩
    · obtain ⟨w, e, rest, hr⟩ := exists_reads .gap p items
        fun c rest hi hm => hskip ⟨c, rest, hi, hm⟩
      by_cases he : e = .ok .comment → emit = true
      · exact ⟨_, _, _, _, .found hr he⟩
      · simp only [Classical.not_imp, Bool.not_eq_true] at he
        obtain ⟨rfl, hemit⟩ := he
        have hw := List.length_pos_of_ne_nil (hr.ne_nil (by simp))
        have hlen : rest.length < n := by
          rw [← hn, hr.items_eq, List.length_append, List.length_map, leaving_ok]
          omega
        obtain ⟨gap, w', e, rest', hs⟩ := ih _ hlen (p.advanceAll w) rest rfl
        exact ⟨_, _, _, _, .comment hemit hr hs⟩

theorem exists_lexes (emit : Bool) (p : Position) (items : List Item) :
    ∃ ts, Lexes emit p items ts := by
  induction hn : items.length using Nat.strongRecOn generalizing p items with
  | ind n ih =>
    obtain ⟨gap, w, e, rest, hs⟩ := exists_scans emit p items
    match e with
    | .error fault => exact ⟨_, .failure hs rfl⟩
    | .ok o =>
      by_cases ho : o = .endOfInput
      · subst ho
        exact ⟨_, .endOfInput hs rfl⟩
      · obtain ⟨items', hr⟩ := hs.reads
        have hw := List.length_pos_of_ne_nil (hr.ne_nil ho)
        have hlt : rest.length < n := by
          rw [← hn, hs.items_eq, List.length_append, List.length_map, List.length_append,
            leaving_ok]
          omega
        obtain ⟨ts, hl⟩ := ih _ hlt ((p.advanceAll gap).advanceAll w) rest rfl
        exact ⟨_, .token hs ho rfl hl⟩

end Scan

/-- The tokens of a text are those that the rules give its characters. -/
theorem tokenize_of_lexes {options : Options} {text : String} {ts : List Token}
    (h : Lexes options.emitComments .start (text.toList.map .ok) ts) :
    tokenize options text = ts := by
  rw [← Reader.items_ofText] at h
  exact TokenStream.collect_of_lexes h rfl (Cursor.items_ofReader _) (Cursor.position_ofReader _)

end SexprLex
