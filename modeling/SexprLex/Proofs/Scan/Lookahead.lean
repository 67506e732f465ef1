import SexprLex.Proofs.Calls
import SexprLex.Proofs.Scan.Lexemes

/-!
# One character of lookahead

A scanner that looks further than it must takes bytes that belong to whoever reads the input next,
or waits for bytes that never come. This one looks at one character behind a token at most.

**Theorem (`TokenStream.takes_one_ahead`).** Let a script deliver a text and then end. Whenever a
stream over it hands out a token, the bytes it has taken are those of the characters that
`TokenKind.reach?` says, and it stands at the stop of the token (`Took`): a token that ends with its
own last character has not been looked behind, a token that goes on until something ends it has been
looked behind by one character, and at the end of the input everything has been taken.

Two facts are kept by everything that happens. A byte that is taken is no longer to come
(`Reader.total_decode`). And a cursor over a text has taken the bytes of the characters it has
passed, and of the one it sees if it sees one (`Cursor.Over`). How a token ends decides whether the
cursor still sees a character then: it has passed the one that closes the token, and it sees the one
that the token stops before.
-/

namespace SexprLex

/-! ## Bytes that are taken are no longer to come -/

/-- How many bytes there are in an answer. -/
def Answer.byteCount : Answer UInt8 → Nat
  | .ok (some _) => 1
  | .ok none | .error _ => 0

/-- How many bytes there are among some events. -/
def Event.byteCount : List Event → Nat
  | [] => 0
  | .byte _ :: es => byteCount es + 1
  | .endOfInput :: es | .failure _ :: es => byteCount es

theorem Event.byteCount_pop (es : List Event) :
    Answer.byteCount (pop es).1 + byteCount (pop es).2 = byteCount es := by
  rcases es with _ | ⟨b | _ | fault, es⟩
  · rfl
  · exact Nat.add_comm ..
  · exact Nat.zero_add _
  · exact Nat.zero_add _

theorem Event.byteCount_append_bytes (bs : List UInt8) (es : List Event) :
    byteCount (bs.map .byte ++ es) = bs.length + byteCount es := by
  induction bs with
  | nil => simp
  | cons b bs ih =>
    rw [List.map_cons, List.cons_append, byteCount, ih, List.length_cons]
    omega

namespace Reader

/-- The bytes that have been taken and those to come. -/
def total (r : Reader) : Nat := r.taken + Event.byteCount r.events

theorem taken_readByte {r r' : Reader} {answer : Answer UInt8}
    (h : r.readByte = (answer, r')) : r'.taken = r.taken + Answer.byteCount answer := by
  unfold readByte at h
  split at h <;> cases h <;> rfl

theorem total_readByte {r r' : Reader} {answer : Answer UInt8} (h : r.readByte = (answer, r')) :
    r'.total = r.total := by
  have hcount := Event.byteCount_pop r.events
  rw [events_of_readByte h] at hcount
  rw [total, total, taken_readByte h, ← hcount, Nat.add_assoc]

theorem total_decodeRest {least missing bits : Nat} {r r' : Reader} {answer : Answer Char}
    (h : decodeRest least missing bits r = (answer, r')) : r'.total = r.total := by
  induction missing generalizing bits r with
  | zero =>
    rw [decodeRest] at h
    split at h <;> cases h <;> rfl
  | succ missing ih =>
    rw [decodeRest] at h
    split at h
    · next hr =>
      cases h
      exact total_readByte hr
    · next hr =>
      cases h
      exact total_readByte hr
    · next hr =>
      split at h
      · exact (ih h).trans (total_readByte hr)
      · cases h
        exact total_readByte hr

/-- **Decoding loses no byte.** -/
theorem total_decode {r r' : Reader} {answer : Answer Char} (h : r.decode = (answer, r')) :
    r'.total = r.total := by
  rw [decode] at h
  split at h
  · next hr =>
    cases h
    exact total_readByte hr
  · next hr =>
    cases h
    exact total_readByte hr
  · next hr =>
    split at h
    · exact (total_decodeRest h).trans (total_readByte hr)
    · cases h
      exact total_readByte hr

/-- The bytes of `done` have been taken, and those of `rest` are to come before the input ends. -/
structure Stands (r : Reader) (done rest : List Char) : Prop where
  taken_eq : r.taken = (Utf8.encode done).length
  events_eq : ∃ es, Event.Ends es ∧ r.events = (Utf8.encode rest).map .byte ++ es

theorem Stands.decode_cons {r : Reader} {done rest : List Char} {c : Char}
    (h : r.Stands done (c :: rest)) :
    ∃ r', r.decode = (.ok (some c), r') ∧ r'.Stands (done ++ [c]) rest := by
  obtain ⟨htaken, es, hes, hevents⟩ := h
  rw [Utf8.encode_cons, List.map_append, List.append_assoc] at hevents
  obtain ⟨r', hr, hevents'⟩ := decode_of_char hevents
  refine ⟨r', hr, ?_, es, hes, hevents'⟩
  have htotal := total_decode hr
  simp only [total, hevents, hevents', Event.byteCount_append_bytes] at htotal
  rw [Utf8.encode_append, List.length_append, Utf8.encode_cons, Utf8.encode_nil, List.append_nil]
  omega

theorem Stands.decode_nil {r : Reader} {done : List Char} (h : r.Stands done []) :
    ∃ r', r.decode = (.ok none, r') ∧ r'.taken = (Utf8.encode done).length := by
  obtain ⟨htaken, es, hes, hevents⟩ := h
  obtain ⟨r', hr⟩ := readByte_of_ends (hevents ▸ hes : Event.Ends r.events)
  exact ⟨r', decode_of_readByte_none hr, (taken_readByte hr).trans htaken⟩

end Reader

/-! ## Cursors over a text -/

namespace Cursor

/-- The cursor stands in the text, and its reader has handed out the characters that the cursor has
passed and the one that it sees. -/
inductive Over (text : List Char) : Cursor → Prop
  | unread {r : Reader} {p : Position} {done rest : List Char} : text = done ++ rest →
      p.offset = done.length → r.Stands done rest → Over text ⟨r, .unread, p⟩
  | char {r : Reader} {p : Position} {c : Char} {done rest : List Char} :
      text = done ++ c :: rest → p.offset = done.length → r.Stands (done ++ [c]) rest →
      Over text ⟨r, .char c, p⟩
  | ended {r : Reader} {p : Position} : p.offset = text.length →
      r.taken = (Utf8.encode text).length → Over text ⟨r, .ended, p⟩

/-- How many characters the cursor has passed or sees. -/
def seen (s : Cursor) : Nat :=
  match s.ahead with
  | .char _ => s.position.offset + 1
  | .unread | .ended => s.position.offset

variable {text : List Char} {s : Cursor}

theorem Over.taken_eq (h : s.Over text) :
    s.reader.taken = (Utf8.encode (text.take s.seen)).length := by
  cases h with
  | unread htext hoffset hr => rw [seen, hoffset, htext, List.take_left, hr.taken_eq]
  | @char r p c done rest htext hoffset hr =>
    have hseen : Cursor.seen ⟨r, .char c, p⟩ = (done ++ [c]).length := by simp [seen, hoffset]
    rw [hseen, htext, List.append_cons done c rest, List.take_left, hr.taken_eq]
  | ended hoffset htaken => rw [seen, hoffset, List.take_length, htaken]

theorem Over.seen_le (h : s.Over text) : s.seen ≤ text.length := by
  cases h with
  | unread htext hoffset => simp [seen, hoffset, htext]
  | char htext hoffset => simp [seen, hoffset, htext]
  | ended hoffset => simp [seen, hoffset]

theorem Over.offset_of_ended (h : s.Over text) (ha : s.ahead = .ended) :
    s.position.offset = text.length := by
  cases h with
  | unread | char => cases ha
  | ended hoffset => exact hoffset

/-- A cursor over a text sees its next character, or its end. -/
theorem Over.peek (h : s.Over text) :
    (∃ c s', s.peek = (.ok (some c), s') ∧ s'.Over text) ∨
      ∃ s', s.peek = (.ok none, s') ∧ s'.Over text := by
  cases h with
  | @unread r p done rest htext hoffset hr =>
    cases rest with
    | nil =>
      obtain ⟨r', hdecode, htaken⟩ := hr.decode_nil
      rw [List.append_nil] at htext
      exact Or.inr ⟨⟨r', .ended, p⟩, by simp only [Cursor.peek, hdecode],
        .ended (htext ▸ hoffset) (htext ▸ htaken)⟩
    | cons c rest =>
      obtain ⟨r', hdecode, hr'⟩ := hr.decode_cons
      exact Or.inl ⟨c, ⟨r', .char c, p⟩, by simp only [Cursor.peek, hdecode],
        .char htext hoffset hr'⟩
  | char htext hoffset hr => exact Or.inl ⟨_, _, rfl, .char htext hoffset hr⟩
  | ended hoffset htaken => exact Or.inr ⟨_, rfl, .ended hoffset htaken⟩

theorem Over.pass {c : Char} (h : s.Over text) (ha : s.ahead = .char c) :
    (s.pass c).Over text := by
  cases h with
  | unread | ended => cases ha
  | char htext hoffset hr =>
    cases ha
    refine .unread (by rw [htext, List.append_cons]) ?_ hr
    rw [Position.offset_advance, hoffset, List.length_append, List.length_singleton]

theorem seen_pass (s : Cursor) (c : Char) : (s.pass c).seen = (s.pass c).position.offset := rfl

end Cursor

/-! ## How far a token reaches -/

/-- How many characters of a text of this length have been taken when a token of this kind that
stops at `stop` is handed out; none if a text has no such token. -/
def TokenKind.reach? (stop length : Nat) : TokenKind → Option Nat
  | .leftParen | .rightParen | .quote | .string => some stop
  | .symbol | .integer | .float | .comment => some (min length (stop + 1))
  | .endOfInput => some length
  | .error e =>
    match e.cause with
    | .invalidEscape _ => some stop
    | .malformedNumber _ _ => some (min length (stop + 1))
    | .unterminatedString => some length
    | .readFailure _ => none

/-- A cursor that stands where the token stops, with no more taken than the token needs. -/
structure Took (text : List Char) (t : Token) (s : Cursor) : Prop where
  position_eq : s.position = t.stop
  taken_eq : ∃ n, t.kind.reach? t.stop.offset text.length = some n ∧
    s.reader.taken = (Utf8.encode (text.take n)).length

namespace Scan

theorem Outcome.reach?_number (result : Except (Option Char) Number.Kind) (start : Position)
    (raw : String) (stop length : Nat) :
    ((Outcome.number result).kind start raw).reach? stop length =
      some (min length (stop + 1)) := by
  cases result with
  | error offending => rfl
  | ok kind => cases kind <;> rfl

/-- A token that closes with a character is not looked behind. -/
theorem Outcome.reach?_of_close {mode : Mode} {c : Char} {p : Position} {o : Outcome}
    (h : mode.next c p = .close o) (start : Position) (raw : String) (stop length : Nat) :
    (o.kind start raw).reach? stop length = some stop := by
  rcases Mode.of_next_close h with ⟨-, ⟨-, rfl⟩ | ⟨-, rfl⟩ | ⟨-, rfl⟩⟩ | ⟨body, -, -, rfl⟩
  · rfl
  · rfl
  · rfl
  · cases body <;> rfl

/-- A token that stops before a character is looked behind by that character. -/
theorem Outcome.reach?_of_stop {mode : Mode} {c : Char} {p : Position} {o : Outcome}
    (h : mode.next c p = .stop o) (start : Position) (raw : String) (stop length : Nat) :
    (o.kind start raw).reach? stop length = some (min length (stop + 1)) := by
  obtain ⟨rfl, hends⟩ := Mode.next_eq_stop_iff.1 h
  cases mode with
  | gap | string body | pair body backslash => cases hends
  | sign s | symbol | comment => rfl
  | number progress => exact reach?_number ..

/-- At the end of the input everything has been taken, whatever ends there. -/
theorem Mode.reach?_atEnd (mode : Mode) (start : Position) (raw : String) (length : Nat) :
    (mode.atEnd.kind start raw).reach? length length = some length := by
  cases mode with
  | gap | string body | pair body backslash => rfl
  | sign s | symbol | comment => simp [atEnd, Outcome.kind, TokenKind.reach?]
  | number progress => simp [atEnd, Outcome.reach?_number]

/-! ## Scans over a text -/

variable {text : List Char} {options : Options}

/-- A step that leaves the cursor over the text, and if it ends with a token has taken no more than
the token needs. No step fails. -/
def Step.Keeps (text : List Char) : Step → Prop
  | .more s => s.cursor.Over text
  | .token t cursor => cursor.Over text ∧ Took text t cursor
  | .failed _ _ => False

theorem keeps_finish {cursor : Cursor} {start : Position} {raw : String} {o : Outcome}
    (h : cursor.Over text)
    (hreach : (o.kind start raw).reach? cursor.position.offset text.length = some cursor.seen) :
    (finish options cursor start raw o).Keeps text := by
  unfold finish
  split
  · exact h
  · exact ⟨h, rfl, cursor.seen, hreach, h.taken_eq⟩

/-- **Every step keeps to the text.** -/
theorem keeps_step {s : Scan} (h : s.cursor.Over text) : (s.step options).Keeps text := by
  obtain ⟨cursor, mode, start, raw⟩ := s
  rcases h.peek with ⟨c, cursor', hpeek, hover⟩ | ⟨cursor', hpeek, hover⟩
  · have hahead := Cursor.ahead_of_peek_char hpeek
    have hpass := hover.pass hahead
    rw [step, hpeek]
    dsimp only
    cases hm : mode.next c cursor'.position with
    | skip => exact hpass
    | take mode' => exact hpass
    | close o =>
      refine keeps_finish hpass ?_
      rw [Outcome.reach?_of_close hm, Cursor.seen_pass]
    | stop o =>
      refine keeps_finish hover ?_
      have hseen : cursor'.seen = cursor'.position.offset + 1 := by rw [Cursor.seen, hahead]
      rw [Outcome.reach?_of_stop hm, ← hseen, Nat.min_eq_right hover.seen_le]
  · have hahead := Cursor.ahead_of_peek_none hpeek
    rw [step, hpeek]
    refine keeps_finish hover ?_
    have hseen : cursor'.seen = cursor'.position.offset := by rw [Cursor.seen, hahead]
    rw [hseen, hover.offset_of_ended hahead, Mode.reach?_atEnd]

theorem keeps_run {s : Scan} (h : s.cursor.Over text) :
    ∃ t cursor, s.run options = (.ok t, cursor) ∧ cursor.Over text ∧ Took text t cursor := by
  fun_induction run options s with
  | case1 s s' hstep ih =>
    have hkeeps : (s.step options).Keeps text := keeps_step h
    rw [hstep] at hkeeps
    exact ih hkeeps
  | case2 s t cursor hstep =>
    have hkeeps : (s.step options).Keeps text := keeps_step h
    rw [hstep] at hkeeps
    exact ⟨t, cursor, rfl, hkeeps⟩
  | case3 s failure cursor hstep =>
    have hkeeps : (s.step options).Keeps text := keeps_step h
    rw [hstep] at hkeeps
    exact hkeeps.elim

end Scan

theorem Lexer.scan_over {text : List Char} {l : Lexer} (h : l.cursor.Over text) :
    ∃ t l', l.scan = (.ok t, l') ∧ l'.cursor.Over text ∧ Took text t l'.cursor := by
  obtain ⟨t, cursor, hrun, hover, htook⟩ :=
    @Scan.keeps_run text l.options (Scan.fresh l.cursor) h
  exact ⟨t, { l with cursor }, by rw [scan, hrun], hover, htook⟩

/-! ## Streams over a text -/

namespace TokenStream

/-- An active stream stands in the text. One that has ended has taken what its last token needs. -/
inductive Over (text : List Char) : TokenStream → Prop
  | active {l : Lexer} : l.cursor.Over text → Over text ⟨l, .active⟩
  | ended {l : Lexer} {terminal : Token} {handedOut : Bool} : Took text terminal l.cursor →
      Over text ⟨l, .ended terminal handedOut⟩

variable {text : List Char} {s : TokenStream}

theorem Over.read (h : s.Over text) :
    s.read.2.Over text ∧ Took text s.read.1 s.read.2.lexer.cursor := by
  cases h with
  | active hover =>
    obtain ⟨t, l', hscan, hover', htook⟩ := Lexer.scan_over hover
    simp only [TokenStream.read, hscan]
    refine ⟨?_, htook⟩
    split
    · exact .ended htook
    · exact .active hover'
  | ended htook => exact ⟨.ended htook, htook⟩

theorem Over.handOut (h : s.Over text) : s.handOut.Over text := by
  cases h with
  | active hover => exact .active hover
  | ended htook => exact .ended htook

theorem lexer_handOut (s : TokenStream) : s.handOut.lexer = s.lexer := by
  unfold TokenStream.handOut
  split <;> rfl

/-- **Every call keeps to the text.** -/
theorem Over.ask (h : s.Over text) (q : Request) :
    (ask q s).2.Over text ∧
      ∀ t, (ask q s).1 = some t → Took text t (ask q s).2.lexer.cursor := by
  obtain ⟨hread, htook⟩ := h.read
  cases q with
  | read =>
    refine ⟨hread, fun t ht => ?_⟩
    cases ht
    exact htook
  | next =>
    simp only [TokenStream.ask, next?]
    split
    · exact ⟨h, fun t ht => by cases ht⟩
    · refine ⟨hread.handOut, fun t ht => ?_⟩
      cases ht
      rw [lexer_handOut]
      exact htook

/-- **A stream looks one character ahead at most.** -/
theorem takes_one_ahead {script : List Part} {text : String} {es : List Event}
    (h : Part.events script = text.toUTF8.data.toList.map .byte ++ es) (hes : Event.Ends es)
    (options : Options) (qs : List Request) :
    ∀ c ∈ (ofReader options (.ofParts script)).calls qs, ∀ t, c.reply = some t →
      Took text.toList t c.after.lexer.cursor := by
  rw [Utf8.toUTF8_eq_encode] at h
  have hstands : (Reader.ofParts script).Stands [] text.toList := ⟨rfl, es, hes, h⟩
  have hover : (ofReader options (.ofParts script)).Over text.toList :=
    .active (.unread rfl rfl hstands)
  intro c hc t ht
  obtain ⟨past, future, hcalls⟩ := List.append_of_mem hc
  have hbefore := (Call.history (fun _ s => s.Over text.toList)
    (fun _ _ q hs => (hs.ask q).1) hover hcalls).1
  rw [eq_make_of_mem_calls hc] at ht ⊢
  exact (hbefore.ask c.request).2 t ht

/-- The letter `λ` in two chunks, and a parenthesis: the letter is a symbol, and the stream has
taken the parenthesis when it hands it out. -/
theorem takes_one_ahead_cut_character :
    Part.events [.chunk 0xCE [], .chunk 0xBB [0x28]] =
        "λ(".toUTF8.data.toList.map .byte ++ [] ∧
      Event.Ends [] ∧
      ∀ c ∈ (ofReader .default (.ofParts [.chunk 0xCE [], .chunk 0xBB [0x28]])).calls
          [.read, .read],
        ∀ t, c.reply = some t → Took "λ(".toList t c.after.lexer.cursor :=
  have hends : Event.Ends [] := trivial
  ⟨rfl, hends, takes_one_ahead rfl hends .default [.read, .read]⟩

end TokenStream

end SexprLex
