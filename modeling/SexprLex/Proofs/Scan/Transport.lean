import SexprLex.Proofs.Calls
import SexprLex.Proofs.Scan.Reading

/-!
# How bytes are delivered plays no part

A reader may deliver its bytes in many small chunks or in a few large ones, and reads may be
interrupted anywhere between them. Two scripts are the same when they agree once the interrupted
reads are left out and neighbouring chunks are joined (`Part.merge`).

**Theorem (`alike_of_merge_eq`).** With the same script a cursor, a lexer and a token stream
answer the same requests alike: after every call the reply, the position and the number of bytes
taken are equal. And a stream over the bytes of a text, in whatever chunks, collects the tokens of
the text.

The proof replaces the parts of a reader by their merged form and shows that every operation, from
reading a byte up to handing out a token, **commutes** with this: it gives the same reply and leads
to the merged form of the state it would lead to. The number of bytes taken and the position are no
part of the parts, and stay.
-/

namespace SexprLex

/-! ## Merged scripts -/

namespace Part

/-- A chunk before some parts, joined with the first of them if that is a chunk as well. -/
def join (b : UInt8) (bs : List UInt8) : List Part → List Part
  | .chunk b' bs' :: parts => .chunk b (bs ++ b' :: bs') :: parts
  | parts => .chunk b bs :: parts

/-- The parts without interrupted reads, with neighbouring chunks joined. -/
def merge : List Part → List Part
  | [] => []
  | .chunk b bs :: parts => join b bs (merge parts)
  | .endOfInput :: parts => .endOfInput :: merge parts
  | .failure fault :: parts =>
    if fault.isTransient then merge parts else .failure fault :: merge parts

end Part

namespace Reader

theorem askParts_join_nil (b : UInt8) (parts : List Part) :
    askParts (Part.join b [] parts) = (.ok (some b), parts) := by
  unfold Part.join
  split <;> rfl

theorem askParts_join_cons (b b' : UInt8) (bs : List UInt8) (parts : List Part) :
    askParts (Part.join b (b' :: bs) parts) = (.ok (some b), Part.join b' bs parts) := by
  unfold Part.join
  split <;> rfl

/-- Merged parts answer as the parts do, and merged parts are left. -/
theorem askParts_merge (parts : List Part) :
    askParts (Part.merge parts) = ((askParts parts).1, Part.merge (askParts parts).2) := by
  induction parts with
  | nil => rfl
  | cons part parts ih =>
    match part with
    | .chunk b [] => exact askParts_join_nil b _
    | .chunk b (b' :: bs) => exact askParts_join_cons b b' bs _
    | .endOfInput => rfl
    | .failure fault =>
      -- An interrupted read is missing on the left and tried again on the right.
      rw [Part.merge, askParts]
      by_cases hf : fault.isTransient = true
      · rw [if_pos hf, if_pos hf]
        exact ih
      · rw [if_neg hf, if_neg hf, askParts, if_neg hf]

/-- The reader with its parts merged. -/
def merged (r : Reader) : Reader := { r with parts := Part.merge r.parts }

theorem readByte_merged (r : Reader) :
    r.merged.readByte = (r.readByte.1, r.readByte.2.merged) := by
  rw [readByte, readByte, merged, askParts_merge]
  rcases askParts r.parts with ⟨fault | _ | b, parts⟩ <;> rfl

theorem decodeRest_merged (least missing bits : Nat) (r : Reader) :
    decodeRest least missing bits r.merged =
      ((decodeRest least missing bits r).1, (decodeRest least missing bits r).2.merged) := by
  induction missing generalizing bits r with
  | zero =>
    rw [decodeRest, decodeRest]
    cases Utf8.scalar? least bits <;> rfl
  | succ missing ih =>
    rw [decodeRest, decodeRest, readByte_merged]
    rcases r.readByte with ⟨fault | _ | b, r₁⟩
    · rfl
    · rfl
    · dsimp only
      cases Utf8.continuation? b with
      | none => rfl
      | some six => exact ih _ r₁

theorem decode_merged (r : Reader) : r.merged.decode = (r.decode.1, r.decode.2.merged) := by
  rw [decode, decode, readByte_merged]
  rcases r.readByte with ⟨fault | _ | b, r₁⟩
  · rfl
  · rfl
  · dsimp only
    cases Utf8.Lead.ofByte? b with
    | none => rfl
    | some lead => exact decodeRest_merged _ _ _ r₁

end Reader

/-! ## Cursors -/

namespace Cursor

/-- The cursor with the parts of its reader merged. -/
def merged (s : Cursor) : Cursor := { s with reader := s.reader.merged }

theorem peek_merged (s : Cursor) : s.merged.peek = (s.peek.1, s.peek.2.merged) := by
  obtain ⟨reader, ahead, position⟩ := s
  rw [peek, peek, merged]
  cases ahead with
  | char c => rfl
  | ended => rfl
  | unread =>
    dsimp only
    rw [Reader.decode_merged]
    rcases reader.decode with ⟨fault | _ | c, r₁⟩ <;> rfl

theorem ask_merged (q : Request) (s : Cursor) :
    ask q s.merged = ((ask q s).1, (ask q s).2.merged) := by
  cases q with
  | peek => rw [ask, ask, peek_merged]
  | advance =>
    rw [ask, ask, advance, advance, peek_merged]
    rcases s.peek with ⟨fault | _ | c, s₁⟩ <;> rfl
  | atEnd =>
    rw [ask, ask, atEnd, atEnd, peek_merged]
    rcases s.peek with ⟨fault | c?, s₁⟩ <;> rfl

end Cursor

/-! ## Scans -/

namespace Scan

/-- The scan with the parts of its reader merged. -/
def merged (s : Scan) : Scan := { s with cursor := s.cursor.merged }

/-- A step that leads to the same with the parts of the reader merged. -/
def Step.merged : Step → Step
  | .more s => .more s.merged
  | .token t cursor => .token t cursor.merged
  | .failed failure cursor => .failed failure cursor.merged

theorem finish_merged (options : Options) (cursor : Cursor) (start : Position) (raw : String)
    (o : Outcome) :
    finish options cursor.merged start raw o = (finish options cursor start raw o).merged := by
  unfold finish
  split <;> rfl

theorem step_merged (options : Options) (s : Scan) :
    s.merged.step options = (s.step options).merged := by
  obtain ⟨cursor, mode, start, raw⟩ := s
  rw [step, merged, step, Cursor.peek_merged]
  rcases cursor.peek with ⟨fault | _ | c, cursor₁⟩
  · rfl
  · exact finish_merged ..
  · dsimp only
    rw [show cursor₁.merged.position = cursor₁.position from rfl]
    cases mode.next c cursor₁.position with
    | skip => rfl
    | take mode => rfl
    | close o => exact finish_merged options (cursor₁.pass c) start (raw.push c) o
    | stop o => exact finish_merged ..

theorem run_merged (options : Options) (s : Scan) :
    s.merged.run options = ((s.run options).1, (s.run options).2.merged) := by
  fun_induction run options s with
  | case1 s s' h ih =>
    have hstep : s.merged.step options = .more s'.merged := by
      rw [step_merged, h]
      rfl
    rw [run_of_more hstep, ih]
  | case2 s t cursor h => exact run_of_token (by rw [step_merged, h]; rfl)
  | case3 s failure cursor h => exact run_of_failed (by rw [step_merged, h]; rfl)

end Scan

/-! ## Lexers and token streams -/

namespace Lexer

/-- The lexer with the parts of its reader merged. -/
def merged (l : Lexer) : Lexer := { l with cursor := l.cursor.merged }

theorem scan_merged (l : Lexer) : l.merged.scan = (l.scan.1, l.scan.2.merged) := by
  have hrun := Scan.run_merged l.options (Scan.fresh l.cursor)
  rw [scan, scan]
  dsimp only
  rw [show Scan.fresh l.merged.cursor = (Scan.fresh l.cursor).merged from rfl,
    show l.merged.options = l.options from rfl, hrun]
  rfl

theorem ask_merged (q : Request) (l : Lexer) :
    ask q l.merged = ((ask q l).1, (ask q l).2.merged) := by
  cases q
  exact scan_merged l

end Lexer

namespace TokenStream

/-- The stream with the parts of its reader merged. -/
def merged (s : TokenStream) : TokenStream := { s with lexer := s.lexer.merged }

theorem read_merged (s : TokenStream) : s.merged.read = (s.read.1, s.read.2.merged) := by
  obtain ⟨lexer, phase⟩ := s
  rw [read, read, merged]
  cases phase with
  | ended terminal handedOut => rfl
  | active =>
    dsimp only
    rw [Lexer.scan_merged]
    rcases lexer.scan with ⟨failure | t, l₁⟩ <;> rfl

theorem handOut_merged (s : TokenStream) : s.merged.handOut = s.handOut.merged := by
  obtain ⟨lexer, phase⟩ := s
  cases phase <;> rfl

theorem next?_merged (s : TokenStream) : s.merged.next? = (s.next?.1, s.next?.2.merged) := by
  rw [next?, next?, show s.merged.isExhausted = s.isExhausted from rfl]
  split
  · rfl
  · rw [read_merged]
    dsimp only
    rw [handOut_merged]

theorem ask_merged (q : Request) (s : TokenStream) :
    ask q s.merged = ((ask q s).1, (ask q s).2.merged) := by
  cases q with
  | read => rw [ask, ask, read_merged]
  | next => exact next?_merged s

end TokenStream

/-! ## What can be seen -/

/-- What can be seen after a call. -/
structure Seen (α : Type) where
  reply : α
  position : Position
  taken : Nat

/-- What can be seen after a call on a state with this cursor. -/
def Call.seen {ρ α σ : Type} (cursor : σ → Cursor) (c : Call ρ α σ) : Seen α :=
  ⟨c.reply, (cursor c.after).position, (cursor c.after).reader.taken⟩

/-- Whatever reads the two scripts, and whatever it is asked, the same is seen. -/
structure Alike (script script' : List Part) : Prop where
  cursor : ∀ qs : List Cursor.Request,
    ((Cursor.ofReader (.ofParts script)).calls qs).map (Call.seen id) =
      ((Cursor.ofReader (.ofParts script')).calls qs).map (Call.seen id)
  lexer : ∀ (options : Options) (qs : List Lexer.Request),
    ((Lexer.ofReader options (.ofParts script)).calls qs).map (Call.seen Lexer.cursor) =
      ((Lexer.ofReader options (.ofParts script')).calls qs).map (Call.seen Lexer.cursor)
  stream : ∀ (options : Options) (qs : List TokenStream.Request),
    ((TokenStream.ofReader options (.ofParts script)).calls qs).map
        (Call.seen fun s => s.lexer.cursor) =
      ((TokenStream.ofReader options (.ofParts script')).calls qs).map
        (Call.seen fun s => s.lexer.cursor)

/-- With its parts merged, the same is seen of a state. -/
theorem map_seen_merged {ρ α σ : Type} {ask : ρ → σ → α × σ} {merged : σ → σ}
    {cursor : σ → Cursor} (hask : ∀ q s, ask q (merged s) = ((ask q s).1, merged (ask q s).2))
    (hcursor : ∀ s, cursor (merged s) = (cursor s).merged) (s : σ) (qs : List ρ) :
    (calls ask (merged s) qs).map (Call.seen cursor) =
      (calls ask s qs).map (Call.seen cursor) := by
  rw [map_calls hask, List.map_map]
  refine List.map_congr_left fun c _ => ?_
  simp only [Function.comp_apply, Call.seen, Call.map, hcursor]
  rfl

theorem alike_merge (script : List Part) : Alike (Part.merge script) script where
  cursor qs := map_seen_merged Cursor.ask_merged (fun _ => rfl) (.ofReader (.ofParts script)) qs
  lexer options qs :=
    map_seen_merged Lexer.ask_merged (fun _ => rfl) (.ofReader options (.ofParts script)) qs
  stream options qs :=
    map_seen_merged TokenStream.ask_merged (fun _ => rfl) (.ofReader options (.ofParts script)) qs

theorem events_map_ofBytes {chunks : List (List UInt8)} (h : [] ∉ chunks) :
    Part.events (chunks.map .ofBytes) = chunks.flatten.map .byte := by
  induction chunks with
  | nil => rfl
  | cons bs chunks ih =>
    rw [List.mem_cons, not_or] at h
    cases bs with
    | nil => exact absurd rfl h.1
    | cons b bs =>
      rw [List.map_cons, Part.ofBytes, Part.events, ih h.2]
      simp

/-- The chunks of a text, however it is cut, are read as the text. -/
theorem collect_of_chunks (options : Options) {text : String} {chunks : List (List UInt8)}
    (h : [] ∉ chunks) (htext : chunks.flatten = text.toUTF8.data.toList) :
    (TokenStream.ofReader options (.ofParts (chunks.map .ofBytes))).collect.1 =
      tokenize options text := by
  have hevents : (Reader.ofParts (chunks.map .ofBytes)).events =
      (Utf8.encode text.toList).map .byte ++ [] := by
    rw [List.append_nil, ← Utf8.toUTF8_eq_encode, ← htext]
    exact events_map_ofBytes h
  obtain ⟨r, hi, he⟩ := Reader.items_of_text hevents
  have hnil : r.items = [] := Reader.items_of_ends (he ▸ trivial)
  rw [hnil, List.append_nil] at hi
  obtain ⟨ts, hl⟩ := Scan.exists_lexes options.emitComments .start (text.toList.map .ok)
  rw [tokenize_of_lexes hl]
  exact TokenStream.collect_of_lexes hl rfl hi rfl

/-- **Transport plays no part.** -/
theorem alike_of_merge_eq {script script' : List Part}
    (h : Part.merge script = Part.merge script') :
    Alike script script' ∧ ∀ (options : Options) (text : String) (chunks : List (List UInt8)),
      [] ∉ chunks → chunks.flatten = text.toUTF8.data.toList →
      (TokenStream.ofReader options (.ofParts (chunks.map .ofBytes))).collect.1 =
        tokenize options text := by
  have hscript := alike_merge script
  have hscript' := alike_merge script'
  rw [h] at hscript
  refine ⟨⟨?_, ?_, ?_⟩, fun options text chunks => collect_of_chunks options⟩
  · exact fun qs => (hscript.cursor qs).symm.trans (hscript'.cursor qs)
  · exact fun options qs => (hscript.lexer options qs).symm.trans (hscript'.lexer options qs)
  · exact fun options qs => (hscript.stream options qs).symm.trans (hscript'.stream options qs)

/-- The letter `λ`, an end of input and a failing read: in two chunks and interrupted between them,
or in one. -/
theorem alike_cut_character :
    Part.merge [.chunk 0xCE [], .failure ⟨.interrupted, ""⟩, .chunk 0xBB [0x61], .endOfInput,
        .failure ⟨.interrupted, "again"⟩, .failure ⟨.other, "gone"⟩] =
      Part.merge [.chunk 0xCE [0xBB, 0x61], .endOfInput, .failure ⟨.other, "gone"⟩] ∧
    Alike [.chunk 0xCE [], .failure ⟨.interrupted, ""⟩, .chunk 0xBB [0x61], .endOfInput,
        .failure ⟨.interrupted, "again"⟩, .failure ⟨.other, "gone"⟩]
      [.chunk 0xCE [0xBB, 0x61], .endOfInput, .failure ⟨.other, "gone"⟩] :=
  ⟨rfl, And.left (alike_of_merge_eq (by rfl))⟩

end SexprLex
