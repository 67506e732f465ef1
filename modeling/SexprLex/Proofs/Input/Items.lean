import SexprLex.Input.Cursor
import SexprLex.Proofs.Input.Encoding

/-!
# What a reader and a cursor amount to

Two views of what is still to come.

A reader has still to give some **events**: bytes, ends of input and failing reads, in order.
The events forget how the bytes are divided into chunks and where a read was merely
interrupted, and they determine every answer.

A cursor has still to give some **items**: characters and faults, in order, up to the first end
of input. Whoever reads through a cursor sees its items and nothing else.

* `Reader.events` — the events of a reader.
* `Reader.decode_of_char`, `Reader.events_of_decode_char` — a character is decoded exactly if the
  next events are the bytes of its encoding.
* `Reader.items`, `Cursor.items` — the items of a reader and of a cursor.
* `Cursor.peek_of_items_char`, `Cursor.peek_of_items_nil`, `Cursor.peek_of_items_fault` — looking
  ahead, in terms of items.
-/

namespace SexprLex

/-! ## Events -/

/-- One thing that a reader has to say when it is asked for a byte. -/
inductive Event
  | byte (b : UInt8)
  | endOfInput
  | failure (fault : Fault)
  deriving DecidableEq

/-- What some parts have to say. Interrupted reads say nothing. -/
def Part.events : List Part → List Event
  | [] => []
  | .chunk b bs :: parts => .byte b :: (bs.map .byte ++ events parts)
  | .endOfInput :: parts => .endOfInput :: events parts
  | .failure fault :: parts =>
    if fault.isTransient then events parts else .failure fault :: events parts

/-- The answer to a request for a byte, and the events that are left. -/
def Event.pop : List Event → Answer UInt8 × List Event
  | [] => (.ok none, [])
  | .byte b :: es => (.ok (some b), es)
  | .endOfInput :: es => (.ok none, es)
  | .failure fault :: es => (.error fault, es)

/-- Bytes that have begun a character and ask for more of it. -/
def Utf8.Asks : List UInt8 → Prop
  | [] => False
  | b :: bs => ∃ lead, Lead.ofByte? b = some lead ∧ bs.length < lead.missing ∧
      ∀ b' ∈ bs, (continuation? b').isSome

/-- Whether there is nothing more for now. -/
def Event.Ends : List Event → Prop
  | [] => True
  | .endOfInput :: _ => True
  | .byte _ :: _ => False
  | .failure _ :: _ => False

namespace Reader

/-- What the reader has still to say. -/
def events (r : Reader) : List Event := Part.events r.parts

theorem pop_events (parts : List Part) :
    Event.pop (Part.events parts) = ((askParts parts).1, Part.events (askParts parts).2) := by
  induction parts with
  | nil => rfl
  | cons part parts ih =>
    match part with
    | .chunk b [] => rfl
    | .chunk b (b' :: bs) => rfl
    | .endOfInput => rfl
    | .failure fault =>
      rw [Part.events, askParts]
      by_cases hf : fault.isTransient
      · simp only [hf, if_true]
        exact ih
      · simp only [hf, Bool.false_eq_true, if_false]
        rfl

theorem readByte_eq (r : Reader) :
    ∃ r', r.readByte = ((Event.pop r.events).1, r') ∧ r'.events = (Event.pop r.events).2 := by
  have h := pop_events r.parts
  rw [events, h]
  unfold readByte
  split <;> rename_i hr <;> rw [hr] <;> exact ⟨_, rfl, rfl⟩

theorem readByte_of_byte {r : Reader} {b : UInt8} {es : List Event}
    (h : r.events = .byte b :: es) :
    ∃ r', r.readByte = (.ok (some b), r') ∧ r'.events = es := by
  simpa only [h, Event.pop] using r.readByte_eq

theorem readByte_of_failure {r : Reader} {fault : Fault} {es : List Event}
    (h : r.events = .failure fault :: es) :
    ∃ r', r.readByte = (.error fault, r') ∧ r'.events = es := by
  simpa only [h, Event.pop] using r.readByte_eq

theorem readByte_of_ends {r : Reader} (h : Event.Ends r.events) :
    ∃ r', r.readByte = (.ok none, r') := by
  obtain ⟨r', hr, -⟩ := r.readByte_eq
  have hpop : (Event.pop r.events).1 = .ok none := by
    generalize r.events = es at h
    match es with
    | [] | .endOfInput :: _ => rfl
  exact ⟨r', by rw [hr, hpop]⟩

theorem events_of_readByte {r r' : Reader} {answer : Answer UInt8}
    (h : r.readByte = (answer, r')) : Event.pop r.events = (answer, r'.events) := by
  obtain ⟨r'', hr, he⟩ := r.readByte_eq
  rw [h] at hr
  cases hr
  rw [he]

theorem events_of_readByte_byte {r r' : Reader} {b : UInt8}
    (h : r.readByte = (.ok (some b), r')) : r.events = .byte b :: r'.events := by
  have hp := events_of_readByte h
  match he : r.events with
  | [] => simp [he, Event.pop] at hp
  | .byte b' :: es =>
    simp only [he, Event.pop, Prod.mk.injEq, Except.ok.injEq, Option.some.injEq] at hp
    rw [hp.1, hp.2]
  | .endOfInput :: es => simp [he, Event.pop] at hp
  | .failure fault :: es => simp [he, Event.pop] at hp

theorem events_of_readByte_none {r r' : Reader} (h : r.readByte = (.ok none, r')) :
    r.events = .endOfInput :: r'.events ∨ r.events = [] ∧ r'.events = [] := by
  have hp := events_of_readByte h
  match he : r.events with
  | [] =>
    simp only [he, Event.pop, Prod.mk.injEq, true_and] at hp
    exact Or.inr ⟨rfl, hp.symm⟩
  | .byte b :: es => simp [he, Event.pop] at hp
  | .endOfInput :: es =>
    simp only [he, Event.pop, Prod.mk.injEq, true_and] at hp
    rw [hp]
    exact Or.inl rfl
  | .failure fault :: es => simp [he, Event.pop] at hp

theorem events_of_readByte_fault {r r' : Reader} {fault : Fault}
    (h : r.readByte = (.error fault, r')) : r.events = .failure fault :: r'.events := by
  have hp := events_of_readByte h
  match he : r.events with
  | [] => simp [he, Event.pop] at hp
  | .byte b :: es => simp [he, Event.pop] at hp
  | .endOfInput :: es => simp [he, Event.pop] at hp
  | .failure fault' :: es =>
    simp only [he, Event.pop, Prod.mk.injEq, Except.error.injEq] at hp
    rw [hp.1, hp.2]

/-! ## Decoding, in terms of events -/

/-- Following bytes are gathered whatever is behind them. -/
theorem decodeRest_append (least missing : Nat) {bits code : Nat} {bs : List UInt8}
    {es : List Event} {r : Reader} (hg : Utf8.gather bits bs = some code)
    (h : r.events = bs.map .byte ++ es) :
    ∃ r', r'.events = es ∧
      decodeRest least (bs.length + missing) bits r = decodeRest least missing code r' := by
  induction bs generalizing bits r with
  | nil =>
    cases hg
    exact ⟨r, h, by rw [List.length_nil, Nat.zero_add]⟩
  | cons b bs ih =>
    obtain ⟨six, hsix, hg⟩ := Utf8.gather_cons_eq_some.1 hg
    obtain ⟨r₁, hr, he⟩ := readByte_of_byte h
    obtain ⟨r', he', hr'⟩ := ih hg he
    refine ⟨r', he', ?_⟩
    rw [List.length_cons, Nat.add_right_comm, decodeRest, hr]
    simp only [hsix, hr']

theorem decode_of_lead {r : Reader} {b : UInt8} {lead : Utf8.Lead} {bs : List UInt8} {code : Nat}
    {es : List Event} (missing : Nat) (hb : Utf8.Lead.ofByte? b = some lead)
    (hlen : bs.length + missing = lead.missing) (hg : Utf8.gather lead.bits bs = some code)
    (h : r.events = (b :: bs).map .byte ++ es) :
    ∃ r', r'.events = es ∧ r.decode = decodeRest lead.least missing code r' := by
  obtain ⟨r₁, hr, he⟩ := readByte_of_byte h
  obtain ⟨r', he', hr'⟩ := decodeRest_append lead.least missing hg he
  exact ⟨r', he', by simp only [decode, hr, hb, ← hlen, hr']⟩

/-- **Decoding is complete.** The encoding of a character is decoded. -/
theorem decode_of_char {r : Reader} {c : Char} {es : List Event}
    (h : r.events = (String.utf8EncodeChar c).map .byte ++ es) :
    ∃ r', r.decode = (.ok (some c), r') ∧ r'.events = es := by
  obtain ⟨b, bs, lead, hc, hb, hlen, hle, hg⟩ := Utf8.exists_lead c
  obtain ⟨r', he, hr⟩ := decode_of_lead 0 hb hlen hg (hc ▸ h)
  exact ⟨r', by rw [hr, decodeRest, Utf8.scalar?_toNat hle], he⟩

theorem events_of_decodeRest_char {least missing bits : Nat} {c : Char} {r r' : Reader}
    (h : decodeRest least missing bits r = (.ok (some c), r')) :
    ∃ bs, bs.length = missing ∧ least ≤ c.toNat ∧ Utf8.gather bits bs = some c.toNat ∧
      r.events = bs.map .byte ++ r'.events := by
  induction missing generalizing bits r with
  | zero =>
    rw [decodeRest] at h
    split at h
    · next hc =>
      cases h
      obtain ⟨hcode, hle⟩ := Utf8.of_scalar?_eq_some hc
      exact ⟨[], rfl, hcode ▸ hle, by rw [Utf8.gather, hcode], rfl⟩
    · cases h
  | succ missing ih =>
    rw [decodeRest] at h
    split at h
    · cases h
    · cases h
    · next b r₁ hr =>
      split at h
      · next six hsix =>
        obtain ⟨bs, hlen, hle, hg, he⟩ := ih h
        refine ⟨b :: bs, by simp [hlen], hle, Utf8.gather_cons_eq_some.2 ⟨six, hsix, hg⟩, ?_⟩
        rw [events_of_readByte_byte hr, he]
        rfl
      · cases h

/-- **Decoding is sound.** Where a character is decoded there was its encoding. -/
theorem events_of_decode_char {r r' : Reader} {c : Char} (h : r.decode = (.ok (some c), r')) :
    r.events = (String.utf8EncodeChar c).map .byte ++ r'.events := by
  rw [decode] at h
  split at h
  · cases h
  · cases h
  · next b r₁ hr =>
    split at h
    · next lead hb =>
      obtain ⟨bs, hlen, hle, hg, he⟩ := events_of_decodeRest_char h
      rw [Utf8.encode_eq hb hlen hle hg, events_of_readByte_byte hr, he]
      rfl
    · cases h

theorem decodeRest_ne_none {least missing bits : Nat} {r r' : Reader} :
    decodeRest least missing bits r ≠ (.ok none, r') := by
  intro h
  induction missing generalizing bits r with
  | zero =>
    rw [decodeRest] at h
    split at h <;> cases h
  | succ missing ih =>
    rw [decodeRest] at h
    split at h
    · cases h
    · cases h
    · split at h
      · exact ih h
      · cases h

/-- An end of input is met only between characters. -/
theorem readByte_of_decode_none {r r' : Reader} (h : r.decode = (.ok none, r')) :
    r.readByte = (.ok none, r') := by
  rw [decode] at h
  split at h
  · cases h
  · next hr =>
    cases h
    exact hr
  · split at h
    · exact absurd h decodeRest_ne_none
    · cases h

theorem decode_of_readByte_none {r r' : Reader} (h : r.readByte = (.ok none, r')) :
    r.decode = (.ok none, r') := by
  rw [decode, h]

theorem decode_of_failure {r : Reader} {fault : Fault} {es : List Event}
    (h : r.events = .failure fault :: es) :
    ∃ r', r.decode = (.error fault, r') ∧ r'.events = es := by
  obtain ⟨r', hr, he⟩ := readByte_of_failure h
  exact ⟨r', by rw [decode, hr], he⟩

/-! ## Items -/

end Reader

/-- A character, or a fault met in its place. -/
abbrev Item := Except Fault Char

/-- All characters among some items. -/
def Item.characters (items : List Item) : List Char := items.filterMap Except.toOption

theorem Item.characters_append (w : List Char) (items : List Item) :
    characters (w.map .ok ++ items) = w ++ characters items := by
  rw [characters, List.filterMap_append, List.filterMap_map]
  congr 1
  exact List.filterMap_some

namespace Reader

/-- All characters and faults of a reader, up to its first end of input. -/
def items (r : Reader) : List Item :=
  match _h : r.decode with
  | (.ok (some c), r') => .ok c :: items r'
  | (.ok none, _) => []
  | (.error fault, r') => .error fault :: items r'
termination_by r.remaining
decreasing_by all_goals exact remaining_decode ‹r.decode = _›

theorem items_of_char {r r' : Reader} {c : Char} (h : r.decode = (.ok (some c), r')) :
    r.items = .ok c :: r'.items := by
  rw [items]
  split <;> simp_all

theorem items_of_none {r r' : Reader} (h : r.decode = (.ok none, r')) : r.items = [] := by
  rw [items]
  split <;> simp_all

theorem items_of_fault {r r' : Reader} {fault : Fault} (h : r.decode = (.error fault, r')) :
    r.items = .error fault :: r'.items := by
  rw [items]
  split <;> simp_all

theorem items_of_text {r : Reader} {text : List Char} {es : List Event}
    (h : r.events = (Utf8.encode text).map .byte ++ es) :
    ∃ r' : Reader, r.items = text.map .ok ++ r'.items ∧ r'.events = es := by
  induction text generalizing r with
  | nil => exact ⟨r, rfl, h⟩
  | cons c text ih =>
    rw [Utf8.encode_cons, List.map_append, List.append_assoc] at h
    obtain ⟨r₁, hr, he⟩ := decode_of_char h
    obtain ⟨r', hi, he'⟩ := ih he
    exact ⟨r', by rw [items_of_char hr, hi, List.map_cons, List.cons_append], he'⟩

theorem items_of_ends {r : Reader} (h : Event.Ends r.events) : r.items = [] := by
  obtain ⟨r', hr⟩ := readByte_of_ends h
  exact items_of_none (decode_of_readByte_none hr)

theorem exists_events_ofBytes (bytes : List UInt8) :
    ∃ es, Event.Ends es ∧ (ofBytes bytes).events = bytes.map .byte ++ es := by
  cases bytes with
  | nil => exact ⟨[.endOfInput], trivial, rfl⟩
  | cons b bs => exact ⟨[], trivial, rfl⟩

/-- A reader of a text has its characters and nothing else. -/
theorem items_ofText (text : String) : (ofText text).items = text.toList.map .ok := by
  rw [ofText, Utf8.toUTF8_eq_encode]
  obtain ⟨es, hes, hev⟩ := exists_events_ofBytes (Utf8.encode text.toList)
  obtain ⟨r', hi, he⟩ := items_of_text hev
  rw [hi, items_of_ends (he ▸ hes), List.append_nil]

theorem failure_notMem_ofBytes (bytes : List UInt8) (fault : Fault) :
    .failure fault ∉ (ofBytes bytes).events := by
  cases bytes <;> simp [ofBytes, ofParts, events, Part.ofBytes, Part.events]

end Reader

namespace Cursor

/-- All characters and faults that are before a cursor, up to the end of the input. -/
def items (s : Cursor) : List Item :=
  match s.ahead with
  | .char c => .ok c :: s.reader.items
  | .ended => []
  | .unread => s.reader.items

@[simp] theorem items_ofReader (r : Reader) : (ofReader r).items = r.items := rfl

@[simp] theorem position_ofReader (r : Reader) : (ofReader r).position = .start := rfl

@[simp] theorem position_pass (s : Cursor) (c : Char) :
    (s.pass c).position = s.position.advance c := rfl

theorem peek_of_items_char {s : Cursor} {c : Char} {items : List Item}
    (h : s.items = .ok c :: items) :
    ∃ s', s.peek = (.ok (some c), s') ∧ s'.position = s.position ∧ s'.items = .ok c :: items ∧
      (s'.pass c).items = items := by
  unfold Cursor.items at h
  split at h
  · next c' ha =>
    cases h
    exact ⟨s, peek_of_char ha, rfl, by rw [Cursor.items, ha], rfl⟩
  · cases h
  · next ha =>
    rw [peek, ha]
    dsimp only
    split
    · next c' r' hr =>
      rw [Reader.items_of_char hr] at h
      cases h
      exact ⟨_, rfl, rfl, rfl, rfl⟩
    · next hr =>
      rw [Reader.items_of_none hr] at h
      cases h
    · next hr =>
      rw [Reader.items_of_fault hr] at h
      cases h

theorem peek_of_items_nil {s : Cursor} (h : s.items = []) :
    ∃ s', s.peek = (.ok none, s') ∧ s'.position = s.position ∧ s'.items = [] := by
  unfold Cursor.items at h
  split at h
  · cases h
  · next ha => exact ⟨s, peek_of_ended ha, rfl, by rw [Cursor.items, ha]⟩
  · next ha =>
    rw [peek, ha]
    dsimp only
    split
    · next hr =>
      rw [Reader.items_of_char hr] at h
      cases h
    · exact ⟨_, rfl, rfl, rfl⟩
    · next hr =>
      rw [Reader.items_of_fault hr] at h
      cases h

theorem peek_of_items_fault {s : Cursor} {fault : Fault} {items : List Item}
    (h : s.items = .error fault :: items) :
    ∃ s', s.peek = (.error fault, s') ∧ s'.position = s.position ∧ s'.items = items := by
  unfold Cursor.items at h
  split at h
  · cases h
  · cases h
  · next ha =>
    rw [peek, ha]
    dsimp only
    split
    · next hr =>
      rw [Reader.items_of_char hr] at h
      cases h
    · next hr =>
      rw [Reader.items_of_none hr] at h
      cases h
    · next fault' r' hr =>
      rw [Reader.items_of_fault hr] at h
      cases h
      exact ⟨_, rfl, rfl, by simp only [Cursor.items]⟩

theorem advance_of_items_char {s : Cursor} {c : Char} {items : List Item}
    (h : s.items = .ok c :: items) :
    ∃ s', s.advance = (.ok (some c), s') ∧ s'.position = s.position.advance c ∧
      s'.items = items := by
  obtain ⟨s₁, hs, hp, -, hi⟩ := peek_of_items_char h
  exact ⟨s₁.pass c, by rw [advance, hs], by rw [position_pass, hp], hi⟩

theorem advance_of_items_nil {s : Cursor} (h : s.items = []) :
    ∃ s', s.advance = (.ok none, s') ∧ s'.position = s.position ∧ s'.items = [] := by
  obtain ⟨s', hs, hp, hi⟩ := peek_of_items_nil h
  exact ⟨s', by rw [advance, hs], hp, hi⟩

theorem advance_of_items_fault {s : Cursor} {fault : Fault} {items : List Item}
    (h : s.items = .error fault :: items) :
    ∃ s', s.advance = (.error fault, s') ∧ s'.position = s.position ∧ s'.items = items := by
  obtain ⟨s', hs, hp, hi⟩ := peek_of_items_fault h
  exact ⟨s', by rw [advance, hs], hp, hi⟩

end Cursor

end SexprLex
