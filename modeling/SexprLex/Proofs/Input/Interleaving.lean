import SexprLex.Proofs.Calls
import SexprLex.Proofs.Input.Script

/-!
# Asking a cursor in any order

A cursor is asked to look ahead, to pass a character or whether the input ends, in any order. None
of its items gets lost and none comes twice.

**Theorem (`Cursor.interleaving`).** For every reader and all requests, the items of the reader are
what its script is decoded to, as `Reader.Decoded` says, and the calls keep to them, as
`Cursor.Faithful` says: what the calls take off the input is a beginning of the items, in order; a
character seen ahead is the next one passed; and the end of the input, once reported, stays.

Every request begins by looking ahead, so the items before the cursor settle what one call does: it
takes the first one or leaves all where they are (`Cursor.items_eq`). The rest is by induction over
the calls.
-/

namespace SexprLex

/-! ## What a script is decoded to -/

namespace Reader

/-- The items `d` are what the script of a reader is decoded to. -/
structure Decoded (r : Reader) (d : List Item) : Prop where
  /-- They and no others follow from the rules. -/
  items_iff : ∀ d', Event.DecodesTo r.events d' ↔ d = d'
  /-- Without a failing read between two characters the script gives the same items without its
  fault. -/
  boundary : ∀ (pre post : List Part) (f : Fault) (before : List Item),
    r.parts = pre ++ .failure f :: post → f.isTransient = false →
    Event.Decodes r.events before (.failure f :: Part.events post) →
    ∃ after, d = before ++ .error f :: after ∧
      Event.DecodesTo (Part.events (pre ++ post)) (before ++ after)
  /-- A fault uses up bytes of one character and the event that shows it, and decoding goes on
  behind them. -/
  inside : ∀ (before after : List Item) (f : Fault), d = before ++ .error f :: after →
    ∃ bs last rest, Event.Decodes r.events before (bs.map .byte ++ last ++ rest) ∧
      Event.UsesUp f bs last ∧ Event.DecodesTo rest after

theorem events_parts_append (pre post : List Part) :
    Part.events (pre ++ post) = Part.events pre ++ Part.events post := by
  induction pre with
  | nil => rfl
  | cons part pre ih =>
    cases part with
    | chunk b bs => simp [Part.events, ih]
    | endOfInput => simp [Part.events, ih]
    | failure f =>
      rw [List.cons_append, Part.events, Part.events, ih]
      split <;> rfl

theorem decoded_items (r : Reader) : r.Decoded r.items where
  items_iff _ := decodesTo_iff
  boundary pre post f before hparts hf hd := by
    have hevents : r.events = Part.events pre ++ .failure f :: Part.events post := by
      rw [events, hparts, events_parts_append, Part.events, hf]
      rfl
    obtain ⟨r₁, hi₁, he₁⟩ := items_of_decodes hd rfl
    obtain ⟨r₂, hr₂, he₂⟩ := decode_of_failure he₁
    -- What comes before the failing read is decoded with anything behind it.
    obtain ⟨used, hused, hframe⟩ := hd.frame (List.cons_ne_nil _ _)
    obtain rfl := List.append_cancel_right (hevents.symm.trans hused)
    obtain ⟨rest, hrest, hends⟩ := decodesTo_items r₂
    refine ⟨r₂.items, by rw [hi₁, items_of_fault hr₂], rest, ?_, hends⟩
    rw [events_parts_append]
    exact (hframe _).append (he₂ ▸ hrest)
  inside before after f hd := by
    obtain ⟨rest', hdecodes, hends⟩ := decodesTo_items r
    rw [hd] at hdecodes
    obtain ⟨es, rest, hbefore, hfault, hafter⟩ := hdecodes.exists_fault
    obtain ⟨bs, last, rfl, hused⟩ := hfault.exists_used
    exact ⟨bs, last, rest, hbefore, hused, rest', hafter, hends⟩

end Reader

/-! ## What the calls are -/

namespace Cursor

/-- Whether the end of the input is reported. -/
def Reply.saysEnd : Reply → Bool
  | .char c? => c?.isNone
  | .ends b => b
  | .fault _ => false

/-- The character that a call passes. -/
def Call.passed? (c : Call) : Option Char :=
  match c.request, c.reply with
  | .advance, .char c? => c?
  | _, _ => none

/-- The item that a call takes off the input: the character that it passes, or the fault that it
returns. -/
def Call.taken? (c : Call) : Option Item :=
  match c.reply with
  | .fault f => some (.error f)
  | _ => c.passed?.map .ok

/-- The calls keep to the items `d`. -/
structure Faithful (d : List Item) (cs : List Call) : Prop where
  /-- What they take are the first of the items, in order, each once. -/
  taken : cs.filterMap Call.taken? <+: d
  /-- So they pass the first of the characters. -/
  passed : cs.filterMap Call.passed? <+: Item.characters d
  /-- When the end is reported all items have been taken. -/
  complete : (∃ c ∈ cs, c.reply.saysEnd = true) → cs.filterMap Call.taken? = d
  /-- It is reported as soon as there are more requests to advance than items. -/
  reaches : d.length < cs.countP (·.request = .advance) → ∃ c ∈ cs, c.reply.saysEnd = true
  /-- What is seen ahead is what is passed next. -/
  foreseen : ∀ (past between future : List Call) (p q : Call) (c? : Option Char),
    cs = past ++ p :: (between ++ q :: future) → p.request = .peek → p.reply = .char c? →
    (∀ c ∈ between, c.request ≠ .advance) → q.request = .advance → q.reply = .char c?
  /-- A fault leaves the position where it was. -/
  position_eq : ∀ c ∈ cs, ∀ f, c.reply = .fault f → c.after.position = c.before.position
  /-- Once the end is reported, it is reported by every later call, and the cursor and its reader
  stay as they are. -/
  ended : cs.Pairwise fun a b => a.reply.saysEnd = true →
    b.reply.saysEnd = true ∧ b.after = a.after

/-! ## What one call does -/

theorem ask_of_peek_char {s s' : Cursor} {c : Char} (h : s.peek = (.ok (some c), s'))
    (q : Request) : ask q s = match q with
      | .peek => (.char (some c), s')
      | .advance => (.char (some c), s'.pass c)
      | .atEnd => (.ends false, s') := by
  cases q with
  | peek => rw [ask, h]; rfl
  | advance => rw [ask, advance, h]; rfl
  | atEnd => rw [ask, atEnd, h]; rfl

theorem ask_of_peek_none {s s' : Cursor} (h : s.peek = (.ok none, s')) (q : Request) :
    (ask q s).1.saysEnd = true ∧ (ask q s).2 = s' := by
  cases q with
  | peek => rw [ask, h]; exact ⟨rfl, rfl⟩
  | advance => rw [ask, advance, h]; exact ⟨rfl, rfl⟩
  | atEnd => rw [ask, atEnd, h]; exact ⟨rfl, rfl⟩

theorem ask_of_peek_fault {s s' : Cursor} {f : Fault} (h : s.peek = (.error f, s'))
    (q : Request) : ask q s = (.fault f, s') := by
  cases q with
  | peek => rw [ask, h]; rfl
  | advance => rw [ask, advance, h]; rfl
  | atEnd => rw [ask, atEnd, h]; rfl

theorem taken?_of_saysEnd {c : Call} (h : c.reply.saysEnd = true) : c.taken? = none := by
  obtain ⟨q, reply, before, after⟩ := c
  cases reply with
  | fault f => cases h
  | ends b => cases q <;> rfl
  | char c? =>
    cases c? with
    | some c => cases h
    | none => cases q <;> rfl

/-- A call takes the first item or leaves all of them, and it reports the end where there is
none. -/
theorem items_eq (s : Cursor) (q : Request) :
    s.items = (Call.taken? (.make ask s q)).toList ++ (ask q s).2.items ∧
      ((ask q s).1.saysEnd = true ↔ s.items = []) := by
  match hs : s.items with
  | [] =>
    obtain ⟨s', hp, -, hi⟩ := peek_of_items_nil hs
    obtain ⟨hend, hs'⟩ := ask_of_peek_none hp q
    rw [hs', hi, taken?_of_saysEnd hend]
    exact ⟨rfl, fun _ => rfl, fun _ => hend⟩
  | .ok c :: items =>
    obtain ⟨s', hp, -, hi, hi'⟩ := peek_of_items_char hs
    rw [Call.make, ask_of_peek_char hp]
    cases q with
    | peek => exact ⟨hi.symm, by simp [Reply.saysEnd]⟩
    | advance => exact ⟨congrArg _ hi'.symm, by simp [Reply.saysEnd]⟩
    | atEnd => exact ⟨hi.symm, by simp [Reply.saysEnd]⟩
  | .error f :: items =>
    obtain ⟨s', hp, -, hi⟩ := peek_of_items_fault hs
    rw [Call.make, ask_of_peek_fault hp]
    exact ⟨congrArg _ hi.symm, by simp [Reply.saysEnd]⟩

theorem items_ask_advance (s : Cursor) : (ask .advance s).2.items = s.items.tail := by
  match hs : s.items with
  | [] =>
    obtain ⟨s', ha, -, hi⟩ := advance_of_items_nil hs
    rw [ask, ha, hi]
    rfl
  | .ok c :: items =>
    obtain ⟨s', ha, -, hi⟩ := advance_of_items_char hs
    rw [ask, ha, hi]
    rfl
  | .error f :: items =>
    obtain ⟨s', ha, -, hi⟩ := advance_of_items_fault hs
    rw [ask, ha, hi]
    rfl

/-- Looking again gives the same and changes nothing. -/
theorem peek_of_peek {s s' : Cursor} {c? : Option Char} (h : s.peek = (.ok c?, s')) :
    s'.peek = (.ok c?, s') := by
  cases c? with
  | some c => exact peek_of_char (ahead_of_peek_char h)
  | none => exact peek_of_ended (ahead_of_peek_none h)

theorem peek_of_reply {s : Cursor} {c? : Option Char} (h : (ask .peek s).1 = .char c?) :
    (ask .peek s).2.peek = (.ok c?, (ask .peek s).2) := by
  match hp : s.peek with
  | (.ok c?', s') =>
    rw [ask, hp] at h ⊢
    cases h
    exact peek_of_peek hp
  | (.error f, s') =>
    rw [ask, hp] at h
    cases h

theorem reply_of_peek {s s' : Cursor} {c? : Option Char} (h : s.peek = (.ok c?, s')) :
    (ask .advance s).1 = .char c? := by
  cases c? with
  | none => rw [ask, advance, h]; rfl
  | some c => rw [ask_of_peek_char h]

/-- A cursor that knows the next character stays as it is until it is asked to advance. -/
theorem ask_of_known {s : Cursor} {c? : Option Char} (h : s.peek = (.ok c?, s)) {q : Request}
    (hq : q ≠ .advance) : (ask q s).2 = s := by
  cases c? with
  | none => exact (ask_of_peek_none h q).2
  | some c =>
    rw [ask_of_peek_char h]
    cases q with
    | peek | atEnd => rfl
    | advance => exact absurd rfl hq

theorem position_of_fault {s : Cursor} {q : Request} {f : Fault} (h : (ask q s).1 = .fault f) :
    (ask q s).2.position = s.position := by
  have hpos := position_peek s
  match hp : s.peek with
  | (.ok (some c), s') =>
    rw [ask_of_peek_char hp] at h
    cases q <;> cases h
  | (.ok none, s') =>
    have hend := (ask_of_peek_none hp q).1
    rw [h] at hend
    cases hend
  | (.error f', s') =>
    rw [ask_of_peek_fault hp]
    rw [hp] at hpos
    exact hpos

theorem ahead_of_saysEnd {s : Cursor} {q : Request} (h : (ask q s).1.saysEnd = true) :
    (ask q s).2.ahead = .ended := by
  match hp : s.peek with
  | (.ok (some c), s') =>
    rw [ask_of_peek_char hp] at h
    cases q <;> cases h
  | (.ok none, s') =>
    rw [(ask_of_peek_none hp q).2]
    exact ahead_of_peek_none hp
  | (.error f', s') =>
    rw [ask_of_peek_fault hp] at h
    cases h

/-! ## What all calls do -/

theorem items_calls (s : Cursor) (qs : List Request) :
    ∃ rest, s.items = (s.calls qs).filterMap Call.taken? ++ rest ∧
      ((∃ c ∈ s.calls qs, c.reply.saysEnd = true) → rest = []) := by
  induction qs generalizing s with
  | nil => exact ⟨s.items, rfl, fun ⟨c, hc, _⟩ => absurd hc List.not_mem_nil⟩
  | cons q qs ih =>
    obtain ⟨rest, hrest, hend⟩ := ih (ask q s).2
    obtain ⟨hitems, hnil⟩ := items_eq s q
    have hsplit : s.items = (s.calls (q :: qs)).filterMap Call.taken? ++ rest := by
      rw [hitems, hrest, ← List.append_assoc, calls_cons, List.filterMap_cons]
      cases Call.taken? (.make ask s q) <;> rfl
    refine ⟨rest, hsplit, ?_⟩
    rintro ⟨c, hc, hsays⟩
    rcases List.mem_cons.1 hc with rfl | hc
    · rw [hnil.1 hsays] at hsplit
      exact (List.append_eq_nil_iff.1 hsplit.symm).2
    · exact hend ⟨c, hc, hsays⟩

theorem exists_saysEnd {s : Cursor} {qs : List Request}
    (h : s.items.length < (s.calls qs).countP (·.request = .advance)) :
    ∃ c ∈ s.calls qs, c.reply.saysEnd = true := by
  induction qs generalizing s with
  | nil => exact absurd h (Nat.not_lt_zero _)
  | cons q qs ih =>
    obtain ⟨hitems, hnil⟩ := items_eq s q
    by_cases hsays : (ask q s).1.saysEnd = true
    · exact ⟨_, List.mem_cons_self, hsays⟩
    · -- An advance takes an item, and no request adds one.
      have hlt : (ask q s).2.items.length <
          ((ask q s).2.calls qs).countP (·.request = .advance) := by
        rw [calls_cons, List.countP_cons] at h
        by_cases hq : q = .advance
        · subst hq
          have hpos := List.length_pos_of_ne_nil (mt hnil.2 hsays)
          rw [items_ask_advance, List.length_tail]
          simp only [Call.make, decide_true, if_true] at h
          exact Nat.sub_lt_right_of_lt_add hpos h
        · have hlen := congrArg List.length hitems
          rw [List.length_append] at hlen
          simp only [Call.make, hq, decide_false, Bool.false_eq_true, if_false] at h
          exact Nat.lt_of_le_of_lt (by omega) h
      obtain ⟨c, hc, hcend⟩ := ih hlt
      exact ⟨c, List.mem_cons_of_mem _ hc, hcend⟩

theorem calls_of_ended {s : Cursor} (h : s.ahead = .ended) (qs : List Request) :
    ∀ c ∈ s.calls qs, c.reply.saysEnd = true ∧ c.after = s := by
  induction qs with
  | nil => exact fun c hc => absurd hc List.not_mem_nil
  | cons q qs ih =>
    obtain ⟨hend, hs⟩ := ask_of_peek_none (peek_of_ended h) q
    intro c hc
    rcases List.mem_cons.1 hc with rfl | hc
    · exact ⟨hend, hs⟩
    · rw [hs] at hc
      exact ih c hc

theorem pairwise_calls (s : Cursor) (qs : List Request) :
    (s.calls qs).Pairwise fun a b => a.reply.saysEnd = true →
      b.reply.saysEnd = true ∧ b.after = a.after := by
  induction qs generalizing s with
  | nil => exact .nil
  | cons q qs ih =>
    refine List.pairwise_cons.2 ⟨?_, ih _⟩
    intro b hb hend
    exact calls_of_ended (ahead_of_saysEnd hend) qs b hb

theorem before_eq_of_known {s : Cursor} {c? : Option Char} (h : s.peek = (.ok c?, s))
    {qs : List Request} {past future : List Call} {c : Call}
    (hc : s.calls qs = past ++ c :: future) (hpast : ∀ b ∈ past, b.request ≠ .advance) :
    c.before = s := by
  refine (Call.history (fun (past : List Call) t => (∀ b ∈ past, b.request ≠ .advance) → t = s)
    ?_ (fun _ => rfl) hc).1 hpast
  intro past t q ht hpast
  obtain ⟨hpast, hq⟩ := List.forall_mem_append.1 hpast
  rw [ht hpast]
  exact ask_of_known h (hq _ (List.mem_singleton_self _))

theorem foreseen_calls {s : Cursor} {qs : List Request} {past between future : List Call}
    {p q : Call} {c? : Option Char} (h : s.calls qs = past ++ p :: (between ++ q :: future))
    (hp : p.request = .peek) (hreply : p.reply = .char c?)
    (hbetween : ∀ c ∈ between, c.request ≠ .advance) (hq : q.request = .advance) :
    q.reply = .char c? := by
  obtain ⟨hpmake, qs', hrest⟩ := exists_calls_of_eq h
  have hknown : p.after.peek = (.ok c?, p.after) := by
    rw [hp] at hpmake
    rw [hpmake] at hreply ⊢
    exact peek_of_reply hreply
  rw [(exists_calls_of_eq hrest.symm).1, before_eq_of_known hknown hrest.symm hbetween, hq]
  exact reply_of_peek hknown

theorem passed?_eq (c : Call) : c.passed? = c.taken?.bind Except.toOption := by
  obtain ⟨q, reply, before, after⟩ := c
  cases reply with
  | fault f => cases q <;> rfl
  | ends b => cases q <;> rfl
  | char c? => cases c? <;> cases q <;> rfl

/-- **No order of requests loses or doubles an item.** -/
theorem interleaving (r : Reader) (qs : List Request) :
    r.Decoded r.items ∧ Faithful r.items ((ofReader r).calls qs) := by
  obtain ⟨rest, hitems, hend⟩ := items_calls (ofReader r) qs
  rw [items_ofReader] at hitems
  have htaken : ((ofReader r).calls qs).filterMap Call.taken? <+: r.items := ⟨rest, hitems.symm⟩
  refine ⟨r.decoded_items, ⟨htaken, ?_, ?_, ?_, ?_, ?_, pairwise_calls _ _⟩⟩
  · have hpassed := htaken.filterMap Except.toOption
    rw [List.filterMap_filterMap] at hpassed
    rwa [funext passed?_eq]
  · intro hsays
    rw [hitems, hend hsays, List.append_nil]
  · exact fun h => @exists_saysEnd (ofReader r) qs h
  · intro past between future p q c? h hp hreply hbetween hq
    exact foreseen_calls h hp hreply hbetween hq
  · intro c hc f hf
    rw [eq_make_of_mem_calls hc] at hf ⊢
    exact position_of_fault hf

end Cursor

end SexprLex
