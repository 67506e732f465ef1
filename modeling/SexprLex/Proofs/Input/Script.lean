import SexprLex.Proofs.Input.Items

/-!
# Decoding, item by item

What a script of events says is a list of items, and here this is put as rules over events with no
decoder in them.

**Faults.** `Event.Faults es f rest` says that no character is decoded from the events `es`, for the
fault `f`, and that `rest` is left. What is used up are bytes of one character, and behind them at
most the one event that came in place of its next byte (`Event.Faults.exists_used`).

**Decoding.** `Event.Decodes es items rest` says that `es` are decoded to `items` one by one, with
`rest` left.

* `Reader.decode_of_faults`, `Reader.faults_of_decode` — decoding fails exactly as the rules say.
* `Reader.decodesTo_iff` — the items of a reader are what the rules give its events, up to the first
  end of input between characters.
* `Event.Decodes.frame` — what is decoded depends on nothing behind it.
-/

namespace SexprLex

/-! ## The rules -/

namespace Utf8

/-- A lead byte and as many following bytes as it announces. -/
def Filled : List UInt8 → Prop
  | [] => False
  | b :: bs => ∃ lead, Lead.ofByte? b = some lead ∧ bs.length = lead.missing ∧
      ∀ b' ∈ bs, (continuation? b').isSome

theorem isSome_of_gather {bits code : Nat} {bs : List UInt8} (h : gather bits bs = some code) :
    ∀ b ∈ bs, (continuation? b).isSome := by
  induction bs generalizing bits with
  | nil => exact fun b hb => absurd hb List.not_mem_nil
  | cons b bs ih =>
    obtain ⟨six, hsix, hg⟩ := gather_cons_eq_some.1 h
    intro b' hb'
    rcases List.mem_cons.1 hb' with rfl | hb'
    · rw [hsix]
      rfl
    · exact ih hg b' hb'

theorem exists_gather {bs : List UInt8} (h : ∀ b ∈ bs, (continuation? b).isSome) (bits : Nat) :
    ∃ code, gather bits bs = some code := by
  induction bs generalizing bits with
  | nil => exact ⟨bits, rfl⟩
  | cons b bs ih =>
    obtain ⟨six, hsix⟩ := Option.isSome_iff_exists.1 (h b List.mem_cons_self)
    obtain ⟨code, hg⟩ := ih (fun b' hb' => h b' (List.mem_cons_of_mem _ hb')) (bits * 64 + six)
    exact ⟨code, gather_cons_eq_some.2 ⟨six, hsix, hg⟩⟩

end Utf8

namespace Event

/-- What comes in place of a following byte: a failing read, an end of input, the end of the
script, or a byte that does not follow. -/
inductive Stops : List Event → Fault → List Event → Prop
  | failure {f : Fault} {es : List Event} : Stops (.failure f :: es) f es
  | endOfInput {es : List Event} : Stops (.endOfInput :: es) .malformedText es
  | nothing : Stops [] .malformedText []
  | byte {b : UInt8} {es : List Event} : Utf8.continuation? b = none →
      Stops (.byte b :: es) .malformedText es

/-- How no character is decoded from some events. -/
inductive Faults : List Event → Fault → List Event → Prop
  /-- A read fails between characters. -/
  | failure {f : Fault} {es : List Event} : Faults (.failure f :: es) f es
  /-- The byte begins no character. -/
  | lead {b : UInt8} {es : List Event} : Utf8.Lead.ofByte? b = none →
      Faults (.byte b :: es) .malformedText es
  /-- The bytes of a character are broken off. -/
  | cut {bs : List UInt8} {f : Fault} {es rest : List Event} : Utf8.Asks bs → Stops es f rest →
      Faults (bs.map .byte ++ es) f rest
  /-- All bytes are there, and they encode no character. -/
  | filled {bs : List UInt8} {es : List Event} : Utf8.Filled bs →
      (∀ c, String.utf8EncodeChar c ≠ bs) → Faults (bs.map .byte ++ es) .malformedText es

/-- How items are decoded from some events. -/
inductive Decodes : List Event → List Item → List Event → Prop
  | nil {es : List Event} : Decodes es [] es
  | char {c : Char} {es rest : List Event} {items : List Item} : Decodes es items rest →
      Decodes ((String.utf8EncodeChar c).map .byte ++ es) (.ok c :: items) rest
  | fault {f : Fault} {es es' rest : List Event} {items : List Item} : Faults es f es' →
      Decodes es' items rest → Decodes es (.error f :: items) rest

/-- Some events are decoded to `items` up to the first end of input between characters. -/
def DecodesTo (es : List Event) (items : List Item) : Prop :=
  ∃ rest, Decodes es items rest ∧ Ends rest

/-! ## What is used up -/

/-- A fault uses up some bytes of one character, and behind them at most the event that shows it:
the failing read, or for malformed bytes an end of input or one byte. -/
structure UsesUp (f : Fault) (bs : List UInt8) (last : List Event) : Prop where
  bytes : bs = [] ∨ Utf8.Asks bs ∨ Utf8.Filled bs
  last : last = [.failure f] ∨
    f = .malformedText ∧ (last = [] ∨ last = [.endOfInput] ∨ ∃ b, last = [.byte b])

theorem Stops.exists_last {es rest : List Event} {f : Fault} (h : Stops es f rest) :
    ∃ last, es = last ++ rest ∧ (last = [.failure f] ∨
      f = .malformedText ∧ (last = [] ∨ last = [.endOfInput] ∨ ∃ b, last = [.byte b])) := by
  cases h with
  | failure => exact ⟨_, rfl, Or.inl rfl⟩
  | endOfInput => exact ⟨[_], rfl, Or.inr ⟨rfl, Or.inr (Or.inl rfl)⟩⟩
  | nothing => exact ⟨[], rfl, Or.inr ⟨rfl, Or.inl rfl⟩⟩
  | byte => exact ⟨[_], rfl, Or.inr ⟨rfl, Or.inr (Or.inr ⟨_, rfl⟩)⟩⟩

theorem Faults.exists_used {es rest : List Event} {f : Fault} (h : Faults es f rest) :
    ∃ bs last, es = bs.map .byte ++ last ++ rest ∧ UsesUp f bs last := by
  cases h with
  | failure => exact ⟨[], [_], rfl, Or.inl rfl, Or.inl rfl⟩
  | lead hb => exact ⟨[], [_], rfl, Or.inl rfl, Or.inr ⟨rfl, Or.inr (Or.inr ⟨_, rfl⟩)⟩⟩
  | @cut bs f es rest hbs hs =>
    obtain ⟨last, rfl, hlast⟩ := hs.exists_last
    exact ⟨bs, last, by rw [List.append_assoc], Or.inr (Or.inl hbs), hlast⟩
  | @filled bs es hbs hne =>
    exact ⟨bs, [], by rw [List.append_nil], Or.inr (Or.inr hbs), Or.inr ⟨rfl, Or.inl rfl⟩⟩

/-- A fault says that bytes are malformed, or it is a failing read, perhaps inside a character. -/
theorem Faults.malformed_or_failure {es rest : List Event} {f : Fault} (h : Faults es f rest) :
    f = .malformedText ∨ ∃ bs : List UInt8, (bs = [] ∨ Utf8.Asks bs) ∧
      es = bs.map .byte ++ .failure f :: rest := by
  cases h with
  | failure => exact Or.inr ⟨[], Or.inl rfl, rfl⟩
  | lead | filled => exact Or.inl rfl
  | cut hbs hs =>
    cases hs with
    | failure => exact Or.inr ⟨_, Or.inr hbs, rfl⟩
    | endOfInput | nothing | byte => exact Or.inl rfl

theorem Decodes.of_mem_fault {es rest : List Event} {items : List Item} {f : Fault}
    (h : Decodes es items rest) (hf : .error f ∈ items) :
    f = .malformedText ∨ .failure f ∈ es := by
  induction h with
  | nil => cases hf
  | char _ ih =>
    rcases List.mem_cons.1 hf with hf | hf
    · cases hf
    · exact (ih hf).imp_right (List.mem_append_right _)
  | fault hfault _ ih =>
    rcases List.mem_cons.1 hf with hf | hf
    · cases hf
      refine hfault.malformed_or_failure.imp_right ?_
      rintro ⟨bs, -, rfl⟩
      exact List.mem_append_right _ List.mem_cons_self
    · obtain ⟨bs, last, rfl, -⟩ := hfault.exists_used
      exact (ih hf).imp_right (List.mem_append_right _)

/-! ## What is decoded depends on nothing behind it -/

theorem Stops.frame {es rest : List Event} {f : Fault} (h : Stops es f rest) (hrest : rest ≠ []) :
    ∃ used, es = used ++ rest ∧ ∀ rest', Stops (used ++ rest') f rest' := by
  cases h with
  | failure => exact ⟨[_], rfl, fun _ => .failure⟩
  | endOfInput => exact ⟨[_], rfl, fun _ => .endOfInput⟩
  | nothing => exact absurd rfl hrest
  | byte hb => exact ⟨[_], rfl, fun _ => .byte hb⟩

theorem Faults.frame {es rest : List Event} {f : Fault} (h : Faults es f rest)
    (hrest : rest ≠ []) : ∃ used, es = used ++ rest ∧ ∀ rest', Faults (used ++ rest') f rest' := by
  cases h with
  | failure => exact ⟨[_], rfl, fun _ => .failure⟩
  | lead hb => exact ⟨[_], rfl, fun _ => .lead hb⟩
  | @cut bs f es rest hbs hs =>
    obtain ⟨used, rfl, hused⟩ := hs.frame hrest
    refine ⟨bs.map .byte ++ used, by rw [List.append_assoc], fun rest' => ?_⟩
    rw [List.append_assoc]
    exact .cut hbs (hused rest')
  | filled hbs hne => exact ⟨_, rfl, fun _ => .filled hbs hne⟩

/-- Items that are decoded with something left are decoded whatever is left. -/
theorem Decodes.frame {es rest : List Event} {items : List Item} (h : Decodes es items rest)
    (hrest : rest ≠ []) :
    ∃ used, es = used ++ rest ∧ ∀ rest', Decodes (used ++ rest') items rest' := by
  induction h with
  | nil => exact ⟨[], rfl, fun _ => .nil⟩
  | @char c es rest items _ ih =>
    obtain ⟨used, rfl, hused⟩ := ih hrest
    refine ⟨(String.utf8EncodeChar c).map .byte ++ used, by rw [List.append_assoc], fun rest' => ?_⟩
    rw [List.append_assoc]
    exact .char (hused rest')
  | fault hf _ ih =>
    obtain ⟨used, rfl, hused⟩ := ih hrest
    obtain ⟨used', rfl, hused'⟩ := hf.frame (List.append_ne_nil_of_right_ne_nil _ hrest)
    refine ⟨used' ++ used, by rw [List.append_assoc], fun rest' => ?_⟩
    rw [List.append_assoc]
    exact .fault (hused' _) (hused rest')

theorem Decodes.append {es es' rest : List Event} {items items' : List Item}
    (h : Decodes es items es') (h' : Decodes es' items' rest) :
    Decodes es (items ++ items') rest := by
  induction h with
  | nil => exact h'
  | char _ ih => exact .char (ih h')
  | fault hf _ ih => exact .fault hf (ih h')

theorem Decodes.exists_fault {es rest : List Event} {before after : List Item} {f : Fault}
    (h : Decodes es (before ++ .error f :: after) rest) :
    ∃ es₁ es₂, Decodes es before es₁ ∧ Faults es₁ f es₂ ∧ Decodes es₂ after rest := by
  generalize hi : before ++ .error f :: after = items at h
  induction h generalizing before with
  | nil => cases before <;> cases hi
  | char hd ih =>
    cases before with
    | nil => cases hi
    | cons item before =>
      rw [List.cons_append, List.cons.injEq] at hi
      obtain ⟨rfl, hi⟩ := hi
      obtain ⟨es₁, es₂, hbefore, hf, hafter⟩ := ih hi
      exact ⟨es₁, es₂, .char hbefore, hf, hafter⟩
  | fault hf' hd ih =>
    cases before with
    | nil =>
      cases hi
      exact ⟨_, _, .nil, hf', hd⟩
    | cons item before =>
      rw [List.cons_append, List.cons.injEq] at hi
      obtain ⟨rfl, hi⟩ := hi
      obtain ⟨es₁, es₂, hbefore, hf, hafter⟩ := ih hi
      exact ⟨es₁, es₂, .fault hf' hbefore, hf, hafter⟩

end Event

/-! ## Decoding follows the rules -/

namespace Reader

theorem decodeRest_of_stops (least missing bits : Nat) {r : Reader} {f : Fault}
    {rest : List Event} (h : Event.Stops r.events f rest) :
    ∃ r', decodeRest least (missing + 1) bits r = (.error f, r') ∧ r'.events = rest := by
  obtain ⟨r', hr, he⟩ := r.readByte_eq
  refine ⟨r', ?_⟩
  rw [decodeRest, hr, he]
  generalize r.events = es at h
  cases h with
  | failure | endOfInput | nothing => exact ⟨rfl, rfl⟩
  | byte hb => exact ⟨by simp only [Event.pop, hb], rfl⟩

theorem stops_of_readByte_none {r r' : Reader} (h : r.readByte = (.ok none, r')) :
    Event.Stops r.events .malformedText r'.events := by
  rcases events_of_readByte_none h with he | ⟨he, he'⟩
  · rw [he]
    exact .endOfInput
  · rw [he, he']
    exact .nothing

/-- **Decoding fails as the rules say.** -/
theorem decode_of_faults {r : Reader} {f : Fault} {es rest : List Event}
    (hf : Event.Faults es f rest) (h : r.events = es) :
    ∃ r', r.decode = (.error f, r') ∧ r'.events = rest := by
  cases hf with
  | failure => exact decode_of_failure h
  | lead hb =>
    obtain ⟨r', hr, he⟩ := readByte_of_byte h
    exact ⟨r', by simp only [decode, hr, hb], he⟩
  | @cut bs f es rest hbs hs =>
    cases bs with
    | nil => exact hbs.elim
    | cons b bs =>
      obtain ⟨lead, hb, hlen, hbs⟩ := hbs
      -- The bytes that are there get gathered, and then at least one more is asked for.
      obtain ⟨code, hg⟩ := Utf8.exists_gather hbs lead.bits
      obtain ⟨missing, hmissing⟩ := Nat.exists_eq_add_of_lt hlen
      obtain ⟨r₁, he₁, hr₁⟩ := decode_of_lead (missing + 1) hb hmissing.symm hg h
      obtain ⟨r', hr', he'⟩ := decodeRest_of_stops lead.least missing code (he₁ ▸ hs)
      exact ⟨r', by rw [hr₁, hr'], he'⟩
  | @filled bs es hbs hne =>
    cases bs with
    | nil => exact hbs.elim
    | cons b bs =>
      obtain ⟨lead, hb, hlen, hbs⟩ := hbs
      obtain ⟨code, hg⟩ := Utf8.exists_gather hbs lead.bits
      obtain ⟨r', he', hr'⟩ := decode_of_lead 0 hb hlen hg h
      have hnone : Utf8.scalar? lead.least code = none := by
        rw [Option.eq_none_iff_forall_ne_some]
        intro c hc
        obtain ⟨rfl, hle⟩ := Utf8.of_scalar?_eq_some hc
        exact hne c (Utf8.encode_eq hb hlen hle hg)
      exact ⟨r', by rw [hr', decodeRest, hnone], he'⟩

/-- Where the following bytes lead to a fault, they are broken off, or they complete no
character. -/
theorem of_decodeRest_fault {least missing bits : Nat} {r r' : Reader} {f : Fault}
    (h : decodeRest least missing bits r = (.error f, r')) :
    ∃ (bs : List UInt8) (es : List Event), r.events = bs.map .byte ++ es ∧
      (∀ b ∈ bs, (Utf8.continuation? b).isSome) ∧
      (bs.length < missing ∧ Event.Stops es f r'.events ∨
        bs.length = missing ∧ f = .malformedText ∧ es = r'.events ∧
          ∀ c : Char, least ≤ c.toNat → Utf8.gather bits bs ≠ some c.toNat) := by
  induction missing generalizing bits r with
  | zero =>
    rw [decodeRest] at h
    split at h <;> cases h
    next hnone =>
    refine ⟨[], _, rfl, by simp, Or.inr ⟨rfl, rfl, rfl, ?_⟩⟩
    intro c hle hg
    rw [Utf8.gather, Option.some.injEq] at hg
    rw [hg, Utf8.scalar?_toNat hle] at hnone
    cases hnone
  | succ missing ih =>
    rcases hr : r.readByte with ⟨fault | _ | b, r₁⟩
    · rw [decodeRest, hr] at h
      cases h
      refine ⟨[], r.events, rfl, by simp, Or.inl ⟨Nat.succ_pos _, ?_⟩⟩
      rw [events_of_readByte_fault hr]
      exact .failure
    · rw [decodeRest, hr] at h
      cases h
      exact ⟨[], _, rfl, by simp, Or.inl ⟨Nat.succ_pos _, stops_of_readByte_none hr⟩⟩
    · have he := events_of_readByte_byte hr
      cases hsix : Utf8.continuation? b with
      | none =>
        simp only [decodeRest, hr, hsix] at h
        cases h
        refine ⟨[], r.events, rfl, by simp, Or.inl ⟨Nat.succ_pos _, ?_⟩⟩
        rw [he]
        exact .byte hsix
      | some six =>
        simp only [decodeRest, hr, hsix] at h
        obtain ⟨bs, es, he₁, hbs, hend⟩ := ih h
        refine ⟨b :: bs, es, by rw [he, he₁]; rfl,
          List.forall_mem_cons.2 ⟨by rw [hsix]; rfl, hbs⟩, ?_⟩
        rcases hend with ⟨hlen, hs⟩ | ⟨hlen, hf, hes, hne⟩
        · exact Or.inl ⟨Nat.succ_lt_succ hlen, hs⟩
        · refine Or.inr ⟨congrArg Nat.succ hlen, hf, hes, ?_⟩
          intro c hle hg
          obtain ⟨six', hsix', hg⟩ := Utf8.gather_cons_eq_some.1 hg
          rw [hsix] at hsix'
          cases hsix'
          exact hne c hle hg

/-- **The rules cover every fault.** -/
theorem faults_of_decode {r r' : Reader} {f : Fault} (h : r.decode = (.error f, r')) :
    Event.Faults r.events f r'.events := by
  match hr : r.readByte with
  | (.error fault, r₁) =>
    rw [decode, hr] at h
    cases h
    exact events_of_readByte_fault hr ▸ .failure
  | (.ok none, r₁) =>
    rw [decode_of_readByte_none hr] at h
    cases h
  | (.ok (some b), r₁) =>
    have he := events_of_readByte_byte hr
    cases hb : Utf8.Lead.ofByte? b with
    | none =>
      simp only [decode, hr, hb] at h
      cases h
      exact he ▸ .lead hb
    | some lead =>
      simp only [decode, hr, hb] at h
      obtain ⟨bs, es, he₁, hbs, ⟨hlen, hs⟩ | ⟨hlen, rfl, rfl, hne⟩⟩ := of_decodeRest_fault h
      · rw [he, he₁]
        exact @Event.Faults.cut (b :: bs) _ _ _ ⟨lead, hb, hlen, hbs⟩ hs
      · rw [he, he₁]
        refine @Event.Faults.filled (b :: bs) _ ⟨lead, hb, hlen, hbs⟩ ?_
        -- The bytes of a character have this lead and gather to it, so it would be decoded.
        intro c hc
        obtain ⟨b', bs', lead', hc', hb', -, hle, hg⟩ := Utf8.exists_lead c
        rw [hc, List.cons.injEq] at hc'
        obtain ⟨rfl, rfl⟩ := hc'
        rw [hb] at hb'
        cases hb'
        exact hne c hle hg

/-! ## Items follow the rules -/

theorem items_of_decodes {r : Reader} {es rest : List Event} {items : List Item}
    (h : Event.Decodes es items rest) (he : r.events = es) :
    ∃ r' : Reader, r.items = items ++ r'.items ∧ r'.events = rest := by
  induction h generalizing r with
  | nil => exact ⟨r, rfl, he⟩
  | char _ ih =>
    obtain ⟨r₁, hr, he₁⟩ := decode_of_char he
    obtain ⟨r', hi, he'⟩ := ih he₁
    exact ⟨r', by rw [items_of_char hr, hi, List.cons_append], he'⟩
  | fault hf _ ih =>
    obtain ⟨r₁, hr, he₁⟩ := decode_of_faults hf he
    obtain ⟨r', hi, he'⟩ := ih he₁
    exact ⟨r', by rw [items_of_fault hr, hi, List.cons_append], he'⟩

theorem ends_of_readByte_none {r r' : Reader} (h : r.readByte = (.ok none, r')) :
    Event.Ends r.events := by
  rcases events_of_readByte_none h with he | ⟨he, -⟩ <;> rw [he] <;> trivial

theorem decodesTo_items (r : Reader) : Event.DecodesTo r.events r.items := by
  fun_induction items r with
  | case1 r c r' h ih =>
    obtain ⟨rest, hd, hends⟩ := ih
    exact ⟨rest, events_of_decode_char h ▸ .char hd, hends⟩
  | case2 r r' h => exact ⟨_, .nil, ends_of_readByte_none (readByte_of_decode_none h)⟩
  | case3 r fault r' h ih =>
    obtain ⟨rest, hd, hends⟩ := ih
    exact ⟨rest, .fault (faults_of_decode h) hd, hends⟩

/-- A fault that is met tells of malformed bytes, or it is that of a failing read. -/
theorem of_mem_items_fault {r : Reader} {f : Fault} (h : .error f ∈ r.items) :
    f = .malformedText ∨ .failure f ∈ r.events := by
  obtain ⟨rest, hd, -⟩ := r.decodesTo_items
  exact hd.of_mem_fault h

/-- **The items of a reader are what its events are decoded to.** -/
theorem decodesTo_iff {r : Reader} {items : List Item} :
    Event.DecodesTo r.events items ↔ r.items = items := by
  constructor
  · rintro ⟨rest, hd, hends⟩
    obtain ⟨r', hi, he⟩ := items_of_decodes hd rfl
    rw [hi, items_of_ends (he ▸ hends), List.append_nil]
  · rintro rfl
    exact decodesTo_items r

end Reader

end SexprLex
