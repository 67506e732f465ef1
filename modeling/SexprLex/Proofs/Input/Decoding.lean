import SexprLex.Proofs.Input.Script

/-!
# Decoding is exact

Bytes that arrive in chunks of any size are decoded as if they were all there at once, and what
comes out is the longest text whose encoding they begin with.

**Theorem (`drain_exact`).** Let a reader deliver some bytes and then end. The encoding of a text
is a prefix of the bytes exactly if the text is a prefix of the text that is drained. Draining
ends at the end of the input if the bytes are the encoding of that text, and otherwise with the
fault for malformed bytes, right behind it. In particular an encoded text comes back as it was.

The proof cuts the bytes into the encoding of a text and a remainder that begins with no encoded
character. The decoder reads the text (`Reader.items_of_text`), and by its soundness it cannot
read a character off the remainder (`Reader.decode_of_malformed`).

A reader may also **fail** (`Event.Fails`): the next read is answered with a fault, or it gives
malformed bytes. Then its characters are the text before that (`Reader.items_of_fails`).
-/

namespace SexprLex

/-! ## Encodings as prefixes -/

namespace Utf8

/-- Bytes with which no encoded character begins. -/
def Malformed (bytes : List UInt8) : Prop := ∀ c, ¬ String.utf8EncodeChar c <+: bytes

theorem map_byte_inj {bs bs' : List UInt8} (h : bs.map Event.byte = bs'.map .byte) :
    bs = bs' :=
  List.map_injective_iff.2 (fun _ _ hb => Event.byte.inj hb) h

/-- No encoded character is a proper prefix of another, since decoding cannot tell what is
behind it. -/
theorem encodeChar_append_inj {c c' : Char} {bs bs' : List UInt8}
    (h : String.utf8EncodeChar c ++ bs = String.utf8EncodeChar c' ++ bs') : c = c' ∧ bs = bs' := by
  obtain ⟨b, rest, lead, hc, -⟩ := exists_lead c
  have hev : (Reader.ofParts [.chunk b (rest ++ bs)]).events =
      (String.utf8EncodeChar c).map .byte ++ bs.map .byte := by
    simp [Reader.events, Reader.ofParts, Part.events, hc]
  obtain ⟨r, hr, he⟩ := Reader.decode_of_char hev
  rw [← List.map_append, h, List.map_append] at hev
  obtain ⟨r', hr', he'⟩ := Reader.decode_of_char hev
  rw [hr] at hr'
  cases hr'
  exact ⟨rfl, map_byte_inj (he.symm.trans he')⟩

theorem exists_eq_encode_append (bytes : List UInt8) :
    ∃ text bad, bytes = encode text ++ bad ∧ Malformed bad := by
  induction hn : bytes.length using Nat.strongRecOn generalizing bytes with
  | ind n ih =>
    by_cases hbad : Malformed bytes
    · exact ⟨[], bytes, rfl, hbad⟩
    · simp only [Malformed, not_forall, not_not] at hbad
      obtain ⟨c, rest, rfl⟩ := hbad
      have hpos := List.length_pos_of_ne_nil (String.utf8EncodeChar_ne_nil (c := c))
      have hlt : rest.length < n := by
        rw [← hn, List.length_append]
        omega
      obtain ⟨text, bad, rfl, hbad⟩ := ih _ hlt rest rfl
      exact ⟨c :: text, bad, by rw [encode_cons, List.append_assoc], hbad⟩

theorem encode_prefix_iff {text : List Char} {bad : List UInt8} (hbad : Malformed bad)
    (t : List Char) : encode t <+: encode text ++ bad ↔ t <+: text := by
  constructor
  · intro h
    induction t generalizing text with
    | nil => exact List.nil_prefix
    | cons c t ih =>
      obtain ⟨rest, hrest⟩ := h
      rw [encode_cons, List.append_assoc] at hrest
      cases text with
      | nil => exact absurd ⟨_, hrest⟩ (hbad c)
      | cons c' text =>
        rw [encode_cons, List.append_assoc] at hrest
        obtain ⟨rfl, hrest⟩ := encodeChar_append_inj hrest
        exact List.cons_prefix_cons.2 ⟨rfl, ih ⟨rest, by assumption⟩⟩
  · rintro ⟨rest, rfl⟩
    exact ⟨encode rest ++ bad, by rw [encode_append, List.append_assoc]⟩

theorem eq_of_encode_eq {text t : List Char} {bad : List UInt8} (hbad : Malformed bad)
    (h : encode t = encode text ++ bad) : t = text ∧ bad = [] := by
  have ht : t <+: text := (encode_prefix_iff hbad t).1 ⟨[], by rw [List.append_nil, h]⟩
  obtain ⟨rest, rfl⟩ := ht
  rw [encode_append, List.append_assoc, List.self_eq_append_right, List.append_eq_nil_iff] at h
  cases rest with
  | nil => exact ⟨(List.append_nil t).symm, h.2⟩
  | cons c rest => exact absurd (List.append_eq_nil_iff.1 h.1).1 String.utf8EncodeChar_ne_nil

end Utf8

/-! ## Readers that fail -/

namespace Utf8

theorem Asks.of_append {bs rest : List UInt8} (h : Asks (bs ++ rest)) (hne : bs ≠ []) :
    Asks bs := by
  obtain ⟨b, bs, rfl⟩ := List.exists_cons_of_ne_nil hne
  obtain ⟨lead, hb, hlen, hbs⟩ := h
  rw [List.append_eq, List.length_append] at hlen
  exact ⟨lead, hb, by omega, fun b' hb' => hbs b' (List.mem_append_left _ hb')⟩

theorem asks_of_encodeChar {c : Char} {bs rest : List UInt8}
    (h : String.utf8EncodeChar c = bs ++ rest) (hne : bs ≠ []) (hrest : rest ≠ []) : Asks bs := by
  obtain ⟨b, bs, rfl⟩ := List.exists_cons_of_ne_nil hne
  obtain ⟨b', bs', lead, hc, hb, hlen, -, hg⟩ := exists_lead c
  rw [hc, List.cons_append, List.cons.injEq] at h
  obtain ⟨rfl, rfl⟩ := h
  have hpos := List.length_pos_of_ne_nil hrest
  rw [List.length_append] at hlen
  refine ⟨lead, hb, by omega, ?_⟩
  intro b hb
  exact isSome_of_gather hg b (List.mem_append_left _ hb)

end Utf8

namespace Event

/-- The next read from a reader fails: a request for a byte is answered with a fault, perhaps
inside a character, or the bytes are malformed. -/
inductive Fails : List Event → Fault → Prop
  | read {bs : List UInt8} {f : Fault} {es : List Event} : bs = [] ∨ Utf8.Asks bs →
      Fails (bs.map .byte ++ .failure f :: es) f
  | malformed {bad : List UInt8} {es : List Event} : bad ≠ [] → Utf8.Malformed bad →
      Ends es ∨ ¬ Utf8.Asks bad → Fails (bad.map .byte ++ es) .malformedText

theorem map_byte_append_cases {bs bad : List UInt8} {es es' : List Event}
    (h : bs.map .byte ++ es' = bad.map .byte ++ es) :
    (∃ rest, bad = bs ++ rest ∧ es' = rest.map .byte ++ es) ∨
      ∃ b rest, bs = bad ++ b :: rest ∧ es = .byte b :: (rest.map .byte ++ es') := by
  rcases List.append_eq_append_iff.1 h with ⟨a, ha, hes⟩ | ⟨d, hd, hes⟩
  · obtain ⟨bs', rest, rfl, hbs, rfl⟩ := List.map_eq_append_iff.1 ha
    rw [Utf8.map_byte_inj hbs]
    exact Or.inl ⟨rest, rfl, hes⟩
  · obtain ⟨bad', rest, rfl, hbad, rfl⟩ := List.map_eq_append_iff.1 hd
    obtain rfl := Utf8.map_byte_inj hbad
    cases rest with
    | nil => exact Or.inl ⟨[], by simp, by simpa using hes.symm⟩
    | cons b rest => exact Or.inr ⟨b, rest, rfl, hes⟩

end Event

namespace Reader

/-- Malformed bytes are a fault, unless a read fails before they are seen to be malformed. -/
theorem decode_of_malformed {r : Reader} {bad : List UInt8} {es : List Event} (hne : bad ≠ [])
    (hbad : Utf8.Malformed bad) (hes : Event.Ends es ∨ ¬ Utf8.Asks bad)
    (h : r.events = bad.map .byte ++ es) : ∃ r', r.decode = (.error .malformedText, r') := by
  match hr : r.decode with
  | (.ok (some c), r') =>
    -- The malformed bytes would be a part of an encoded character, and so ask for more.
    exfalso
    rcases Event.map_byte_append_cases ((events_of_decode_char hr).symm.trans h) with
      ⟨rest, hrest, -⟩ | ⟨b, rest, hc, rfl⟩
    · exact hbad c ⟨rest, hrest.symm⟩
    · exact hes.elim id fun hasks => hasks (Utf8.asks_of_encodeChar hc hne (List.cons_ne_nil _ _))
  | (.ok none, r') =>
    obtain ⟨b, bad, rfl⟩ := List.exists_cons_of_ne_nil hne
    obtain ⟨r'', hb, -⟩ := readByte_of_byte h
    rw [readByte_of_decode_none hr] at hb
    cases hb
  | (.error fault, r') =>
    rcases (faults_of_decode hr).malformed_or_failure with rfl | ⟨bs, hbs, hev⟩
    · exact ⟨r', rfl⟩
    · exfalso
      rcases Event.map_byte_append_cases (hev.symm.trans h) with
        ⟨rest, rfl, hrest⟩ | ⟨b, rest, rfl, rfl⟩
      · cases rest with
        | nil =>
          obtain rfl : .failure fault :: r'.events = es := hrest
          rw [List.append_nil] at hne hes
          exact hes.elim id fun hasks => hasks (hbs.resolve_left hne)
        | cons b rest => cases hrest
      · have hasks := hbs.resolve_left (by simp)
        exact hes.elim id fun hnot => hnot (hasks.of_append hne)

theorem decode_of_fails {r : Reader} {es : List Event} {fault : Fault}
    (hf : Event.Fails es fault) (h : r.events = es) : ∃ r', r.decode = (.error fault, r') := by
  cases hf with
  | read hbs =>
    rcases hbs with rfl | hbs
    · obtain ⟨r', hr, -⟩ := decode_of_failure h
      exact ⟨r', hr⟩
    · obtain ⟨r', hr, -⟩ := decode_of_faults (.cut hbs .failure) h
      exact ⟨r', hr⟩
  | malformed hne hbad hes => exact decode_of_malformed hne hbad hes h

theorem items_of_fails {r : Reader} {text : List Char} {es : List Event} {fault : Fault}
    (h : r.events = (Utf8.encode text).map .byte ++ es) (hf : Event.Fails es fault) :
    ∃ items, r.items = text.map .ok ++ .error fault :: items := by
  obtain ⟨r₁, hi, he⟩ := items_of_text h
  obtain ⟨r₂, hr⟩ := decode_of_fails hf he
  exact ⟨r₂.items, by rw [hi, items_of_fault hr]⟩

/-- A reader of bytes has the characters of the longest text that they begin with, and a fault if
they are not all of it. -/
theorem exists_items_of_bytes {r : Reader} {bytes : List UInt8} {es : List Event}
    (h : r.events = bytes.map .byte ++ es) (hes : Event.Ends es) :
    ∃ text bad, bytes = Utf8.encode text ++ bad ∧ Utf8.Malformed bad ∧
      (bad = [] ∧ r.items = text.map .ok ∨
        bad ≠ [] ∧ ∃ items, r.items = text.map .ok ++ .error .malformedText :: items) := by
  obtain ⟨text, bad, rfl, hbad⟩ := Utf8.exists_eq_encode_append bytes
  refine ⟨text, bad, rfl, hbad, ?_⟩
  rw [List.map_append, List.append_assoc] at h
  by_cases hne : bad = []
  · subst hne
    obtain ⟨r₁, hi, he⟩ := items_of_text h
    have hnil : r₁.items = [] := items_of_ends (he ▸ hes)
    exact Or.inl ⟨rfl, by rw [hi, hnil, List.append_nil]⟩
  · exact Or.inr ⟨hne, items_of_fails h (.malformed hne hbad (Or.inl hes))⟩

end Reader

/-! ## Draining -/

namespace Cursor

theorem drainOnto_of_char {text : String} {s s' : Cursor} {c : Char}
    (h : s.advance = (.ok (some c), s')) : s.drainOnto text = s'.drainOnto (text.push c) := by
  rw [drainOnto]
  split <;> simp_all

theorem drainOnto_of_none {text : String} {s s' : Cursor} (h : s.advance = (.ok none, s')) :
    s.drainOnto text = (⟨text, none⟩, s') := by
  rw [drainOnto]
  split <;> simp_all

theorem drainOnto_of_fault {text : String} {s s' : Cursor} {fault : Fault}
    (h : s.advance = (.error fault, s')) : s.drainOnto text = (⟨text, some fault⟩, s') := by
  rw [drainOnto]
  split <;> simp_all

theorem drainOnto_of_items {text : String} {s : Cursor} {w : List Char} {tail : List Item}
    {fault? : Option Fault} (h : s.items = w.map .ok ++ tail)
    (htail : tail = [] ∧ fault? = none ∨
      ∃ fault items, tail = .error fault :: items ∧ fault? = some fault) :
    ∃ s', s.drainOnto text = (⟨text ++ String.ofList w, fault?⟩, s') ∧
      s'.position = s.position.advanceAll w := by
  induction w generalizing s text with
  | nil =>
    rw [String.ofList_nil, String.append_empty]
    rcases htail with ⟨rfl, rfl⟩ | ⟨fault, items, rfl, rfl⟩
    · obtain ⟨s', hs, hp, -⟩ := advance_of_items_nil h
      exact ⟨s', drainOnto_of_none hs, hp⟩
    · obtain ⟨s', hs, hp, -⟩ := advance_of_items_fault h
      exact ⟨s', drainOnto_of_fault hs, hp⟩
  | cons c w ih =>
    obtain ⟨s₁, hs, hp, hi⟩ := advance_of_items_char h
    obtain ⟨s', hd, hp'⟩ := @ih (text.push c) s₁ hi
    refine ⟨s', ?_, by rw [hp', hp, Position.advanceAll_cons]⟩
    rw [drainOnto_of_char hs, hd]
    congr 2
    rw [← String.toList_inj]
    simp

/-- What draining gives is exactly what the bytes say. -/
structure Exact (bytes : List UInt8) (d : Drained) (s : Cursor) : Prop where
  /-- The text is the longest one whose encoding the bytes begin with. -/
  longest : ∀ t : String, t.toUTF8.data.toList <+: bytes ↔ t.toList <+: d.text.toList
  /-- There is a fault exactly if its encoding is not all of the bytes. -/
  ends : d.fault? = none ∧ d.text.toUTF8.data.toList = bytes ∨
    d.fault? = some .malformedText ∧ d.text.toUTF8.data.toList ≠ bytes
  /-- The cursor stands right behind the text. -/
  position_eq : s.position = Position.start.advanceAll d.text.toList
  /-- An encoded text comes back as it was. -/
  roundTrip : ∀ t : String, t.toUTF8.data.toList = bytes → d.text = t ∧ d.fault? = none

theorem exact_of_encode {text : List Char} {bad : List UInt8} (hbad : Utf8.Malformed bad)
    {fault? : Option Fault} {s : Cursor} (hp : s.position = Position.start.advanceAll text)
    (hfault : bad = [] ∧ fault? = none ∨ bad ≠ [] ∧ fault? = some .malformedText) :
    Exact (Utf8.encode text ++ bad) ⟨String.ofList text, fault?⟩ s where
  longest t := by
    rw [Utf8.toUTF8_eq_encode, String.toList_ofList]
    exact Utf8.encode_prefix_iff hbad t.toList
  ends := by
    rw [Utf8.toUTF8_eq_encode, String.toList_ofList]
    rcases hfault with ⟨rfl, rfl⟩ | ⟨hne, rfl⟩
    · exact Or.inl ⟨rfl, (List.append_nil _).symm⟩
    · refine Or.inr ⟨rfl, ?_⟩
      intro heq
      exact hne (List.self_eq_append_right.1 heq)
  position_eq := by rw [hp, String.toList_ofList]
  roundTrip t ht := by
    rw [Utf8.toUTF8_eq_encode] at ht
    obtain ⟨rfl, rfl⟩ := Utf8.eq_of_encode_eq hbad ht
    rcases hfault with ⟨-, rfl⟩ | ⟨hne, -⟩
    · exact ⟨String.ofList_toList, rfl⟩
    · exact absurd rfl hne

/-- **Decoding is exact**, however the bytes are divided into chunks. -/
theorem drain_exact {r : Reader} {bytes : List UInt8} {es : List Event}
    (h : r.events = bytes.map .byte ++ es) (hes : Event.Ends es) :
    Exact bytes (ofReader r).drain.1 (ofReader r).drain.2 := by
  obtain ⟨text, bad, rfl, hbad, hitems⟩ := Reader.exists_items_of_bytes h hes
  rcases hitems with ⟨rfl, hi⟩ | ⟨hne, items, hi⟩
  · rw [← List.append_nil (text.map _)] at hi
    obtain ⟨s, hs, hp⟩ := drainOnto_of_items (s := ofReader r) hi (Or.inl ⟨rfl, rfl⟩)
    rw [drain, hs, String.empty_append]
    exact exact_of_encode hbad hp (Or.inl ⟨rfl, rfl⟩)
  · obtain ⟨s, hs, hp⟩ := drainOnto_of_items (s := ofReader r) hi (Or.inr ⟨_, items, rfl, rfl⟩)
    rw [drain, hs, String.empty_append]
    exact exact_of_encode hbad hp (Or.inr ⟨hne, rfl⟩)

/-- The letter `λ` cut in two by a chunk, a letter, and a lead byte without its second byte. -/
theorem drain_cut_character :
    Part.events [.chunk 0xCE [], .chunk 0xBB [0x61], .chunk 0xF0 []] =
        [0xCE, 0xBB, 0x61, 0xF0].map .byte ++ [] ∧
      Event.Ends [] ∧
      Exact [0xCE, 0xBB, 0x61, 0xF0]
        (ofReader (.ofParts [.chunk 0xCE [], .chunk 0xBB [0x61], .chunk 0xF0 []])).drain.1
        (ofReader (.ofParts [.chunk 0xCE [], .chunk 0xBB [0x61], .chunk 0xF0 []])).drain.2 :=
  ⟨rfl, trivial, drain_exact rfl trivial⟩

end Cursor

end SexprLex
