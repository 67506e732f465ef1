import SexprLex.Proofs.Scan.Lexemes

/-!
# Results cover the input

Scan again and again, past every failure, until the end of the input is found. Each result covers
a stretch of the characters that the reader has given, and what no result covers is whitespace or
a dropped comment.

**Theorem (`Lexer.coverage_results`).** For every reader and both options, the results cover the
characters of the reader as `Coverage` says: their spans come in order, they show what they cover,
their positions are those of the offsets, and the last one is the end of the input behind all
characters.

All results are what the rules of scans give, one after another (`Finds`,
`Lexer.finds_results`). The proof cuts the characters into a **tiling** (`Tiles`): a gap, the
characters of a result, a gap, and so on. A whole run gives a tiling (`Lexer.tiles_results`), and
each part of the theorem is an induction over the tiling.
-/

namespace SexprLex

/-- What a scan returns. -/
abbrev Scan.Result := Except ScanFailure Token

namespace Scan.Result

/-- Where the token or the failure begins. -/
def start : Result → Position
  | .ok t => t.start
  | .error e => e.start

/-- Where the token stops, or where reading failed. -/
def stop : Result → Position
  | .ok t => t.stop
  | .error e => e.position

/-- The lexeme of the token, or what was read of it. -/
def shown : Result → String
  | .ok t => t.lexeme
  | .error e => e.raw

/-- Whether it is a string literal. -/
def isString : Result → Bool
  | .ok t => t.kind == .string
  | .error _ => false

/-- The characters that the result covers. -/
def slice (cs : List Char) (a : Result) : List Char :=
  (cs.take a.stop.offset).drop a.start.offset

end Scan.Result

open Scan

/-- All results of a lexer up to the end of the input, past all failures. -/
def Lexer.results (l : Lexer) : List Result :=
  match _h : l.scan with
  | (a, l') => if _hu : usesInput a = true then a :: results l' else [a]
termination_by l.cursor.remaining
decreasing_by exact remaining_scan_lt _h _hu

/-- The characters from `m` to `n` are a whole comment. -/
structure IsComment (cs : List Char) (m n : Nat) : Prop where
  semicolon : cs[m]? = some ';'
  line : ∀ j, m ≤ j → j < n → cs[j]? ≠ some '\n'
  stop : n = cs.length ∨ cs[n]? = some '\n'

/-- The results `as` cover the characters `cs`. -/
structure Coverage (emit : Bool) (cs : List Char) (as : List Result) : Prop where
  /-- The spans do not overlap and come in order. -/
  ordered : as.Pairwise fun a b => a.stop.offset ≤ b.start.offset
  within : ∀ a ∈ as, a.start.offset ≤ a.stop.offset ∧ a.stop.offset ≤ cs.length
  /-- All but a string literal show what they cover. -/
  shown : ∀ a ∈ as, a.isString = false → a.shown = String.ofList (a.slice cs)
  /-- A string literal covers its two quotes as well. -/
  quoted : ∀ a ∈ as, a.isString = true → ∃ v, a.slice cs = '"' :: (v ++ ['"'])
  /-- A character that is not covered is whitespace or in a comment that is not covered. -/
  uncovered : ∀ i < cs.length, (∀ a ∈ as, i < a.start.offset ∨ a.stop.offset ≤ i) →
    (∃ x, cs[i]? = some x ∧ isBlank x = true) ∨ emit = false ∧ ∃ m n, m ≤ i ∧ i < n ∧
      IsComment cs m n ∧ ∀ a ∈ as, a.stop.offset ≤ m ∨ n ≤ a.start.offset
  /-- The positions follow from the offsets. -/
  positions : ∀ a ∈ as, a.start = Position.start.advanceAll (cs.take a.start.offset) ∧
    a.stop = Position.start.advanceAll (cs.take a.stop.offset)
  /-- The end of the input comes last, behind all characters. -/
  ends : ∃ before, as = before ++ [.ok (.endOfInput (Position.start.advanceAll cs))] ∧
    ∀ a ∈ before, usesInput a = true

namespace Scan

/-! ## All results follow the rules -/

/-- All results from a position on, past all failures. -/
inductive Finds (emit : Bool) : Position → List Item → List Result → Prop
  | endOfInput {p : Position} {items rest : List Item} {gap w : List Char} :
      Scans emit p items gap w (.ok .endOfInput) rest →
      Finds emit p items [result (p.advanceAll gap) w (.ok .endOfInput)]
  | more {p : Position} {items rest : List Item} {gap w : List Char} {e : Except Fault Outcome}
      {as : List Result} : Scans emit p items gap w e rest → e ≠ .ok .endOfInput →
      Finds emit ((p.advanceAll gap).advanceAll w) rest as →
      Finds emit p items (result (p.advanceAll gap) w e :: as)

theorem usesInput_result {start : Position} {w : List Char} {e : Except Fault Outcome}
    (h : e ≠ .ok .endOfInput) : usesInput (result start w e) = true := by
  cases e with
  | error fault => rfl
  | ok o =>
    have ho : (o.toToken start (start.advanceAll w) (String.ofList w)).isEndOfInput = false := by
      rw [← Bool.not_eq_true, isEndOfInput_toToken]
      rintro rfl
      exact h rfl
    rw [result, usesInput, ho]
    rfl

end Scan

namespace Lexer

theorem results_of_usesInput {l l' : Lexer} {a : Result} (h : l.scan = (a, l'))
    (hu : usesInput a = true) : l.results = a :: l'.results := by
  rw [results]
  simp only [h, hu, dite_true]

theorem results_of_not_usesInput {l l' : Lexer} {a : Result} (h : l.scan = (a, l'))
    (hu : usesInput a = false) : l.results = [a] := by
  rw [results]
  simp [h, hu]

theorem scan_eq_result (l : Lexer) :
    ∃ gap w e rest l', l.scan = (result (l.position.advanceAll gap) w e, l') ∧
      l'.options = l.options ∧ l'.cursor.items = rest ∧
      l'.position = (l.position.advanceAll gap).advanceAll w ∧
      Scans l.options.emitComments l.position l.cursor.items gap w e rest := by
  obtain ⟨gap, w, e, rest, hs⟩ := exists_scans l.options.emitComments l.position l.cursor.items
  obtain ⟨l', hscan, hopt, hi, hp⟩ := scan_of_scans hs rfl rfl
  exact ⟨gap, w, e, rest, l', hscan, hopt, hi, hp, hs⟩

/-- **All results follow the rules.** -/
theorem finds_results (l : Lexer) :
    Finds l.options.emitComments l.position l.cursor.items l.results := by
  induction hn : l.cursor.remaining using Nat.strongRecOn generalizing l with
  | ind n ih =>
    obtain ⟨gap, w, e, rest, l', hscan, hopt, hi, hp, hs⟩ := scan_eq_result l
    by_cases he : e = .ok .endOfInput
    · subst he
      rw [results_of_not_usesInput hscan rfl]
      exact .endOfInput hs
    · have hu := @usesInput_result (l.position.advanceAll gap) w e he
      have hfinds := ih _ (hn ▸ remaining_scan_lt hscan hu) l' rfl
      rw [hopt, hp, hi] at hfinds
      rw [results_of_usesInput hscan hu]
      exact .more hs he hfinds

/-- **The rules leave no choice.** -/
theorem results_of_finds {emit : Bool} {p : Position} {items : List Item} {as : List Result}
    (h : Finds emit p items as) {l : Lexer} (hemit : l.options.emitComments = emit)
    (hi : l.cursor.items = items) (hp : l.position = p) : l.results = as := by
  induction h generalizing l with
  | endOfInput hs =>
    obtain ⟨l', hscan, -⟩ := scan_of_scans (hemit ▸ hs) hi hp
    exact results_of_not_usesInput hscan rfl
  | more hs he _ ih =>
    obtain ⟨l', hscan, hopt, hi', hp'⟩ := scan_of_scans (hemit ▸ hs) hi hp
    rw [results_of_usesInput hscan (usesInput_result he), ih (by rw [hopt, hemit]) hi' hp']

end Lexer

namespace Scan

/-! ## Tilings -/

/-- The result `a` covers the characters `w`, which begin at `start`. -/
structure Covers (start : Position) (w : List Char) (a : Result) : Prop where
  start_eq : a.start = start
  stop_eq : a.stop = start.advanceAll w
  shown_eq : a.isString = false → a.shown = String.ofList w
  quoted : a.isString = true → ∃ v, w = '"' :: (v ++ ['"'])

/-- Some characters from a position on are cut into gaps and the characters of results. -/
inductive Tiles (emit : Bool) : Position → List Char → List Result → Prop
  | endOfInput {p : Position} {gap : List Char} : Gap emit True gap →
      Tiles emit p gap [.ok (.endOfInput (p.advanceAll gap))]
  | covered {p : Position} {gap w text : List Char} {a : Result} {as : List Result} :
      Gap emit False gap → usesInput a = true → Covers (p.advanceAll gap) w a →
      Tiles emit ((p.advanceAll gap).advanceAll w) text as →
      Tiles emit p (gap ++ w ++ text) (a :: as)

theorem Covers.of_endOfInput (p : Position) : Covers p [] (.ok (.endOfInput p)) where
  start_eq := rfl
  stop_eq := rfl
  shown_eq _ := rfl
  quoted h := by cases h

/-! ## Results give tiles -/

theorem isString_toToken {o : Outcome} {start stop : Position} {raw : String}
    (h : Result.isString (.ok (o.toToken start stop raw)) = true) : ∃ body, o = .string body := by
  cases o with
  | string body => exact ⟨body, rfl⟩
  | number result =>
    match result with
    | .ok .integer | .ok .float | .error _ => cases h
  | _ => cases h

theorem lexeme_of_not_isString {o : Outcome} {start stop : Position} {raw : String}
    (h : Result.isString (.ok (o.toToken start stop raw)) = false) : o.lexeme raw = raw := by
  cases o with
  | string body =>
    cases body with
    | ok text => cases h
    | error bad => rfl
  | _ => rfl

theorem covers_result {p start : Position} {items rest : List Item} {w : List Char}
    {e : Except Fault Outcome} (h : Reads .gap p items w e rest) :
    Covers start w (result start w e) := by
  cases e with
  | error fault => exact ⟨rfl, rfl, fun _ => rfl, fun hstring => by cases hstring⟩
  | ok o =>
    refine ⟨rfl, rfl, lexeme_of_not_isString, ?_⟩
    intro hstring
    obtain ⟨body, rfl⟩ := isString_toToken hstring
    exact h.fits_gap

theorem Finds.tiles {emit : Bool} {p : Position} {items : List Item} {as : List Result}
    (h : Finds emit p items as) : Tiles emit p (Item.characters items) as := by
  induction h with
  | endOfInput hs =>
    obtain ⟨items', hr⟩ := hs.reads
    obtain ⟨rfl, rfl⟩ := hr.of_endOfInput
    rw [hs.items_eq, Item.characters_append]
    simp only [leaving_ok, show Item.characters [] = [] from rfl, List.append_nil]
    exact .endOfInput (hs.gap.imp fun _ => trivial)
  | @more p items rest gap w e as hs he _ ih =>
    obtain ⟨items', hr⟩ := hs.reads
    have hrest : Item.characters (leaving e rest) = Item.characters rest := by cases e <;> rfl
    rw [hs.items_eq, Item.characters_append, hrest]
    exact .covered (hs.gap_of_ne he) (usesInput_result he) (covers_result hr) ih

end Scan

/-- **All results give a tiling.** -/
theorem Lexer.tiles_results (l : Lexer) :
    Tiles l.options.emitComments l.position (Item.characters l.cursor.items) l.results :=
  (finds_results l).tiles

namespace Scan

/-! ## What a tiling says -/

/-- A whole comment stands between what is before it and the newline or the end behind it. -/
theorem isComment_append {before body rest : List Char} (hbody : '\n' ∉ body)
    (hrest : rest = [] ∨ ∃ rest', rest = '\n' :: rest') :
    IsComment (before ++ (';' :: body ++ rest)) before.length
      (before.length + (body.length + 1)) where
  semicolon := by
    rw [List.getElem?_append_right (Nat.le_refl _), Nat.sub_self]
    rfl
  line j hm hn hj := by
    rw [List.getElem?_append_right hm, List.getElem?_append_left] at hj
    · rcases List.mem_cons.1 (List.mem_of_getElem? hj) with h | h
      · cases h
      · exact hbody h
    · rw [List.length_cons]
      omega
  stop := by
    rcases hrest with rfl | ⟨rest', rfl⟩
    · left
      simp
    · right
      rw [List.getElem?_append_right (Nat.le_add_right _ _), Nat.add_sub_cancel_left]
      show (';' :: body ++ '\n' :: rest')[(';' :: body).length]? = some '\n'
      rw [List.getElem?_append_right (Nat.le_refl _), Nat.sub_self]
      rfl

theorem Gap.blank_or_comment {emit : Bool} {ends : Prop} {gap : List Char}
    (h : Gap emit ends gap) {before after cs : List Char} (hc : cs = before ++ gap ++ after)
    (hends : ends → after = []) {i : Nat} (hle : before.length ≤ i)
    (hlt : i < before.length + gap.length) :
    (∃ x, cs[i]? = some x ∧ isBlank x = true) ∨ emit = false ∧ ∃ m n, m ≤ i ∧ i < n ∧
      IsComment cs m n ∧ before.length ≤ m ∧ n ≤ before.length + gap.length := by
  induction h generalizing before with
  | nil => exact absurd hlt (by simpa using hle)
  | @blank x gap hx _ ih =>
    by_cases hi : i = before.length
    · refine Or.inl ⟨x, ?_, hx⟩
      rw [hc, hi, List.append_assoc, List.getElem?_append_right (Nat.le_refl _), Nat.sub_self]
      rfl
    · have hlen : (before ++ [x]).length = before.length + 1 := List.length_append
      rw [List.length_cons] at hlt ⊢
      rcases @ih (before ++ [x]) (by rw [hc]; simp) (by omega) (by omega) with
        hblank | ⟨hemit, m, n, hm, hn, hcomment, hlow, hhigh⟩
      · exact Or.inl hblank
      · exact Or.inr ⟨hemit, m, n, hm, hn, hcomment, by omega, by omega⟩
  | @comment body gap hemit hbody _ ih =>
    have hlen : (before ++ ';' :: body).length = before.length + (body.length + 1) :=
      List.length_append
    have hlen' : (';' :: (body ++ '\n' :: gap)).length =
        body.length + 1 + ('\n' :: gap).length := by simp; omega
    rw [hlen'] at hlt ⊢
    by_cases hi : i < before.length + (body.length + 1)
    · refine Or.inr ⟨hemit, before.length, _, hle, hi, ?_, Nat.le_refl _, by omega⟩
      rw [hc, show before ++ (';' :: (body ++ '\n' :: gap)) ++ after =
        before ++ (';' :: body ++ ('\n' :: (gap ++ after))) by simp]
      exact isComment_append hbody (Or.inr ⟨_, rfl⟩)
    · rcases @ih (before ++ ';' :: body) (by rw [hc]; simp) (by omega) (by omega) with
        hblank | ⟨hemit, m, n, hm, hn, hcomment, hlow, hhigh⟩
      · exact Or.inl hblank
      · exact Or.inr ⟨hemit, m, n, hm, hn, hcomment, by omega, by omega⟩
  | @lastComment body hemit hbody hend =>
    rw [List.length_cons] at hlt ⊢
    refine Or.inr ⟨hemit, before.length, _, hle, hlt, ?_, Nat.le_refl _, Nat.le_refl _⟩
    rw [hc, hends hend, List.append_assoc]
    exact isComment_append hbody (Or.inl rfl)

theorem Tiles.covers {emit : Bool} {p : Position} {text : List Char} {as : List Result}
    (h : Tiles emit p text as) {a : Result} (ha : a ∈ as) :
    ∃ before w after, text = before ++ w ++ after ∧ Covers (p.advanceAll before) w a := by
  induction h with
  | @endOfInput p gap hgap =>
    rw [List.mem_singleton.1 ha]
    exact ⟨gap, [], [], by simp, .of_endOfInput _⟩
  | @covered p gap w text b as hgap hu hcovers hs ih =>
    rcases List.mem_cons.1 ha with rfl | ha
    · exact ⟨gap, w, text, rfl, hcovers⟩
    · obtain ⟨before, v, after, rfl, ha⟩ := ih ha
      refine ⟨gap ++ w ++ before, v, after, by simp, ?_⟩
      rwa [Position.advanceAll_append, Position.advanceAll_append]

theorem Covers.start_offset {p : Position} {before w : List Char} {a : Result}
    (h : Covers (p.advanceAll before) w a) : a.start.offset = p.offset + before.length := by
  rw [h.start_eq, Position.offset_advanceAll]

theorem Covers.stop_offset {p : Position} {before w : List Char} {a : Result}
    (h : Covers (p.advanceAll before) w a) :
    a.stop.offset = p.offset + before.length + w.length := by
  rw [h.stop_eq, Position.offset_advanceAll, Position.offset_advanceAll]

theorem Covers.slice_eq {before w after : List Char} {a : Result}
    (h : Covers (Position.start.advanceAll before) w a) : a.slice (before ++ w ++ after) = w := by
  have hzero : Position.start.offset = 0 := rfl
  rw [Result.slice, h.start_offset, h.stop_offset, hzero, Nat.zero_add, ← List.length_append,
    List.take_left, List.drop_left]

theorem Tiles.ordered {emit : Bool} {p : Position} {text : List Char} {as : List Result}
    (h : Tiles emit p text as) : as.Pairwise fun a b => a.stop.offset ≤ b.start.offset := by
  induction h with
  | endOfInput => exact List.pairwise_singleton ..
  | covered hgap hu hcovers hs ih =>
    refine List.pairwise_cons.2 ⟨?_, ih⟩
    intro b hb
    obtain ⟨before, w, after, -, hb⟩ := hs.covers hb
    rw [hcovers.stop_eq, hb.start_offset]
    exact Nat.le_add_right _ _

/-- What no result covers is in a gap, which no result meets. -/
theorem Tiles.uncovered {emit : Bool} {p : Position} {text : List Char} {as : List Result}
    (h : Tiles emit p text as) {before cs : List Char} (hp : p.offset = before.length)
    (hc : cs = before ++ text) {i : Nat} (hle : before.length ≤ i) (hlt : i < cs.length)
    (hi : ∀ a ∈ as, i < a.start.offset ∨ a.stop.offset ≤ i) :
    (∃ x, cs[i]? = some x ∧ isBlank x = true) ∨ emit = false ∧ ∃ m n, m ≤ i ∧ i < n ∧
      IsComment cs m n ∧ before.length ≤ m ∧ ∀ a ∈ as, a.stop.offset ≤ m ∨ n ≤ a.start.offset := by
  induction h generalizing before with
  | @endOfInput p gap hgap =>
    have hc' : cs = before ++ gap ++ [] := by rw [hc, List.append_nil]
    have hlt' : i < before.length + gap.length := by rwa [hc, List.length_append] at hlt
    rcases hgap.blank_or_comment hc' (fun _ => rfl) hle hlt' with
      hblank | ⟨hemit, m, n, hm, hn, hcomment, hlow, hhigh⟩
    · exact Or.inl hblank
    · refine Or.inr ⟨hemit, m, n, hm, hn, hcomment, hlow, fun a ha => Or.inr ?_⟩
      rw [List.mem_singleton.1 ha, (Covers.of_endOfInput _).start_offset, hp]
      exact hhigh
  | @covered p gap w text a as hgap hu hcovers hs ih =>
    -- The character is in the gap or behind the result, since no result covers it.
    have hstart := hcovers.start_offset
    have hstop := hcovers.stop_offset
    by_cases higap : i < before.length + gap.length
    · have hc' : cs = before ++ gap ++ (w ++ text) := by rw [hc]; simp
      rcases hgap.blank_or_comment hc' False.elim hle higap with
        hblank | ⟨hemit, m, n, hm, hn, hcomment, hlow, hhigh⟩
      · exact Or.inl hblank
      · refine Or.inr ⟨hemit, m, n, hm, hn, hcomment, hlow, fun b hb => Or.inr ?_⟩
        rcases List.mem_cons.1 hb with rfl | hb
        · omega
        · obtain ⟨u, v, text', -, hbcovers⟩ := hs.covers hb
          have hbstart := hbcovers.start_offset
          rw [Position.offset_advanceAll, Position.offset_advanceAll] at hbstart
          omega
    · have hlen : (before ++ gap ++ w).length = before.length + gap.length + w.length := by
        rw [List.length_append, List.length_append]
      have hp' : ((p.advanceAll gap).advanceAll w).offset = (before ++ gap ++ w).length := by
        rw [Position.offset_advanceAll, Position.offset_advanceAll, hlen, hp]
      have hle' : (before ++ gap ++ w).length ≤ i := by
        have ha := hi a List.mem_cons_self
        omega
      rcases ih hp' (by rw [hc]; simp) hle' fun b hb => hi b (List.mem_cons_of_mem _ hb) with
        hblank | ⟨hemit, m, n, hm, hn, hcomment, hlow, hhigh⟩
      · exact Or.inl hblank
      · refine Or.inr ⟨hemit, m, n, hm, hn, hcomment, by omega, ?_⟩
        intro b hb
        rcases List.mem_cons.1 hb with rfl | hb
        · left
          omega
        · exact hhigh b hb

theorem Tiles.ends {emit : Bool} {p : Position} {text : List Char} {as : List Result}
    (h : Tiles emit p text as) :
    ∃ before, as = before ++ [.ok (.endOfInput (p.advanceAll text))] ∧
      ∀ a ∈ before, usesInput a = true := by
  induction h with
  | endOfInput => exact ⟨[], rfl, fun a ha => absurd ha List.not_mem_nil⟩
  | @covered p gap w text a as hgap hu hcovers hs ih =>
    obtain ⟨before, rfl, hbefore⟩ := ih
    refine ⟨a :: before, ?_, ?_⟩
    · rw [Position.advanceAll_append, Position.advanceAll_append, List.cons_append]
    · intro b hb
      rcases List.mem_cons.1 hb with rfl | hb
      · exact hu
      · exact hbefore b hb

theorem Tiles.coverage {emit : Bool} {cs : List Char} {as : List Result}
    (h : Tiles emit .start cs as) : Coverage emit cs as where
  ordered := h.ordered
  within a ha := by
    obtain ⟨before, w, after, rfl, ha⟩ := h.covers ha
    rw [ha.start_offset, ha.stop_offset, List.length_append, List.length_append]
    have hzero : Position.start.offset = 0 := rfl
    omega
  shown a ha hstring := by
    obtain ⟨before, w, after, rfl, ha⟩ := h.covers ha
    rw [ha.slice_eq]
    exact ha.shown_eq hstring
  quoted a ha hstring := by
    obtain ⟨before, w, after, rfl, ha⟩ := h.covers ha
    rw [ha.slice_eq]
    exact ha.quoted hstring
  uncovered i hlt hi := by
    rcases @Tiles.uncovered emit .start cs as h [] cs rfl rfl i (Nat.zero_le i) hlt hi with
      hblank | ⟨hemit, m, n, hm, hn, hcomment, -, hapart⟩
    · exact Or.inl hblank
    · exact Or.inr ⟨hemit, m, n, hm, hn, hcomment, hapart⟩
  positions a ha := by
    obtain ⟨before, w, after, rfl, ha⟩ := h.covers ha
    have hzero : Position.start.offset = 0 := rfl
    rw [ha.start_offset, ha.stop_offset, hzero, Nat.zero_add, ← List.length_append,
      List.take_left, List.append_assoc, List.take_left, ha.start_eq, ha.stop_eq,
      Position.advanceAll_append]
    exact ⟨rfl, rfl⟩
  ends := h.ends

end Scan

/-- **Results cover the input.** -/
theorem Lexer.coverage_results (options : Options) (r : Reader) :
    Coverage options.emitComments (Item.characters r.items) (ofReader options r).results :=
  (tiles_results (ofReader options r)).coverage

end SexprLex
