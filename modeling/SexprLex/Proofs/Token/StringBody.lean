import Mathlib.Data.List.Basic
import SexprLex.Token.Literal

/-!
# Bodies of string literals

Behind its opening quote a literal goes on up to a **closing** quote: the first double quote with
an even number of backslashes right before it. The characters up to there are the body, which
falls into **pieces**: plain characters, and pairs of a backslash and a character.

* `closing?` — where the closing quote is.
* `pieces` — the pieces of a body.
* `Body.addAll` — what a body means, piece by piece.
* `Piece.meaning` — the character that a piece stands for.
* `Spells` — the ways to write a text as a body.

The number of backslashes is counted over the whole body so far. That the parity is the same when
a plain character or a pair is taken off the front (`trailing_cons`, `trailing_pair_mod`) makes
`closing?` a recursion along the pieces.
-/

namespace SexprLex.Literal

/-! ## The closing quote -/

/-- How many backslashes a text ends with. -/
def trailing (text : List Char) : Nat := (text.reverse.takeWhile (· = '\\')).length

/-- Whether the character at `i` is a double quote with an even number of backslashes before it. -/
def closesAt (text : List Char) (i : Nat) : Bool :=
  text[i]? == some '"' && trailing (text.take i) % 2 == 0

/-- Where the closing quote is in the text behind the opening quote. -/
def closing? (text : List Char) : Option Nat := (List.range text.length).find? (closesAt text)

theorem trailing_cons {c : Char} (hc : c ≠ '\\') (text : List Char) :
    trailing (c :: text) = trailing text := by
  simp only [trailing, List.reverse_cons, List.takeWhile_append]
  split
  · next h => simp [hc, h]
  · rfl

theorem trailing_pair_mod (c : Char) (text : List Char) :
    trailing ('\\' :: c :: text) % 2 = trailing text % 2 := by
  by_cases hc : c = '\\'
  · subst hc
    simp only [trailing, List.reverse_cons, List.append_assoc, List.takeWhile_append]
    split
    · next h => simp [h]
    · rfl
  · simp only [trailing, List.reverse_cons, List.append_assoc, List.takeWhile_append]
    split
    · next h => simp [hc, h]
    · rfl

theorem closing?_cons (c : Char) (text : List Char) :
    closing? (c :: text) = if closesAt (c :: text) 0 then some 0 else
      ((List.range text.length).find? (closesAt (c :: text) ∘ Nat.succ)).map Nat.succ := by
  rw [closing?, List.length_cons, List.range_succ_eq_map, List.find?_cons, List.find?_map]
  split <;> simp_all

theorem closing?_quote (text : List Char) : closing? ('"' :: text) = some 0 := by
  rw [closing?_cons]
  rfl

theorem closing?_plain {c : Char} (hq : c ≠ '"') (hb : c ≠ '\\') (text : List Char) :
    closing? (c :: text) = (closing? text).map (· + 1) := by
  have hcloses : closesAt (c :: text) ∘ Nat.succ = closesAt text := by
    funext i
    simp [closesAt, trailing_cons hb]
  have hzero : closesAt (c :: text) 0 = false := by simp [closesAt, hq]
  rw [closing?_cons, hcloses, hzero]
  rfl

theorem closing?_pair (c : Char) (text : List Char) :
    closing? ('\\' :: c :: text) = (closing? text).map (· + 2) := by
  have hcloses : (closesAt ('\\' :: c :: text) ∘ Nat.succ) ∘ Nat.succ = closesAt text := by
    funext i
    simp [closesAt, trailing_pair_mod]
  have hzero : closesAt ('\\' :: c :: text) 0 = false := rfl
  have hone : (closesAt ('\\' :: c :: text) ∘ Nat.succ) 0 = false := by
    simp [closesAt, trailing]
  rw [closing?_cons, hzero, List.length_cons, List.range_succ_eq_map, List.find?_cons, hone,
    List.find?_map, hcloses, closing?]
  simp [Function.comp_def]

theorem closing?_lt {text : List Char} {i : Nat} (h : closing? text = some i) :
    i < text.length :=
  List.mem_range.1 (List.mem_of_find?_eq_some h)

/-- A closing quote is a quote. -/
theorem take_succ_closing {text : List Char} {i : Nat} (h : closing? text = some i) :
    text.take (i + 1) = text.take i ++ ['"'] := by
  have hcloses := List.find?_some h
  rw [closesAt, Bool.and_eq_true, beq_iff_eq] at hcloses
  rw [List.take_add_one, hcloses.1]
  rfl

/-! ## Pieces -/

/-- A part of a body. -/
inductive Piece
  | plain (c : Char)
  /-- A backslash and the character behind it. -/
  | pair (c : Char)
  deriving DecidableEq

/-- The pieces of a body, from left to right. -/
def pieces : List Char → List Piece
  | [] => []
  | [c] => [.plain c]
  | c :: d :: text => if c = '\\' then .pair d :: pieces text else .plain c :: pieces (d :: text)

/-- The escapes: the character behind the backslash, and what the pair stands for. -/
def escapes : List (Char × Char) := [('n', '\n'), ('t', '\t'), ('"', '"'), ('\\', '\\')]

namespace Piece

/-- How the piece is written. -/
def chars : Piece → List Char
  | .plain c => [c]
  | .pair c => ['\\', c]

/-- The character that the piece stands for if it is valid. -/
def meaning : Piece → Char
  | .plain c => c
  | .pair c => (escapes.lookup c).getD c

/-- Whether the piece stands for a character. -/
def isValid : Piece → Bool
  | .plain _ => true
  | .pair c => ['n', 't', '"', '\\'].contains c

theorem isValid_pair_eq (c : Char) : (pair c).isValid = (unescape? c).isSome := by
  unfold unescape?
  split <;> simp_all [isValid]

theorem unescape?_of_isValid {c : Char} (h : (pair c).isValid = true) :
    unescape? c = some (pair c).meaning := by
  simp only [isValid, List.contains_cons, List.contains_nil, Bool.or_false, Bool.or_eq_true,
    beq_iff_eq] at h
  rcases h with rfl | rfl | rfl | rfl <;> rfl

theorem of_mem_escapes {c d : Char} (h : (c, d) ∈ escapes) :
    (pair c).isValid = true ∧ (pair c).meaning = d := by
  simp only [escapes, List.mem_cons, Prod.mk.injEq, List.not_mem_nil, or_false] at h
  rcases h with ⟨rfl, rfl⟩ | ⟨rfl, rfl⟩ | ⟨rfl, rfl⟩ | ⟨rfl, rfl⟩ <;> exact ⟨rfl, rfl⟩

end Piece

theorem pieces_plain {c : Char} (hc : c ≠ '\\') (text : List Char) :
    pieces (c :: text) = .plain c :: pieces text := by
  cases text with
  | nil => rfl
  | cons d text => rw [pieces, if_neg hc]

theorem pieces_pair (c : Char) (text : List Char) :
    pieces ('\\' :: c :: text) = .pair c :: pieces text := by
  rw [pieces, if_pos rfl]

/-- Induction along the pieces; the last backslash of a text may be without its character. -/
@[elab_as_elim]
theorem piecesInduction {P : List Char → Prop} (nil : P []) (backslash : P ['\\'])
    (plain : ∀ c text, c ≠ '\\' → P text → P (c :: text))
    (pair : ∀ c text, P text → P ('\\' :: c :: text)) : ∀ text, P text
  | [] => nil
  | [c] => by
    by_cases hc : c = '\\'
    · exact hc ▸ backslash
    · exact plain c [] hc nil
  | c :: d :: text => by
    by_cases hc : c = '\\'
    · exact hc ▸ pair d text (piecesInduction nil backslash plain pair text)
    · exact plain c _ hc (piecesInduction nil backslash plain pair (d :: text))

/-- Before a closing quote every backslash begins a pair. -/
theorem plain_backslash_notMem {text : List Char} {i : Nat} (h : closing? text = some i) :
    .plain '\\' ∉ pieces (text.take i) := by
  induction text using piecesInduction generalizing i with
  | nil | backslash => cases h
  | plain c text hb ih =>
    by_cases hq : c = '"'
    · subst hq
      rw [closing?_quote] at h
      cases h
      exact List.not_mem_nil
    · rw [closing?_plain hq hb, Option.map_eq_some_iff] at h
      obtain ⟨j, hj, rfl⟩ := h
      rw [List.take_succ_cons, pieces_plain hb, List.mem_cons, not_or]
      refine ⟨?_, ih hj⟩
      intro hc
      cases hc
      exact hb rfl
  | pair c text ih =>
    rw [closing?_pair, Option.map_eq_some_iff] at h
    obtain ⟨j, hj, rfl⟩ := h
    rw [List.take_succ_cons, List.take_succ_cons, pieces_pair, List.mem_cons, not_or]
    exact ⟨fun hc => (by cases hc), ih hj⟩

/-- The pieces are the text, cut up. -/
theorem flatMap_chars_pieces (text : List Char) : (pieces text).flatMap Piece.chars = text := by
  induction text using piecesInduction with
  | nil | backslash => rfl
  | plain c text hc ih =>
    rw [pieces_plain hc, List.flatMap_cons, ih]
    rfl
  | pair c text ih =>
    rw [pieces_pair, List.flatMap_cons, ih]
    rfl

/-! ## Meaning -/

namespace Body

/-- What a body means when `text` is added to it, which begins at `p`. -/
def addAll (body : Body) (p : Position) : List Char → Body
  | [] => body
  | [c] => body.plain c
  | c :: d :: text =>
    if c = '\\' then addAll (body.pair p d) ((p.advance c).advance d) text
    else addAll (body.plain c) (p.advance c) (d :: text)

@[simp] theorem addAll_nil (body : Body) (p : Position) : body.addAll p [] = body := rfl

theorem addAll_plain {c : Char} (hc : c ≠ '\\') (body : Body) (p : Position) (text : List Char) :
    body.addAll p (c :: text) = (body.plain c).addAll (p.advance c) text := by
  cases text with
  | nil => rfl
  | cons d text => rw [addAll, if_neg hc]

theorem addAll_pair (c : Char) (body : Body) (p : Position) (text : List Char) :
    body.addAll p ('\\' :: c :: text) =
      (body.pair p c).addAll ((p.advance '\\').advance c) text := by
  rw [addAll, if_pos rfl]

theorem isOk_plain (body : Body) (c : Char) : (body.plain c).isOk = body.isOk := by
  cases body <;> rfl

theorem isOk_pair (body : Body) (p : Position) (c : Char) :
    (body.pair p c).isOk = (body.isOk && (Piece.pair c).isValid) := by
  rw [Piece.isValid_pair_eq]
  cases body with
  | error bad => rfl
  | ok text =>
    simp only [pair]
    cases unescape? c <;> rfl

/-- A body stands for a text exactly if all its pairs are escapes. -/
theorem isOk_addAll (body : Body) (p : Position) (text : List Char) :
    (body.addAll p text).isOk = (body.isOk && (pieces text).all Piece.isValid) := by
  induction text using piecesInduction generalizing body p with
  | nil => simp [pieces]
  | backslash => simp [addAll, pieces, isOk_plain, Piece.isValid]
  | plain c text hc ih =>
    rw [addAll_plain hc, ih, isOk_plain, pieces_plain hc]
    rfl
  | pair c text ih => rw [addAll_pair, ih, isOk_pair, pieces_pair, List.all_cons, Bool.and_assoc]

/-- A valid body stands for what its pieces stand for, one by one. -/
theorem addAll_of_valid {text : List Char} (h : (pieces text).all Piece.isValid = true)
    (p : Position) (done : String) :
    addAll (.ok done) p text = .ok (done ++ String.ofList ((pieces text).map Piece.meaning)) := by
  induction text using piecesInduction generalizing p done with
  | nil => simp [pieces]
  | backslash =>
    rw [pieces, List.map_singleton, ← push_append_ofList, String.ofList_nil, String.append_empty]
    rfl
  | plain c text hc ih =>
    rw [pieces_plain hc, List.all_cons, Bool.and_eq_true] at h
    rw [addAll_plain hc, plain, ih h.2, pieces_plain hc, List.map_cons, push_append_ofList]
    rfl
  | pair c text ih =>
    rw [pieces_pair, List.all_cons, Bool.and_eq_true] at h
    rw [addAll_pair, pair, Piece.unescape?_of_isValid h.1]
    dsimp only
    rw [ih h.2, pieces_pair, List.map_cons, push_append_ofList]

theorem addAll_error (bad : BadEscape) (p : Position) (text : List Char) :
    addAll (.error bad) p text = .error bad := by
  induction text using piecesInduction generalizing p with
  | nil | backslash => rfl
  | plain c text hc ih => rw [addAll_plain hc, plain_error, ih]
  | pair c text ih => rw [addAll_pair, pair_error, ih]

/-- The meaning of an invalid body is its first bad pair. -/
theorem addAll_of_invalid {text : List Char} (h : (pieces text).all Piece.isValid = false)
    (p : Position) (done : String) :
    ∃ before c after, pieces text = before ++ .pair c :: after ∧
      before.all Piece.isValid = true ∧ (Piece.pair c).isValid = false ∧
      addAll (.ok done) p text = .error ⟨p.advanceAll (before.flatMap Piece.chars), c⟩ := by
  induction text using piecesInduction generalizing p done with
  | nil | backslash => cases h
  | plain c text hc ih =>
    rw [pieces_plain hc, List.all_cons, show (Piece.plain c).isValid = true from rfl,
      Bool.true_and] at h
    obtain ⟨before, d, after, hpieces, hbefore, hd, hmeaning⟩ :=
      ih h (p.advance c) (done.push c)
    refine ⟨.plain c :: before, d, after, ?_, ?_, hd, ?_⟩
    · rw [pieces_plain hc, hpieces, List.cons_append]
    · rw [List.all_cons, hbefore]
      rfl
    · rw [addAll_plain hc]
      exact hmeaning
  | pair c text ih =>
    by_cases hc : (Piece.pair c).isValid = true
    · rw [pieces_pair, List.all_cons, hc, Bool.true_and] at h
      obtain ⟨before, d, after, hpieces, hbefore, hd, hmeaning⟩ :=
        ih h ((p.advance '\\').advance c) (done.push (Piece.pair c).meaning)
      refine ⟨.pair c :: before, d, after, ?_, ?_, hd, ?_⟩
      · rw [pieces_pair, hpieces, List.cons_append]
      · rw [List.all_cons, hbefore, hc]
        rfl
      · rw [addAll_pair, pair, Piece.unescape?_of_isValid hc]
        exact hmeaning
    · rw [Bool.not_eq_true] at hc
      refine ⟨[], c, pieces text, pieces_pair c text, rfl, hc, ?_⟩
      have hnone : unescape? c = none := by
        rwa [Piece.isValid_pair_eq, Option.isSome_eq_false_iff, Option.isNone_iff_eq_none] at hc
      rw [addAll_pair, pair, hnone]
      exact addAll_error _ _ _

end Body

/-! ## Spelling -/

/-- The body spells the text. A double quote and a backslash have to be escaped, a newline and a
tab may be. -/
inductive Spells : List Char → List Char → Prop
  | nil : Spells [] []
  | plain {c : Char} {body text : List Char} : c ≠ '"' → c ≠ '\\' → Spells body text →
      Spells (c :: body) (c :: text)
  | escaped {c d : Char} {body text : List Char} : (c, d) ∈ escapes → Spells body text →
      Spells ('\\' :: c :: body) (d :: text)

/-- Every text can be spelled. -/
theorem exists_spells (text : List Char) : ∃ body, Spells body text := by
  induction text with
  | nil => exact ⟨[], .nil⟩
  | cons c text ih =>
    obtain ⟨body, h⟩ := ih
    by_cases hq : c = '"'
    · exact ⟨_, .escaped (show ('"', c) ∈ escapes by simp [escapes, hq]) h⟩
    · by_cases hb : c = '\\'
      · exact ⟨_, .escaped (show ('\\', c) ∈ escapes by simp [escapes, hb]) h⟩
      · exact ⟨_, .plain hq hb h⟩

namespace Spells

variable {body text : List Char}

/-- The closing quote is the one behind the body. -/
theorem closing? (h : Spells body text) (rest : List Char) :
    Literal.closing? (body ++ '"' :: rest) = some body.length := by
  induction h with
  | nil => exact closing?_quote rest
  | plain hq hb _ ih =>
    rw [List.cons_append, closing?_plain hq hb, ih]
    rfl
  | escaped _ _ ih =>
    rw [List.cons_append, List.cons_append, closing?_pair, ih]
    rfl

theorem pieces (h : Spells body text) :
    (Literal.pieces body).all Piece.isValid = true ∧
      (Literal.pieces body).map Piece.meaning = text := by
  induction h with
  | nil => exact ⟨rfl, rfl⟩
  | plain _ hb _ ih =>
    rw [pieces_plain hb, List.all_cons, List.map_cons, ih.1, ih.2]
    exact ⟨rfl, rfl⟩
  | escaped hc _ ih =>
    obtain ⟨hvalid, hmeaning⟩ := Piece.of_mem_escapes hc
    rw [pieces_pair, List.all_cons, List.map_cons, ih.1, ih.2, hvalid, hmeaning]
    exact ⟨rfl, rfl⟩

end Spells

end SexprLex.Literal
