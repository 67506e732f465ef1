import SexprLex.Proofs.Scan.Coverage
import SexprLex.Proofs.Scan.Transport

/-!
# Scans come to an end

A scan has rounds that take no character: behind a dropped comment it begins again, and a failing
read leaves it where it was. Still it returns, and so does whoever scans again and again.

**Theorem (`Lexer.terminates`).** Every scan halts, every token but the end of the input covers a
character, and past all failures the end of the input is found after at most as many results as
there are bytes and failing reads. So a text of `m` characters has at most `m + 1` tokens.

* **One scan.** `Scan.size` goes down with every step that goes on (`Scan.size_lt_of_step`), and so
  it bounds the number of steps (`Scan.exists_halts`).
* **All scans.** Every result but the last uses up a byte or a failing read
  (`Lexer.remaining_scan_lt`), and so what the reader has to say bounds the number of results
  (`Lexer.length_results_le`).
-/

namespace SexprLex

/-! ## Reads -/

namespace Part

/-- Whether the part is a read that is tried again. -/
def isInterrupted : Part → Bool
  | .failure fault => fault.isTransient
  | _ => false

/-- How many bytes the parts deliver. -/
def byteCount : List Part → Nat
  | [] => 0
  | .chunk _ rest :: parts => rest.length + 1 + byteCount parts
  | .endOfInput :: parts | .failure _ :: parts => byteCount parts

/-- How many reads the parts fail, those that are tried again left out. -/
def failureCount : List Part → Nat
  | [] => 0
  | .failure fault :: parts => (if fault.isTransient then 0 else 1) + failureCount parts
  | .chunk _ _ :: parts | .endOfInput :: parts => failureCount parts

theorem totalWeight_eq (parts : List Part) :
    totalWeight parts = byteCount parts + failureCount parts := by
  induction parts with
  | nil => rfl
  | cons part parts ih =>
    cases part <;> simp only [totalWeight, weight, byteCount, failureCount, ih] <;> omega

end Part

theorem Reader.exists_askParts_eq (parts : List Part) :
    ∃ interrupted rest, parts = interrupted ++ rest ∧
      (∀ part ∈ interrupted, part.isInterrupted = true) ∧
      (∀ part ∈ rest.head?, part.isInterrupted = false) ∧ askParts parts = askParts rest := by
  induction parts with
  | nil => exact ⟨[], [], rfl, by simp, by simp, rfl⟩
  | cons part parts ih =>
    by_cases hpart : part.isInterrupted = true
    · obtain ⟨interrupted, rest, rfl, hinterrupted, hrest, hask⟩ := ih
      refine ⟨part :: interrupted, rest, rfl, ?_, hrest, ?_⟩
      · exact List.forall_mem_cons.2 ⟨hpart, hinterrupted⟩
      cases part with
      | failure fault =>
        have htransient : fault.isTransient = true := hpart
        rw [askParts, if_pos htransient, hask]
      | chunk | endOfInput => cases hpart
    · exact ⟨[], part :: parts, rfl, by simp, by simpa using hpart, rfl⟩

/-! ## One scan -/

namespace Scan

/-- The scan halts with a result after so many more steps. -/
inductive Halts (options : Options) : Scan → Nat → Except ScanFailure Token × Cursor → Prop
  | token {s : Scan} {t : Token} {cursor : Cursor} : s.step options = .token t cursor →
      Halts options s 0 (.ok t, cursor)
  | failed {s : Scan} {failure : ScanFailure} {cursor : Cursor} :
      s.step options = .failed failure cursor → Halts options s 0 (.error failure, cursor)
  | more {s s' : Scan} {n : Nat} {r : Except ScanFailure Token × Cursor} :
      s.step options = .more s' → Halts options s' n r → Halts options s (n + 1) r

/-- **Every scan halts.** -/
theorem exists_halts (options : Options) (s : Scan) :
    ∃ n ≤ s.size, Halts options s n (s.run options) := by
  fun_induction run options s with
  | case1 s s' h ih =>
    obtain ⟨n, hn, hhalts⟩ := ih
    have hlt := size_lt_of_step h
    exact ⟨n + 1, by omega, .more h hhalts⟩
  | case2 s t cursor h => exact ⟨0, Nat.zero_le _, .token h⟩
  | case3 s failure cursor h => exact ⟨0, Nat.zero_le _, .failed h⟩

end Scan

open Scan

namespace Lexer

theorem exists_halts_scan (l : Lexer) :
    ∃ n ≤ 2 * l.cursor.remaining,
      Halts l.options (fresh l.cursor) n (l.scan.1, l.scan.2.cursor) := by
  obtain ⟨n, hn, hhalts⟩ := exists_halts l.options (fresh l.cursor)
  rw [size_of_gap rfl] at hn
  exact ⟨n, hn, hhalts⟩

/-- **A token covers at least one character**, unless it is the end of the input. -/
theorem offset_lt_of_scan {l l' : Lexer} {t : Token} (h : l.scan = (.ok t, l'))
    (ht : t.isEndOfInput = false) : t.start.offset < t.stop.offset := by
  obtain ⟨gap, w, e, rest, l'', hscan, -, -, -, hs⟩ := scan_eq_result l
  rw [h] at hscan
  cases e with
  | error fault => cases hscan
  | ok o =>
    cases hscan
    have ho : o ≠ .endOfInput := by
      rwa [← Bool.not_eq_true, isEndOfInput_toToken] at ht
    obtain ⟨items', hr⟩ := hs.reads
    show _ < ((l.position.advanceAll gap).advanceAll w).offset
    rw [Position.offset_advanceAll]
    exact Nat.lt_add_of_pos_right (List.length_pos_of_ne_nil (hr.ne_nil ho))

/-! ## All scans -/

/-- **What the cursor can still meet bounds the number of results.** -/
theorem length_results_le (l : Lexer) : l.results.length ≤ l.cursor.remaining + 1 := by
  fun_induction results l with
  | case1 l a l' h hu ih =>
    have hlt := remaining_scan_lt h hu
    rw [List.length_cons]
    omega
  | case2 l a l' h hu => exact Nat.le_add_left _ _

end Lexer

theorem Scan.Lexes.length_le {emit : Bool} {p : Position} {items : List Item} {ts : List Token}
    (h : Lexes emit p items ts) : ts.length ≤ (Item.characters items).length + 1 := by
  induction h with
  | token hs ho _ _ ih =>
    obtain ⟨items', hr⟩ := hs.reads
    have hw := List.length_pos_of_ne_nil (hr.ne_nil ho)
    rw [hs.items_eq, leaving_ok, Item.characters_append, List.length_append, List.length_append,
      List.length_cons]
    omega
  | endOfInput | failure => exact Nat.le_add_left _ _

/-- Whatever is read, scans return, take characters and come to the end of the input. -/
structure Terminates (options : Options) : Prop where
  /-- Asked for a byte, a reader passes the interrupted reads before it and answers with what is
  behind them. -/
  answers : ∀ parts, ∃ interrupted rest, parts = interrupted ++ rest ∧
    (∀ part ∈ interrupted, part.isInterrupted = true) ∧
    (∀ part ∈ rest.head?, part.isInterrupted = false) ∧
    Reader.askParts parts = Reader.askParts rest
  /-- Every scan returns. -/
  returns : ∀ l : Lexer, l.options = options → ∃ n ≤ 2 * l.cursor.remaining,
    Halts options (fresh l.cursor) n (l.scan.1, l.scan.2.cursor)
  /-- Every token but the end of the input covers a character. -/
  covers : ∀ (l l' : Lexer) (t : Token), l.options = options → l.scan = (.ok t, l') →
    t.isEndOfInput = false → t.start.offset < t.stop.offset
  /-- Scan after scan, past all failures, the end of the input is found, and before it at most as
  many results as there are bytes and failing reads. -/
  ends : ∀ parts, ∃ before p,
    (Lexer.ofReader options (.ofParts parts)).results = before ++ [.ok (.endOfInput p)] ∧
      (∀ a ∈ before, usesInput a = true) ∧
      before.length ≤ Part.byteCount parts + Part.failureCount parts
  /-- A text has at most one token more than it has characters, in whatever chunks it comes. -/
  collects : ∀ (text : String) (chunks : List (List UInt8)), [] ∉ chunks →
    chunks.flatten = text.toUTF8.data.toList →
    (TokenStream.ofReader options (.ofParts (chunks.map .ofBytes))).collect.1.length ≤
      text.toList.length + 1

theorem length_tokenize_le (options : Options) (text : String) :
    (tokenize options text).length ≤ text.toList.length + 1 := by
  obtain ⟨ts, hl⟩ := exists_lexes options.emitComments .start (text.toList.map .ok)
  have hcharacters : Item.characters (text.toList.map .ok) = text.toList := by
    have happend := Item.characters_append text.toList []
    rw [List.append_nil] at happend
    rw [happend]
    exact List.append_nil _
  have hlen := hl.length_le
  rwa [hcharacters, ← tokenize_of_lexes hl] at hlen

/-- **Scans come to an end.** -/
theorem Lexer.terminates (options : Options) : Terminates options where
  answers := Reader.exists_askParts_eq
  returns l hl := hl ▸ l.exists_halts_scan
  covers _ _ _ _ h ht := offset_lt_of_scan h ht
  ends parts := by
    have htiles := tiles_results (.ofReader options (.ofParts parts))
    obtain ⟨before, hresults, hbefore⟩ := htiles.ends
    refine ⟨before, _, hresults, hbefore, ?_⟩
    have hlen := length_results_le (.ofReader options (.ofParts parts))
    have hremaining : (ofReader options (.ofParts parts)).cursor.remaining =
        Part.totalWeight parts := rfl
    rw [hresults, List.length_append, List.length_singleton, hremaining,
      Part.totalWeight_eq] at hlen
    omega
  collects text chunks hchunks htext := by
    rw [collect_of_chunks options hchunks htext]
    exact length_tokenize_le options text

/-- The letter `λ` in two chunks: its token covers a character, and with the end of the input there
are two. -/
theorem Lexer.terminates_cut_character :
    (∃ t l', (Lexer.ofReader .default (.ofText "λ")).scan = (.ok t, l') ∧
      t.isEndOfInput = false ∧ t.start.offset < t.stop.offset) ∧
    [] ∉ [[(0xCE : UInt8)], [0xBB]] ∧ [[0xCE], [0xBB]].flatten = "λ".toUTF8.data.toList ∧
    (TokenStream.ofReader .default
      (.ofParts ([[0xCE], [0xBB]].map .ofBytes))).collect.1.length ≤ "λ".toList.length + 1 := by
  have hs : Scans Options.default.emitComments .start ("λ".toList.map .ok) [] "λ".toList
      (.ok .symbol) [] := .found (.take rfl .atEnd) (by simp)
  obtain ⟨l', hscan, -⟩ :=
    Lexer.scan_of_scans (l := .ofReader .default (.ofText "λ")) hs (Reader.items_ofText _) rfl
  have hcovers := (Lexer.terminates .default).covers _ l' _ rfl hscan rfl
  have hchunks : [] ∉ [[(0xCE : UInt8)], [0xBB]] := by decide
  exact ⟨⟨_, l', hscan, rfl, hcovers⟩, hchunks, rfl,
    (Lexer.terminates .default).collects "λ" _ hchunks rfl⟩

end SexprLex
