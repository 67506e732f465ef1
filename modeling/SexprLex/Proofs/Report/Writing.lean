import SexprLex.Report.Dump

/-!
# What a report writes

A report writes token by token, and stops at the first write that fails. What it has written can
be said without the order of the writes: the lines of the tokens in one text, and the diagnostics
of the errors among them in another.

* `Report.linesOf`, `Report.diagnosticsOf` — the two texts of some tokens.
* `Sink.write_append_of_written`, `Sink.write_append_of_failed` — a text may be written in pieces.
* `Report.run_cases` — a report takes all tokens of its stream, or it stops at the first one whose
  write fails.
* `Report.Writes.dump`, `Report.Writes.check` — writing about some tokens one by one is writing
  their texts at once.
-/

namespace SexprLex

/-! ## Sinks -/

namespace Sink

/-- There is room for the text. -/
def Fits (sink : Sink) (text : String) : Prop :=
  ∀ n, sink.capacity = some n → text.utf8ByteSize ≤ n - sink.content.size

theorem size_toUTF8 (text : String) : text.toUTF8.size = text.utf8ByteSize := rfl

theorem toUTF8_append (a b : String) : (a ++ b).toUTF8 = a.toUTF8 ++ b.toUTF8 :=
  String.toByteArray_append

theorem toUTF8_inj {a b : String} : a.toUTF8 = b.toUTF8 ↔ a = b := String.toByteArray_inj

theorem toUTF8_eq_empty {text : String} : text.toUTF8 = .empty ↔ text = "" := by
  have hempty : "".toUTF8 = .empty := String.toByteArray_empty
  rw [← hempty, toUTF8_inj]

theorem extract_of_size_le {bytes : ByteArray} {n : Nat} (h : bytes.size ≤ n) :
    bytes.extract 0 n = bytes := by
  rw [← Nat.max_eq_left h, ByteArray.extract_zero_max_size]

theorem write_of_fits {sink : Sink} {text : String} (h : sink.Fits text) :
    sink.write text = (none, { sink with content := sink.content ++ text.toUTF8 }) := by
  rw [write]
  cases hcap : sink.capacity with
  | none => rfl
  | some n => exact if_pos (h n hcap)

theorem write_of_not_fits {sink : Sink} {text : String} {n : Nat} (hcap : sink.capacity = some n)
    (h : n - sink.content.size < text.utf8ByteSize) :
    sink.write text = (some sink.fault,
      { sink with content := sink.content ++ text.toUTF8.extract 0 (n - sink.content.size) }) := by
  rw [write, hcap]
  exact if_neg (Nat.not_le_of_lt h)

theorem of_write_none {sink sink' : Sink} {text : String} (h : sink.write text = (none, sink')) :
    sink.Fits text ∧ sink' = { sink with content := sink.content ++ text.toUTF8 } := by
  by_cases hfits : sink.Fits text
  · rw [write_of_fits hfits] at h
    cases h
    exact ⟨hfits, rfl⟩
  · simp only [Fits, Classical.not_forall, Nat.not_le] at hfits
    obtain ⟨n, hcap, hlt⟩ := hfits
    rw [write_of_not_fits hcap hlt] at h
    cases h

@[simp] theorem write_empty (sink : Sink) : sink.write "" = (none, sink) := by
  have hfits : sink.Fits "" := by
    intro n _
    exact Nat.zero_le _
  rw [write_of_fits hfits]
  simp

/-- **A text may be written in pieces.** -/
theorem write_append_of_written {sink sink' : Sink} {a : String}
    (h : sink.write a = (none, sink')) (b : String) : sink.write (a ++ b) = sink'.write b := by
  obtain ⟨hfits, rfl⟩ := of_write_none h
  have hsize : (sink.content ++ a.toUTF8).size = sink.content.size + a.utf8ByteSize :=
    ByteArray.size_append
  by_cases hb : Fits { sink with content := sink.content ++ a.toUTF8 } b
  · have hab : sink.Fits (a ++ b) := by
      intro n hcap
      have := hfits n hcap
      have := hb n hcap
      simp only [hsize] at this
      rw [String.utf8ByteSize_append]
      omega
    rw [write_of_fits hab, write_of_fits hb, toUTF8_append, ByteArray.append_assoc]
  · simp only [Fits, Classical.not_forall, Nat.not_le] at hb
    obtain ⟨n, hcap, hlt⟩ := hb
    have hle := hfits n hcap
    have hall : a.toUTF8.extract 0 (n - sink.content.size) = a.toUTF8 := extract_of_size_le hle
    have hlt' : n - (sink.content.size + a.utf8ByteSize) < b.utf8ByteSize := hsize ▸ hlt
    have hab : n - sink.content.size < (a ++ b).utf8ByteSize := by
      rw [String.utf8ByteSize_append]
      omega
    rw [write_of_not_fits hcap hab,
      @write_of_not_fits { sink with content := sink.content ++ a.toUTF8 } b n hcap hlt]
    simp only [hsize, toUTF8_append, ByteArray.extract_append, size_toUTF8, Nat.zero_sub,
      hall, ByteArray.append_assoc, Nat.sub_sub]

end Sink

/-! ## The texts of some tokens -/

/-- Some lines, each with a newline behind it. -/
def Text.unlines (lines : List String) : String := String.join (lines.map (· ++ "\n"))

@[simp] theorem Text.unlines_nil : unlines [] = "" := String.join_nil

theorem Text.unlines_append (a b : List String) : unlines (a ++ b) = unlines a ++ unlines b := by
  rw [unlines, List.map_append, String.join_append]
  rfl

theorem Text.unlines_eq_empty {lines : List String} : unlines lines = "" ↔ lines = [] := by
  cases lines with
  | nil => simp
  | cons line lines => simp [unlines, String.join_cons]

/-- The counts of some tokens. -/
def Summary.ofTokens (ts : List Token) : Summary := ⟨ts.length, ts.countP Token.isError⟩

theorem Summary.foldl_add (s : Summary) (ts : List Token) :
    ts.foldl add s = ⟨s.tokens + ts.length, s.errors + ts.countP Token.isError⟩ := by
  induction ts generalizing s with
  | nil => rfl
  | cons t ts ih =>
    rw [List.foldl_cons, ih, List.length_cons, List.countP_cons, add]
    by_cases ht : t.isError = true
    · simp [ht, Nat.add_assoc, Nat.add_comm 1]
    · simp [ht, Nat.add_assoc, Nat.add_comm 1]

theorem Summary.foldl_add_empty (ts : List Token) : ts.foldl add empty = ofTokens ts := by
  rw [foldl_add, ofTokens, empty, Nat.zero_add, Nat.zero_add]

namespace Report

/-- The lines of some tokens. -/
def linesOf (ts : List Token) : String := Text.unlines (ts.map Token.render)

/-- The diagnostics of the errors among some tokens. -/
def diagnosticsOf (path : String) (ts : List Token) : String :=
  Text.unlines ((ts.filterMap Token.error?).map (Diagnostic.render path))

theorem linesOf_append (ts us : List Token) : linesOf (ts ++ us) = linesOf ts ++ linesOf us := by
  rw [linesOf, List.map_append, Text.unlines_append]
  rfl

theorem linesOf_singleton (t : Token) : linesOf [t] = t.render ++ "\n" := by
  simp [linesOf, Text.unlines, String.join_cons]

theorem diagnosticsOf_append (path : String) (ts us : List Token) :
    diagnosticsOf path (ts ++ us) = diagnosticsOf path ts ++ diagnosticsOf path us := by
  rw [diagnosticsOf, List.filterMap_append, List.map_append, Text.unlines_append]
  rfl

/-! ## One token -/

theorem diagnose_eq (path : String) (t : Token) (sinks : Sinks) :
    diagnose path t sinks = ((sinks.diagnostics.write (diagnosticsOf path [t])).1,
      { sinks with diagnostics := (sinks.diagnostics.write (diagnosticsOf path [t])).2 }) := by
  rw [diagnose, diagnosticsOf, List.filterMap_cons]
  cases ht : t.error? with
  | none => simp
  | some e => simp [Text.unlines, Sinks.writeDiagnostic, String.join_cons]

theorem dumpToken_of_written {path : String} {t : Token} {sinks : Sinks} {out : Sink}
    (h : sinks.out.write (linesOf [t]) = (none, out)) :
    dumpToken path t sinks = diagnose path t { sinks with out } := by
  rw [dumpToken, Sinks.writeOut, ← linesOf_singleton, h]

theorem dumpToken_of_failed {path : String} {t : Token} {sinks : Sinks} {out : Sink}
    {fault : Fault} (h : sinks.out.write (linesOf [t]) = (some fault, out)) :
    dumpToken path t sinks = (some fault, { sinks with out }) := by
  rw [dumpToken, Sinks.writeOut, ← linesOf_singleton, h]

/-! ## All tokens -/

/-- Reporting on the tokens `ts` one by one succeeds, and takes the sinks from `sinks` to
`sinks'`. -/
inductive Writes (write : Token → Sinks → Option Fault × Sinks) :
    Sinks → List Token → Sinks → Prop
  | nil {sinks : Sinks} : Writes write sinks [] sinks
  | cons {sinks sinks' sinks'' : Sinks} {t : Token} {ts : List Token} :
      write t sinks = (none, sinks') → Writes write sinks' ts sinks'' →
      Writes write sinks (t :: ts) sinks''

/-- What the lines and diagnostics of some tokens lead to is what their texts lead to. -/
theorem Writes.dump {path : String} {sinks sinks' : Sinks} {ts : List Token}
    (h : Writes (dumpToken path) sinks ts sinks') :
    sinks.out.write (linesOf ts) = (none, sinks'.out) ∧
      sinks.diagnostics.write (diagnosticsOf path ts) = (none, sinks'.diagnostics) := by
  induction h with
  | nil => exact ⟨Sink.write_empty _, Sink.write_empty _⟩
  | @cons sinks sinks' sinks'' t ts ht _ ih =>
    rcases hout : sinks.out.write (linesOf [t]) with ⟨_ | fault, out⟩
    · rw [dumpToken_of_written hout, diagnose_eq] at ht
      rcases hdiag : sinks.diagnostics.write (diagnosticsOf path [t]) with ⟨_ | fault, diagnostics⟩
      · rw [hdiag] at ht
        cases ht
        rw [← List.singleton_append, linesOf_append, diagnosticsOf_append,
          Sink.write_append_of_written hout, Sink.write_append_of_written hdiag]
        exact ih
      · rw [hdiag] at ht
        cases ht
    · rw [dumpToken_of_failed hout] at ht
      cases ht

/-- The first token that cannot be reported on: its line does not fit, or its diagnostic. -/
theorem Writes.dump_failed {path : String} {sinks sinks₁ sinks₂ : Sinks} {before : List Token}
    {t : Token} {fault : Fault} (h : Writes (dumpToken path) sinks before sinks₁)
    (ht : dumpToken path t sinks₁ = (some fault, sinks₂)) :
    (sinks.out.write (linesOf (before ++ [t])) = (some fault, sinks₂.out) ∧
      sinks.diagnostics.write (diagnosticsOf path before) = (none, sinks₂.diagnostics)) ∨
    (sinks.out.write (linesOf (before ++ [t])) = (none, sinks₂.out) ∧
      sinks.diagnostics.write (diagnosticsOf path (before ++ [t])) =
        (some fault, sinks₂.diagnostics)) := by
  obtain ⟨hout, hdiag⟩ := h.dump
  rw [linesOf_append, Sink.write_append_of_written hout, diagnosticsOf_append,
    Sink.write_append_of_written hdiag]
  rcases hline : sinks₁.out.write (linesOf [t]) with ⟨_ | fault', out⟩
  · rw [dumpToken_of_written hline, diagnose_eq] at ht
    obtain ⟨hfault, rfl⟩ := Prod.mk.inj ht
    exact Or.inr ⟨rfl, Prod.ext hfault rfl⟩
  · rw [dumpToken_of_failed hline] at ht
    cases ht
    exact Or.inl ⟨rfl, hdiag⟩

theorem Writes.check {path : String} {sinks sinks' : Sinks} {ts : List Token}
    (h : Writes (diagnose path) sinks ts sinks') :
    sinks.diagnostics.write (diagnosticsOf path ts) = (none, sinks'.diagnostics) := by
  induction h with
  | nil => exact Sink.write_empty _
  | @cons sinks sinks' sinks'' t ts ht _ ih =>
    rw [diagnose_eq] at ht
    rcases hdiag : sinks.diagnostics.write (diagnosticsOf path [t]) with ⟨_ | fault, diagnostics⟩
    · rw [hdiag] at ht
      cases ht
      rw [← List.singleton_append, diagnosticsOf_append, Sink.write_append_of_written hdiag]
      exact ih
    · rw [hdiag] at ht
      cases ht

theorem Writes.check_out {path : String} {sinks sinks' : Sinks} {ts : List Token}
    (h : Writes (diagnose path) sinks ts sinks') : sinks'.out = sinks.out := by
  induction h with
  | nil => rfl
  | cons ht _ ih =>
    rw [diagnose_eq] at ht
    obtain ⟨-, rfl⟩ := Prod.mk.inj ht
    exact ih

theorem Writes.check_failed {path : String} {sinks sinks₁ sinks₂ : Sinks} {before : List Token}
    {t : Token} {fault : Fault} (h : Writes (diagnose path) sinks before sinks₁)
    (ht : diagnose path t sinks₁ = (some fault, sinks₂)) :
    sinks.diagnostics.write (diagnosticsOf path (before ++ [t])) =
      (some fault, sinks₂.diagnostics) := by
  rw [diagnosticsOf_append, Sink.write_append_of_written h.check]
  rw [diagnose_eq] at ht
  obtain ⟨hfault, rfl⟩ := Prod.mk.inj ht
  exact Prod.ext hfault rfl

end Report

/-- The stream behind the next `n` tokens. -/
def TokenStream.skip (s : TokenStream) : Nat → TokenStream
  | 0 => s
  | n + 1 => s.next?.2.skip n

theorem TokenStream.skip_of_next? {s s' : TokenStream} {t : Token} (h : s.next? = (some t, s'))
    (n : Nat) : s.skip (n + 1) = s'.skip n := by
  rw [skip, h]

namespace Report

/-- **A report takes all tokens, or it stops at the first one that it cannot write about.** -/
theorem run_cases (write : Token → Sinks → Option Fault × Sinks) (summary : Summary)
    (sinks : Sinks) (stream : TokenStream) :
    (∃ sinks', Writes write sinks stream.collect.1 sinks' ∧
      run write summary sinks stream =
        ⟨.ok (stream.collect.1.foldl Summary.add summary), sinks', stream.collect.2⟩) ∨
    ∃ before t after sinks₁ fault sinks₂, stream.collect.1 = before ++ t :: after ∧
      Writes write sinks before sinks₁ ∧ write t sinks₁ = (some fault, sinks₂) ∧
      run write summary sinks stream =
        ⟨.error fault, sinks₂, stream.skip (before.length + 1)⟩ := by
  fun_induction run write summary sinks stream with
  | case1 summary sinks stream stream' h =>
    rw [TokenStream.collect_of_next?_none h]
    exact Or.inl ⟨sinks, .nil, rfl⟩
  | case2 summary sinks stream t stream' h fault sinks' hw =>
    rw [TokenStream.collect_of_next?_some h]
    refine Or.inr ⟨[], t, _, sinks, fault, sinks', rfl, .nil, hw, ?_⟩
    rw [TokenStream.skip_of_next? h]
    rfl
  | case3 summary sinks stream t stream' h sinks' hw ih =>
    rw [TokenStream.collect_of_next?_some h]
    rcases ih with ⟨sinks'', hwrites, hrun⟩ |
      ⟨before, t', after, sinks₁, fault, sinks₂, hcollect, hwrites, hfail, hrun⟩
    · exact Or.inl ⟨sinks'', .cons hw hwrites, hrun⟩
    · refine Or.inr ⟨t :: before, t', after, sinks₁, fault, sinks₂, ?_, .cons hw hwrites, hfail, ?_⟩
      · rw [hcollect, List.cons_append]
      · rw [hrun, List.length_cons, TokenStream.skip_of_next? h]

end Report

/-! ## Without limits -/

theorem Sink.content_of_write_unlimited {sink : Sink} {fault? : Option Fault} {text : String}
    (h : Sink.unlimited.write text = (fault?, sink)) :
    fault? = none ∧ sink.content = text.toUTF8 := by
  rw [write_of_capacity_eq_none rfl] at h
  cases h
  exact ⟨rfl, ByteArray.empty_append⟩

/-- The tokens of a reader's input, as a stream hands them out. -/
def Reader.tokens (r : Reader) (options : Options) : List Token :=
  (TokenStream.ofReader options r).collect.1

/-- A dump into sinks that take everything writes about all tokens. -/
theorem dump_unlimited (path : String) (options : Options) (r : Reader) :
    (dump path options r .unlimited).result = .ok (.ofTokens (r.tokens options)) ∧
      (dump path options r .unlimited).sinks.out.content =
        (Report.linesOf (r.tokens options)).toUTF8 ∧
      (dump path options r .unlimited).sinks.diagnostics.content =
        (Report.diagnosticsOf path (r.tokens options)).toUTF8 := by
  rw [dump]
  rcases Report.run_cases (Report.dumpToken path) .empty .unlimited (.ofReader options r) with
    ⟨sinks, hwrites, hrun⟩ | ⟨before, t, after, sinks₁, fault, sinks₂, -, hwrites, ht, -⟩
  · obtain ⟨hout, hdiag⟩ := hwrites.dump
    rw [hrun, Summary.foldl_add_empty]
    exact ⟨rfl, (Sink.content_of_write_unlimited hout).2,
      (Sink.content_of_write_unlimited hdiag).2⟩
  · rcases hwrites.dump_failed ht with ⟨hout, -⟩ | ⟨-, hdiag⟩
    · cases (Sink.content_of_write_unlimited hout).1
    · cases (Sink.content_of_write_unlimited hdiag).1

theorem check_unlimited (path : String) (r : Reader) :
    (check path r .unlimited).result = .ok (.ofTokens (r.tokens .default)) ∧
      (check path r .unlimited).sinks.diagnostics.content =
        (Report.diagnosticsOf path (r.tokens .default)).toUTF8 := by
  rw [check]
  rcases Report.run_cases (Report.diagnose path) .empty ⟨.unlimited, .unlimited⟩
      (.ofReader .default r) with
    ⟨sinks, hwrites, hrun⟩ | ⟨before, t, after, sinks₁, fault, sinks₂, -, hwrites, ht, -⟩
  · rw [hrun, Summary.foldl_add_empty]
    exact ⟨rfl, (Sink.content_of_write_unlimited hwrites.check).2⟩
  · cases (Sink.content_of_write_unlimited (hwrites.check_failed ht)).1

/-- A check leaves the output alone, whatever becomes of its diagnostics. -/
theorem check_out (path : String) (r : Reader) (diagnostics : Sink) :
    (check path r diagnostics).sinks.out = .unlimited := by
  rw [check]
  rcases Report.run_cases (Report.diagnose path) .empty ⟨.unlimited, diagnostics⟩
      (.ofReader .default r) with
    ⟨sinks, hwrites, hrun⟩ | ⟨before, t, after, sinks₁, fault, sinks₂, -, hwrites, ht, hrun⟩
  · rw [hrun]
    exact hwrites.check_out
  · rw [Report.diagnose_eq] at ht
    obtain ⟨-, rfl⟩ := Prod.mk.inj ht
    rw [hrun]
    exact hwrites.check_out

end SexprLex
