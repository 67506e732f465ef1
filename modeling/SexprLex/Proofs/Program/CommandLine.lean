import Mathlib.Data.List.Induction
import SexprLex.Program.CommandLine
import SexprLex.Proofs.Report.Agreement
import SexprLex.Proofs.Report.Unambiguous
import SexprLex.Proofs.Scan.Failure

/-!
# The arguments of a dump

Behind `lex` stand flags and a path, in any order. An argument **offends** if it begins with a
hyphen and is no flag, or if it is a second path.

**Theorem (`respond_lex`).** For all arguments behind `lex`, and whatever paths lead to, the
program answers as `AnswersLex` says. The first argument that offends is refused, before any path
is opened. If none offends and there is no path, the program tells how `lex` is used. Otherwise it
dumps what the one path leads to, with comments exactly if there is a flag (`Dumps`): a file or a
device token by token, anything else as one line that says what is wrong. A check of that path has
no output, and the same diagnostics and status. The status is zero exactly if the path leads to a
file or a device that reads as an encoded text, and no token of that text is an error. Flags may be
moved and repeated.

**Theorem (`respond_lex_null_device`).** A regular file is not needed for the status zero.

The arguments are read from the left. What has been read of them, as long as nothing offends, is
known from them alone: the first path, and whether there was a flag. So the proof goes through the
arguments from their end (`Command.lexOfArgs_append`), and one step is one more argument
(`Command.lexOfArgs_of_not_offends`, `Command.lexOfArgs_of_offends`).
-/

namespace SexprLex

/-! ## Which arguments make sense -/

namespace Argument

/-- Asks for comments. -/
def IsFlag (a : String) : Prop := a = "--comments" ∨ a = "-c"

instance : DecidablePred IsFlag :=
  fun a => inferInstanceAs (Decidable (a = "--comments" ∨ a = "-c"))

/-- Does not begin with a hyphen. -/
def IsPath (a : String) : Prop := a.toList.head? ≠ some '-'

instance : DecidablePred IsPath :=
  fun a => inferInstanceAs (Decidable (a.toList.head? ≠ some '-'))

theorem IsFlag.not_isPath {a : String} (h : IsFlag a) : ¬ IsPath a := by
  rcases h with rfl | rfl <;> decide

/-- Behind the arguments `before` the argument `a` makes no sense: it is neither a flag nor a path,
or it is a path and there has been one. -/
def Offends (before : List String) (a : String) : Prop :=
  ¬ IsPath a ∧ ¬ IsFlag a ∨ IsPath a ∧ ∃ b ∈ before, IsPath b

instance (before : List String) (a : String) : Decidable (Offends before a) :=
  inferInstanceAs (Decidable (¬ IsPath a ∧ ¬ IsFlag a ∨ IsPath a ∧ ∃ b ∈ before, IsPath b))

/-- No argument offends behind those before it. -/
def Sound (args : List String) : Prop :=
  ∀ before a, before ++ [a] <+: args → ¬ Offends before a

/-- The argument `a` offends, and none before it does. -/
def OffendsFirst (args : List String) (a : String) : Prop :=
  ∃ before, before ++ [a] <+: args ∧ Sound before ∧ Offends before a

/-- The two argument lists differ in their flags only, in where these stand and how many there are,
and there are flags in both or in neither. -/
structure MovesFlags (args args' : List String) : Prop where
  others_eq : args'.filter (¬ IsFlag ·) = args.filter (¬ IsFlag ·)
  flag_iff : (∃ a ∈ args', IsFlag a) ↔ ∃ a ∈ args, IsFlag a

theorem sound_nil : Sound [] := by
  intro before a h
  simp at h

theorem sound_concat {args : List String} {a : String} :
    Sound (args ++ [a]) ↔ Sound args ∧ ¬ Offends args a := by
  simp only [Sound, List.prefix_concat_iff]
  constructor
  · exact fun h => ⟨fun before b hb => h before b (.inr hb), h args a (.inl rfl)⟩
  · rintro ⟨hargs, ha⟩ before b (heq | hb)
    · obtain ⟨rfl, hb⟩ := List.append_inj' heq rfl
      rw [List.singleton_inj.1 hb]
      exact ha
    · exact hargs before b hb

theorem OffendsFirst.append {args : List String} {a : String} (h : OffendsFirst args a)
    (more : List String) : OffendsFirst (args ++ more) a := by
  obtain ⟨before, hprefix, hbefore, ha⟩ := h
  exact ⟨before, hprefix.trans (List.prefix_append args more), hbefore, ha⟩

theorem sound_or_offendsFirst (args : List String) : Sound args ∨ ∃ a, OffendsFirst args a := by
  induction args using List.reverseRecOn with
  | nil => exact .inl sound_nil
  | append_singleton args a ih =>
    rcases ih with hargs | ⟨b, hb⟩
    · by_cases ha : Offends args a
      · exact .inr ⟨a, args, List.prefix_rfl, hargs, ha⟩
      · exact .inl (sound_concat.2 ⟨hargs, ha⟩)
    · exact .inr ⟨b, hb.append [a]⟩

theorem Sound.find?_isPath {args : List String} (h : Sound args) {path : String}
    (hmem : path ∈ args) (hpath : IsPath path) : args.find? (IsPath ·) = some path := by
  obtain ⟨before, after, rfl⟩ := List.append_of_mem hmem
  have hfirst : ¬ Offends before path := by
    apply h before path
    rw [List.append_cons before path after]
    exact List.prefix_append _ after
  refine List.find?_eq_some_iff_append.2 ⟨by simpa using hpath, before, after, rfl, ?_⟩
  intro b hb
  have : ¬ IsPath b := fun hpath' => hfirst (.inr ⟨hpath, b, hb, hpath'⟩)
  simpa using this

end Argument

open Argument

/-! ## Reading the arguments -/

namespace Command

variable {options : Options} {path? : Option String} {args before : List String} {a : String}

theorem lexOfArgs_of_isFlag (h : IsFlag a) :
    lexOfArgs options path? (a :: args) = lexOfArgs ⟨true⟩ path? args := by
  rw [lexOfArgs]
  exact if_pos h

theorem lexOfArgs_of_isPath (h : IsPath a) :
    lexOfArgs options none (a :: args) = lexOfArgs options (some a) args := by
  rw [lexOfArgs]
  exact (if_neg fun hflag : IsFlag a => hflag.not_isPath h).trans (if_pos ⟨h, rfl⟩)

theorem lexOfArgs_of_misplaced (hflag : ¬ IsFlag a) (hpath : IsPath a → path? ≠ none) :
    lexOfArgs options path? (a :: args) = .error (.unexpectedArgument a) := by
  rw [lexOfArgs]
  exact (if_neg hflag).trans (if_neg fun h => hpath h.1 h.2)

/-- The options after some arguments. -/
def optionsOf (args : List String) : Options := ⟨args.any (IsFlag ·)⟩

/-- One step: an argument that makes sense is taken in. -/
theorem lexOfArgs_of_not_offends (h : ¬ Offends before a) :
    lexOfArgs (optionsOf before) (before.find? (IsPath ·)) (a :: args) =
      lexOfArgs (optionsOf (before ++ [a])) ((before ++ [a]).find? (IsPath ·)) args := by
  by_cases hflag : IsFlag a
  · rw [lexOfArgs_of_isFlag hflag]
    simp [optionsOf, hflag, hflag.not_isPath]
  · have hpath : IsPath a := by
      by_contra hpath
      exact h (.inl ⟨hpath, hflag⟩)
    have hnone : before.find? (IsPath ·) = none := by
      rw [List.find?_eq_none]
      intro b hb hpath'
      exact h (.inr ⟨hpath, b, hb, by simpa using hpath'⟩)
    rw [hnone, lexOfArgs_of_isPath hpath]
    simp [optionsOf, hflag, hpath, hnone]

/-- One step: an argument that makes no sense ends it. -/
theorem lexOfArgs_of_offends (h : Offends before a) :
    lexOfArgs options (before.find? (IsPath ·)) (a :: args) = .error (.unexpectedArgument a) := by
  rcases h with ⟨hpath, hflag⟩ | ⟨hpath, b, hb, hpath'⟩
  · exact lexOfArgs_of_misplaced hflag fun h => absurd h hpath
  · refine lexOfArgs_of_misplaced (fun hflag => hflag.not_isPath hpath) fun _ hnone => ?_
    exact List.find?_eq_none.1 hnone b hb (by simpa using hpath')

/-- **Arguments that do not offend are taken in**, whatever is behind them. -/
theorem lexOfArgs_append (h : Sound before) (args : List String) :
    lexOfArgs .default none (before ++ args) =
      lexOfArgs (optionsOf before) (before.find? (IsPath ·)) args := by
  induction before using List.reverseRecOn generalizing args with
  | nil => rfl
  | append_singleton before a ih =>
    obtain ⟨hbefore, ha⟩ := sound_concat.1 h
    rw [List.append_assoc, ih hbefore, List.singleton_append, lexOfArgs_of_not_offends ha]

theorem lexOfArgs_of_offendsFirst (h : OffendsFirst args a) :
    lexOfArgs .default none args = .error (.unexpectedArgument a) := by
  obtain ⟨before, ⟨after, rfl⟩, hbefore, ha⟩ := h
  rw [List.append_assoc, List.singleton_append, lexOfArgs_append hbefore, lexOfArgs_of_offends ha]

theorem lexOfArgs_of_sound (h : Sound args) :
    lexOfArgs .default none args = lexOfArgs (optionsOf args) (args.find? (IsPath ·)) [] := by
  simpa using lexOfArgs_append h []

/-- Of the flags matters only whether there are any. -/
theorem lexOfArgs_filter (options : Options) (path? : Option String) (args : List String) :
    lexOfArgs options path? args =
      lexOfArgs ⟨options.emitComments || args.any (IsFlag ·)⟩ path?
        (args.filter (¬ IsFlag ·)) := by
  induction args generalizing options path? with
  | nil => simp
  | cons a args ih =>
    by_cases hflag : IsFlag a
    · rw [lexOfArgs_of_isFlag hflag, ih]
      simp [hflag]
    · rw [List.any_cons, List.filter_cons_of_pos (by simpa using hflag), decide_eq_false hflag,
        Bool.false_or]
      by_cases hpath : IsPath a ∧ path? = none
      · obtain ⟨hpath, rfl⟩ := hpath
        rw [lexOfArgs_of_isPath hpath, lexOfArgs_of_isPath hpath, ih]
      · have hsome : IsPath a → path? ≠ none := fun h hnone => hpath ⟨h, hnone⟩
        rw [lexOfArgs_of_misplaced hflag hsome, lexOfArgs_of_misplaced hflag hsome]

theorem lexOfArgs_of_movesFlags {args args' : List String} (h : MovesFlags args args') :
    lexOfArgs options path? args' = lexOfArgs options path? args := by
  have hany : args'.any (IsFlag ·) = args.any (IsFlag ·) := by
    rw [Bool.eq_iff_iff]
    simpa using h.flag_iff
  rw [lexOfArgs_filter, h.others_eq, hany, ← lexOfArgs_filter]

end Command

/-! ## Sources without errors -/

namespace Reader

theorem exists_isError_of_malformed {bytes : List UInt8} {text : List Char} {items : List Item}
    {fault : Fault} (h : (ofBytes bytes).items = text.map .ok ++ .error fault :: items)
    (options : Options) : ∃ t ∈ (ofBytes bytes).tokens options, t.isError = true := by
  obtain ⟨ts, hl⟩ := Scan.exists_lexes options.emitComments .start (ofBytes bytes).items
  rw [tokens_of_lexes hl]
  obtain ⟨A, done, gap, w, -, rfl⟩ := hl.settles h
  exact ⟨_, List.mem_append_right _ (List.mem_singleton_self _), rfl⟩

/-- **Bytes have no error tokens exactly if they are a text that has none.** -/
theorem forall_isError_ofBytes (bytes : List UInt8) (options : Options) :
    (∀ t ∈ (ofBytes bytes).tokens options, t.isError = false) ↔
      ∃ text : String, bytes = text.toUTF8.data.toList ∧
        ∀ t ∈ tokenize options text, t.isError = false := by
  constructor
  · intro h
    obtain ⟨es, hes, hev⟩ := exists_events_ofBytes bytes
    obtain ⟨text, bad, hbytes, -, ⟨rfl, -⟩ | ⟨-, items, hi⟩⟩ := exists_items_of_bytes hev hes
    · have htext : bytes = (String.ofList text).toUTF8.data.toList := by
        rw [hbytes, List.append_nil, Utf8.toUTF8_eq_encode, String.toList_ofList]
      subst htext
      exact ⟨String.ofList text, rfl, h⟩
    · obtain ⟨t, ht, herror⟩ := exists_isError_of_malformed hi options
      rw [h t ht] at herror
      cases herror
  · rintro ⟨text, rfl, h⟩
    exact h

end Reader

/-! ## Responses -/

/-- The response that shows these tokens: a line for each of them, a diagnostic for each error, and
the status one if there is an error. -/
def Response.ofTokens (path : String) (ts : List Token) : Response :=
  ⟨if ts.any Token.isError then 1 else 0, (Report.linesOf ts).toUTF8,
    (Report.diagnosticsOf path ts).toUTF8⟩

/-- The path leads to a file or a device, and these are the bytes that it reads as. -/
def Opens (opened : String → Except Fault Node) (path : String) (bytes : List UInt8) : Prop :=
  opened path = .ok (.file bytes) ∨ opened path = .ok (.device bytes)

section

variable {opened : String → Except Fault Node} {path : String} {bytes : List UInt8}

theorem loadSource_eq_ok_iff :
    loadSource path (opened path) = .ok bytes ↔ Opens opened path bytes := by
  rw [Opens]
  rcases opened path with fault | _ | content | content <;> simp [loadSource]

theorem Summary.exitStatus_ofTokens (ts : List Token) :
    (ofTokens ts).exitStatus = if ts.any Token.isError then 1 else 0 := by
  have hcount : ts.countP Token.isError = 0 ↔ ts.any Token.isError = false := by
    rw [List.countP_eq_zero, List.any_eq_false]
  rw [exitStatus, ofTokens]
  cases h : ts.any Token.isError <;> simp [hcount, h]

theorem Response.status_ofTokens_eq_zero (path : String) (ts : List Token) :
    (ofTokens path ts).status = 0 ↔ ∀ t ∈ ts, t.isError = false := by
  have hany : ts.any Token.isError = false ↔ ∀ t ∈ ts, t.isError = false := by simp
  rw [← hany, ofTokens]
  cases ts.any Token.isError <;> simp

theorem Response.ofReport_of_ok {report : Report} {summary : Summary}
    (h : report.result = .ok summary) :
    ofReport report =
      ⟨summary.exitStatus, report.sinks.out.content, report.sinks.diagnostics.content⟩ := by
  rw [ofReport, h]

namespace Command

theorem run_lex_of_opens (h : Opens opened path bytes) (options : Options) :
    (Command.lex path options).run opened =
      .ofTokens path ((Reader.ofBytes bytes).tokens options) := by
  obtain ⟨hresult, hout, hdiag⟩ := dump_unlimited path options (.ofBytes bytes)
  rw [run, loadSource_eq_ok_iff.2 h, Response.ofSource, Response.ofReport_of_ok hresult, hout,
    hdiag, Summary.exitStatus_ofTokens]
  rfl

theorem run_check_of_opens (h : Opens opened path bytes) (options : Options) :
    (Command.check path).run opened =
      { Response.ofTokens path ((Reader.ofBytes bytes).tokens options) with out := .empty } := by
  obtain ⟨hresult, -⟩ := check_unlimited path (.ofBytes bytes)
  rw [run, loadSource_eq_ok_iff.2 h, Response.ofSource, Response.ofReport_of_ok hresult, check_out,
    check_diagnostics path options, Reader.tokens_default _ options, Summary.exitStatus_filter,
    Summary.exitStatus_ofTokens]
  rfl

theorem run_lex_of_error {e : LoadError} (h : loadSource path (opened path) = .error e)
    (options : Options) :
    (Command.lex path options).run opened = .ofTexts 1 "" ("error: " ++ e.message ++ "\n") := by
  rw [run, h, Response.ofSource]

/-- **A check is a dump without its output**, with comments or without. -/
theorem run_check (opened : String → Except Fault Node) (path : String) (options : Options) :
    (Command.check path).run opened =
      { (Command.lex path options).run opened with out := .empty } := by
  cases h : loadSource path (opened path) with
  | error e =>
    rw [run_lex_of_error h, run, h, Response.ofSource]
    rfl
  | ok bytes =>
    have hopens := loadSource_eq_ok_iff.1 h
    rw [run_check_of_opens hopens options, run_lex_of_opens hopens options]

theorem status_run_lex_eq_zero (opened : String → Except Fault Node) (path : String)
    (options : Options) :
    ((Command.lex path options).run opened).status = 0 ↔
      ∃ text : String, Opens opened path text.toUTF8.data.toList ∧
        ∀ t ∈ tokenize options text, t.isError = false := by
  simp only [← loadSource_eq_ok_iff]
  cases h : loadSource path (opened path) with
  | error e =>
    rw [run_lex_of_error h]
    simp [Response.ofTexts]
  | ok bytes =>
    rw [run_lex_of_opens (loadSource_eq_ok_iff.1 h), Response.status_ofTokens_eq_zero,
      Reader.forall_isError_ofBytes]
    simp

end Command

end

/-- The response `r` dumps what is at `path`. -/
structure Dumps (opened : String → Except Fault Node) (path : String) (options : Options)
    (r : Response) : Prop where
  /-- What can be read is shown, token by token. -/
  of_opens : ∀ bytes, Opens opened path bytes →
    r = .ofTokens path ((Reader.ofBytes bytes).tokens options)
  /-- Without the option the comments are left out, and nothing else. -/
  without_comments : options.emitComments = false → ∀ bytes, Opens opened path bytes →
    r = .ofTokens path (((Reader.ofBytes bytes).tokens ⟨true⟩).filter (!·.isComment))
  of_folder : opened path = .ok .folder →
    r = .ofTexts 1 "" ("error: '" ++ path ++ "' is a directory\n")
  of_fault : ∀ fault, opened path = .error fault →
    r = .ofTexts 1 "" ("error: " ++ (LoadError.ofFault path fault).message ++ "\n")
  /-- A check has no output, and the same diagnostics and status. -/
  check_eq : respond ["check", path] opened = { r with out := .empty }
  /-- All is well exactly if what can be read is a text without errors. -/
  status_eq_zero : r.status = 0 ↔
    ∃ text : String, Opens opened path text.toUTF8.data.toList ∧
      ∀ t ∈ tokenize options text, t.isError = false

theorem Command.dumps (opened : String → Except Fault Node) (path : String) (options : Options) :
    Dumps opened path options ((Command.lex path options).run opened) where
  of_opens bytes h := run_lex_of_opens h options
  without_comments hoff bytes h := by
    have hdefault : options = .default := congrArg Options.mk hoff
    rw [run_lex_of_opens h, hdefault, Reader.tokens_default _ ⟨true⟩]
  of_folder h := by
    have hload : loadSource path (opened path) = .error (.folder path) := by rw [h, loadSource]
    have htext : "error: " ++ (LoadError.folder path).message ++ "\n" =
        "error: '" ++ path ++ "' is a directory\n" := by
      rw [LoadError.message_folder, ← String.toList_inj]
      simp
    rw [run_lex_of_error hload, htext]
  of_fault fault h := by
    have hload : loadSource path (opened path) = .error (.ofFault path fault) := by
      rw [h, loadSource]
    exact run_lex_of_error hload options
  check_eq := run_check opened path options
  status_eq_zero := status_run_lex_eq_zero opened path options

/-- How the program answers the arguments `args` behind `lex`. -/
structure AnswersLex (args : List String) (opened : String → Except Fault Node) : Prop where
  sound_or : Sound args ∨ ∃ a, OffendsFirst args a
  of_offendsFirst : ∀ a, OffendsFirst args a →
    respond ("lex" :: args) opened =
      .ofTexts 1 "" ("error: unexpected argument '" ++ a ++ "'\n")
  of_no_path : Sound args → (∀ a ∈ args, ¬ IsPath a) →
    respond ("lex" :: args) opened = .ofTexts 1 "" "Usage: lisper lex <file.lisper> [--comments]\n"
  of_path : Sound args → ∀ path ∈ args, IsPath path →
    Dumps opened path ⟨decide (∃ a ∈ args, IsFlag a)⟩ (respond ("lex" :: args) opened)
  of_movesFlags : ∀ args', MovesFlags args args' →
    respond ("lex" :: args') opened = respond ("lex" :: args) opened

/-- **The arguments of a dump.** -/
theorem respond_lex (args : List String) (opened : String → Except Fault Node) :
    AnswersLex args opened where
  sound_or := sound_or_offendsFirst args
  of_offendsFirst a ha := by
    rw [respond, Command.ofArgs, Command.lexOfArgs_of_offendsFirst ha]
    rfl
  of_no_path h hpath := by
    have hnone : args.find? (IsPath ·) = none := by simpa using hpath
    rw [respond, Command.ofArgs, Command.lexOfArgs_of_sound h, hnone]
    rfl
  of_path h path hmem hpath := by
    have hany : decide (∃ a ∈ args, IsFlag a) = args.any (IsFlag ·) := by
      rw [Bool.eq_iff_iff]
      simp
    rw [respond, Command.ofArgs, Command.lexOfArgs_of_sound h, h.find?_isPath hmem hpath, hany]
    exact Command.dumps opened path (Command.optionsOf args)
  of_movesFlags args' h := by
    rw [respond, Command.ofArgs, Command.lexOfArgs_of_movesFlags h]
    rfl

/-- A comment in a file at a path between two flags, and a second path. -/
theorem respond_lex_two_paths :
    (Sound ["-c", "a", "--comments"] ∧
      Opens (FileTree.ofPaths [("a", [0x3B])] []).openPath "a" [0x3B] ∧
      respond ["lex", "-c", "a", "--comments"] (FileTree.ofPaths [("a", [0x3B])] []).openPath =
        .ofTokens "a" ((Reader.ofBytes [0x3B]).tokens ⟨true⟩)) ∧
    OffendsFirst ["a", "-c", "b", "-x"] "b" ∧
      respond ["lex", "a", "-c", "b", "-x"] (FileTree.ofPaths [] []).openPath =
        .ofTexts 1 "" "error: unexpected argument 'b'\n" := by
  have hsound : Sound ["-c", "a", "--comments"] :=
    sound_concat.2 ⟨sound_concat.2 ⟨sound_concat.2 ⟨sound_nil, by decide⟩, by decide⟩, by decide⟩
  have hopens : Opens (FileTree.ofPaths [("a", [0x3B])] []).openPath "a" [0x3B] := .inl rfl
  have hdumps := (respond_lex _ (FileTree.ofPaths [("a", [0x3B])] []).openPath).of_path hsound "a"
    (by decide) (by decide)
  have hfirst : OffendsFirst ["a", "-c", "b", "-x"] "b" :=
    ⟨["a", "-c"], ⟨["-x"], rfl⟩,
      sound_concat.2 ⟨sound_concat.2 ⟨sound_nil, by decide⟩, by decide⟩, by decide⟩
  exact ⟨⟨hsound, hopens, hdumps.of_opens [0x3B] hopens⟩, hfirst,
    (respond_lex _ (FileTree.ofPaths [] []).openPath).of_offendsFirst "b" hfirst⟩

/-- **All is well with the null device, which is no regular file.** -/
theorem respond_lex_null_device : Sound ["/dev/null"] ∧ IsPath "/dev/null" ∧
    (respond ["lex", "/dev/null"] (FileTree.ofPaths [] []).openPath).status = 0 ∧
      ∀ bytes, (FileTree.ofPaths [] []).openPath "/dev/null" ≠ .ok (.file bytes) := by
  have hnode : (FileTree.ofPaths [] []).openPath "/dev/null" = .ok (.device []) := rfl
  have hlex : respond ["lex", "/dev/null"] (FileTree.ofPaths [] []).openPath =
      (Command.lex "/dev/null" .default).run (FileTree.ofPaths [] []).openPath := rfl
  have hempty : tokenize .default "" = [⟨.endOfInput, "", .start, .start⟩] := by
    apply tokenize_of_lexes
    exact .endOfInput (.found .atEnd (fun he => by cases he)) rfl
  refine ⟨sound_concat.2 ⟨sound_nil, by decide⟩, by decide, ?_, fun bytes h => ?_⟩
  · rw [hlex, Command.status_run_lex_eq_zero]
    refine ⟨"", .inr hnode, ?_⟩
    rw [hempty]
    decide
  · rw [hnode] at h
    cases h

end SexprLex
