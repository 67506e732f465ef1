import SexprLex.Scan.TokenStream

/-!
# Calls

Cursors, lexers and token streams are asked for one thing after another, and whoever holds them
chooses in which order. A **call** is one such request with its reply and the states before and
behind it; `calls` are those that some requests lead to.

* `Call.history` — what holds of the calls made so far and the state they lead to, if every call
  keeps it.
* `map_calls` — a map of states that commutes with every request commutes with all calls.
* `Cursor.calls`, `Lexer.calls`, `TokenStream.calls` — the three things that are asked.
-/

namespace SexprLex

/-- A request, its reply, and the states before and behind it. -/
structure Call (ρ α σ : Type) where
  request : ρ
  reply : α
  before : σ
  after : σ

section

variable {ρ α σ τ : Type}

/-- The call that is made with one request. -/
def Call.make (ask : ρ → σ → α × σ) (s : σ) (q : ρ) : Call ρ α σ :=
  ⟨q, (ask q s).1, s, (ask q s).2⟩

/-- The call with other states. -/
def Call.map (f : σ → τ) (c : Call ρ α σ) : Call ρ α τ :=
  ⟨c.request, c.reply, f c.before, f c.after⟩

/-- The calls that are made with some requests, one after another. -/
def calls (ask : ρ → σ → α × σ) : σ → List ρ → List (Call ρ α σ)
  | _, [] => []
  | s, q :: qs => .make ask s q :: calls ask (ask q s).2 qs

variable {ask : ρ → σ → α × σ}

/-- Any call of some is made in the state before it, and the ones behind it go on from the state
it leads to. -/
theorem exists_calls_of_eq {s : σ} {qs : List ρ} {past future : List (Call ρ α σ)}
    {c : Call ρ α σ} (h : calls ask s qs = past ++ c :: future) :
    c = .make ask c.before c.request ∧ ∃ qs', future = calls ask c.after qs' := by
  induction qs generalizing s past with
  | nil => cases past <;> cases h
  | cons q qs ih =>
    cases past with
    | nil =>
      cases h
      exact ⟨rfl, qs, rfl⟩
    | cons b past =>
      rw [calls, List.cons_append, List.cons.injEq] at h
      exact ih h.2

theorem eq_make_of_mem_calls {s : σ} {qs : List ρ} {c : Call ρ α σ} (hc : c ∈ calls ask s qs) :
    c = .make ask c.before c.request := by
  obtain ⟨past, future, h⟩ := List.append_of_mem hc
  exact (exists_calls_of_eq h).1

/-- What every call keeps, from some `old` calls on: the form that the induction over the requests
needs. -/
theorem Call.history_from (Inv : List (Call ρ α σ) → σ → Prop)
    (step : ∀ past s q, Inv past s → Inv (past ++ [.make ask s q]) (ask q s).2) {s : σ}
    {old : List (Call ρ α σ)} (hold : Inv old s) {qs : List ρ} {past future : List (Call ρ α σ)}
    {c : Call ρ α σ} (hc : calls ask s qs = past ++ c :: future) :
    Inv (old ++ past) c.before ∧ Inv (old ++ (past ++ [c])) c.after := by
  induction qs generalizing s past old with
  | nil => cases past <;> cases hc
  | cons q qs ih =>
    cases past with
    | nil =>
      cases hc
      rw [List.append_nil]
      exact ⟨hold, step old s q hold⟩
    | cons b past =>
      rw [calls, List.cons_append, List.cons.injEq] at hc
      obtain ⟨rfl, hc⟩ := hc
      rw [List.cons_append, List.append_cons old _ past, List.append_cons old _ (past ++ [c])]
      exact ih (step old s q hold) hc

/-- **History.** What every call keeps holds before and behind every call, of the calls made by
then. -/
theorem Call.history (Inv : List (Call ρ α σ) → σ → Prop)
    (step : ∀ past s q, Inv past s → Inv (past ++ [.make ask s q]) (ask q s).2) {s : σ}
    (h : Inv [] s) {qs : List ρ} {past future : List (Call ρ α σ)} {c : Call ρ α σ}
    (hc : calls ask s qs = past ++ c :: future) :
    Inv past c.before ∧ Inv (past ++ [c]) c.after :=
  Call.history_from Inv step h hc

/-- A map that commutes with every request commutes with all calls. -/
theorem map_calls {ask' : ρ → τ → α × τ} {f : σ → τ}
    (hf : ∀ q s, ask' q (f s) = ((ask q s).1, f (ask q s).2)) (s : σ) (qs : List ρ) :
    calls ask' (f s) qs = (calls ask s qs).map (Call.map f) := by
  induction qs generalizing s with
  | nil => rfl
  | cons q qs ih =>
    rw [calls, calls, List.map_cons, Call.make, hf, ih]
    rfl

end

/-! ## Who is asked -/

namespace Cursor

/-- What a cursor is asked. -/
inductive Request
  | peek
  | advance
  | atEnd
  deriving DecidableEq

/-- What a cursor replies. -/
inductive Reply
  /-- A character, or that there is none. -/
  | char (c? : Option Char)
  /-- Whether the input ends here. -/
  | ends (b : Bool)
  /-- A fault met on the way. -/
  | fault (f : Fault)
  deriving DecidableEq

/-- The reply that an answer amounts to. -/
def Reply.ofExcept {α : Type} (reply : α → Reply) : Except Fault α → Reply
  | .ok a => reply a
  | .error f => .fault f

/-- The reply to a request and the cursor behind it. -/
def ask (q : Request) (s : Cursor) : Reply × Cursor :=
  match q with
  | .peek => (.ofExcept .char s.peek.1, s.peek.2)
  | .advance => (.ofExcept .char s.advance.1, s.advance.2)
  | .atEnd => (.ofExcept .ends s.atEnd.1, s.atEnd.2)

/-- A call on a cursor. -/
abbrev Call := SexprLex.Call Request Reply Cursor

/-- The calls that a cursor answers. -/
def calls (s : Cursor) (qs : List Request) : List Call := SexprLex.calls ask s qs

theorem calls_cons (s : Cursor) (q : Request) (qs : List Request) :
    s.calls (q :: qs) = .make ask s q :: (ask q s).2.calls qs := rfl

end Cursor

namespace Lexer

/-- What a lexer is asked. -/
inductive Request
  | scan

/-- The reply to a request and the lexer behind it. -/
def ask (q : Request) (l : Lexer) : Except ScanFailure Token × Lexer :=
  match q with
  | .scan => l.scan

/-- A call on a lexer. -/
abbrev Call := SexprLex.Call Request (Except ScanFailure Token) Lexer

/-- The calls that a lexer answers, past every failure. -/
def calls (l : Lexer) (qs : List Request) : List Call := SexprLex.calls ask l qs

end Lexer

namespace TokenStream

/-- What a stream is asked. -/
inductive Request
  | read
  | next
  deriving DecidableEq

/-- The reply to a request and the stream behind it. -/
def ask (q : Request) (s : TokenStream) : Option Token × TokenStream :=
  match q with
  | .read => (some s.read.1, s.read.2)
  | .next => s.next?

/-- A call on a stream. -/
abbrev Call := SexprLex.Call Request (Option Token) TokenStream

/-- The calls that a stream answers. -/
def calls (s : TokenStream) (qs : List Request) : List Call := SexprLex.calls ask s qs

end TokenStream

end SexprLex
