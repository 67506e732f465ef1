import SexprLex.Scan.Lexer

/-!
# Token streams

A **token stream** hands out the tokens of a lexer until one of them is terminal: the end of the
input or a failure to read it. There are two ways to ask for a token.

* `TokenStream.read` — the next token, and the terminal one again and again.
* `TokenStream.next?` — the next token, and nothing once it has handed out the terminal one.
* `TokenStream.collect` — all that `next?` has still to hand out.

Once the stream has ended it does not touch the lexer again.

* `tokenize` — all tokens of a text.
-/

namespace SexprLex

/-- The failure of a scan as a token: it covers what was read of the token that was lost. -/
def ScanFailure.toToken (e : ScanFailure) : Token :=
  ⟨.error ⟨.readFailure e.fault, e.position⟩, e.raw, e.start, e.position⟩

namespace TokenStream

/-- How far a stream has come. -/
inductive Phase
  /-- More tokens may follow. -/
  | active
  /-- The terminal token has been met. It is `handedOut` once `next?` has returned it. -/
  | ended (terminal : Token) (handedOut : Bool)
  deriving DecidableEq

end TokenStream

/-- The tokens of a lexer, up to the terminal one. -/
structure TokenStream where
  lexer : Lexer
  phase : TokenStream.Phase
  deriving DecidableEq

namespace TokenStream

/-- The stream of all tokens of a reader's input. -/
def ofReader (options : Options) (reader : Reader) : TokenStream :=
  ⟨.ofReader options reader, .active⟩

/-- Where the stream stands: behind what it has scanned. -/
def position (s : TokenStream) : Position := s.lexer.position

/-- Whether the terminal token has been met. -/
def hasEnded (s : TokenStream) : Bool :=
  match s.phase with
  | .active => false
  | .ended _ _ => true

/-- Whether `next?` has handed out the terminal token. -/
def isExhausted (s : TokenStream) : Bool :=
  match s.phase with
  | .active => false
  | .ended _ handedOut => handedOut

/-- The next token, and behind the last one the terminal token again. -/
def read (s : TokenStream) : Token × TokenStream :=
  match s.phase with
  | .ended terminal _ => (terminal, s)
  | .active =>
    match s.lexer.scan with
    | (.ok t, lexer) =>
      (t, ⟨lexer, if t.isEndOfInput then .ended t false else .active⟩)
    | (.error failure, lexer) => (failure.toToken, ⟨lexer, .ended failure.toToken false⟩)

/-- The stream after `next?` has handed out a token of it. -/
def handOut (s : TokenStream) : TokenStream :=
  match s.phase with
  | .active => s
  | .ended terminal _ => { s with phase := .ended terminal true }

/-- The next token, and nothing behind the last one. -/
def next? (s : TokenStream) : Option Token × TokenStream :=
  if s.isExhausted then (none, s)
  else
    let (t, s) := s.read
    (some t, s.handOut)

/-! ## Streams come to an end -/

/-- More than the number of tokens that `next?` has still to hand out. -/
def size (s : TokenStream) : Nat :=
  match s.phase with
  | .active => s.lexer.cursor.remaining + 2
  | .ended _ false => 1
  | .ended _ true => 0

theorem size_handOut_of_ended (lexer : Lexer) (terminal : Token) (handedOut : Bool) :
    (handOut ⟨lexer, .ended terminal handedOut⟩).size = 0 := rfl

/-- Handing out a token leaves fewer of them. -/
theorem size_lt_of_next? {s s' : TokenStream} {t : Token} (h : s.next? = (some t, s')) :
    s'.size < s.size := by
  obtain ⟨lexer, phase⟩ := s
  cases phase with
  | active =>
    simp only [next?, isExhausted, read, Bool.false_eq_true, if_false] at h
    split at h
    · next t lexer' hl =>
      cases h
      by_cases ht : t.isEndOfInput = true
      · rw [if_pos ht, size_handOut_of_ended]
        simp [size]
      · rw [if_neg ht]
        have := Lexer.remaining_scan_lt hl (by simpa [Scan.usesInput] using ht)
        simp only [handOut, size]
        omega
    · cases h
      rw [size_handOut_of_ended]
      simp [size]
  | ended terminal handedOut =>
    cases handedOut with
    | true => simp [next?, isExhausted] at h
    | false =>
      cases h
      exact Nat.zero_lt_one

/-- Adds the tokens that `next?` has still to hand out to `tokens`, which are in reverse. -/
def collectOnto (tokens : List Token) (s : TokenStream) : List Token × TokenStream :=
  match _h : s.next? with
  | (some t, s') => collectOnto (t :: tokens) s'
  | (none, s') => (tokens.reverse, s')
termination_by s.size
decreasing_by exact size_lt_of_next? ‹_›

/-- All tokens that `next?` has still to hand out, in order. -/
def collect (s : TokenStream) : List Token × TokenStream := s.collectOnto []

theorem collectOnto_of_next?_some {tokens : List Token} {s s' : TokenStream} {t : Token}
    (h : s.next? = (some t, s')) : s.collectOnto tokens = s'.collectOnto (t :: tokens) := by
  rw [collectOnto]
  split <;> simp_all

theorem collectOnto_of_next?_none {tokens : List Token} {s s' : TokenStream}
    (h : s.next? = (none, s')) : s.collectOnto tokens = (tokens.reverse, s') := by
  rw [collectOnto]
  split <;> simp_all

theorem collectOnto_eq (tokens : List Token) (s : TokenStream) :
    s.collectOnto tokens = (tokens.reverse ++ s.collect.1, s.collect.2) := by
  unfold collect
  match h : s.next? with
  | (some t, s') =>
    have hlt := size_lt_of_next? h
    rw [collectOnto_of_next?_some h, collectOnto_of_next?_some h, collectOnto_eq _ s',
      collectOnto_eq [t] s']
    simp
  | (none, s') =>
    rw [collectOnto_of_next?_none h, collectOnto_of_next?_none h]
    simp
termination_by s.size

theorem collect_of_next?_some {s s' : TokenStream} {t : Token} (h : s.next? = (some t, s')) :
    s.collect = (t :: s'.collect.1, s'.collect.2) := by
  rw [collect, collectOnto_of_next?_some h, collectOnto_eq]
  rfl

theorem collect_of_next?_none {s s' : TokenStream} (h : s.next? = (none, s')) :
    s.collect = ([], s') := collectOnto_of_next?_none h

end TokenStream

/-- All tokens of a text, the end of the input included. -/
def tokenize (options : Options) (text : String) : List Token :=
  (TokenStream.ofReader options (.ofText text)).collect.1

end SexprLex
