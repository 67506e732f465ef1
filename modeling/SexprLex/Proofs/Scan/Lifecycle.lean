import SexprLex.Proofs.Calls
import SexprLex.Proofs.Scan.Coverage

/-!
# The life of a token stream

A stream is asked with `read`, which repeats the terminal token, and with `next?`, which falls
silent behind it, in any order.

**Theorem (`TokenStream.lifecycle`).** For every reader and both options there is one sequence of
tokens, with a terminal token at its end and nowhere else, such that all requests are answered from
it as `TokenStream.Lives` says: the tokens handed out are its tokens in order and then the last one
again and again; the stream has ended once the last one has been returned; `next?` is silent once it
has returned the last one itself; and from then on the lexer is left alone.

The proof is an invariant of the calls made so far and the state they have led to
(`TokenStream.Stage`): an active stream has handed out some of the tokens and would collect the
others, and a stream that has ended has handed out all of them and remembers the last one.
-/

namespace SexprLex

open Scan

namespace TokenStream

/-- Only the token `last`, behind the others, is terminal. If it is the end of the input then
nothing is to be known of it but its position. -/
structure EndsWith (tokens : List Token) (last : Token) : Prop where
  isTerminal_tokens : ∀ t ∈ tokens, t.isTerminal = false
  isTerminal_last : last.isTerminal = true
  eq_endOfInput : last.isEndOfInput = true → last = .endOfInput last.start

/-- The calls of a stream that hands out `tokens` and ends with `last`. -/
structure Lives (tokens : List Token) (last : Token) (cs : List Call) : Prop where
  /-- The tokens come in order, and behind them the last one again and again. -/
  handedOut : ∃ n, cs.filterMap (·.reply) <+: tokens ++ List.replicate n last
  /-- The stream has ended exactly if the last token has been returned by a call, be it this one. -/
  hasEnded_before : ∀ past c future, cs = past ++ c :: future →
    (c.before.hasEnded = true ↔ ∃ b ∈ past, b.reply = some last)
  hasEnded_after : ∀ past c future, cs = past ++ c :: future →
    (c.after.hasEnded = true ↔ ∃ b ∈ past ++ [c], b.reply = some last)
  /-- A `read` returns a token. -/
  isSome_read : ∀ c ∈ cs, c.request = .read → c.reply.isSome = true
  /-- A `next?` returns none exactly if an earlier one has returned the last token. -/
  next_eq_none : ∀ past c future, cs = past ++ c :: future → c.request = .next →
    (c.reply = none ↔ ∃ b ∈ past, b.request = .next ∧ b.reply = some last)
  /-- Behind the last token the lexer stays as it is, with its position and its reader. -/
  lexer_eq : ∀ past c future, cs = past ++ c :: future → c.reply = some last →
    ∀ b ∈ future, b.after.lexer = c.after.lexer

end TokenStream

/-! ## The sequence of tokens -/

namespace Scan

/-- A token that is found is terminal only as the end of the input. -/
theorem isTerminal_toToken {o : Outcome} {start stop : Position} {raw : String} :
    (o.toToken start stop raw).isTerminal = true ↔ o = .endOfInput := by
  unfold Outcome.toToken Outcome.kind
  split <;> simp [Token.isTerminal, LexError.Cause.isFatal, LexError.Cause.fault?]

theorem Scans.toToken_endOfInput {emit : Bool} {p : Position} {items rest : List Item}
    {gap w : List Char} (h : Scans emit p items gap w (.ok .endOfInput) rest) (start : Position) :
    result start w (.ok .endOfInput) = .ok (.endOfInput start) := by
  obtain ⟨items', hr⟩ := h.reads
  obtain ⟨rfl, -⟩ := hr.of_endOfInput
  rfl

theorem Lexes.endsWith {emit : Bool} {p : Position} {items : List Item} {ts : List Token}
    (h : Lexes emit p items ts) :
    ∃ tokens last, ts = tokens ++ [last] ∧ TokenStream.EndsWith tokens last := by
  induction h with
  | token hs ho ht _ ih =>
    obtain ⟨tokens, last, rfl, hends⟩ := ih
    refine ⟨_ :: tokens, last, rfl, List.forall_mem_cons.2 ⟨?_, hends.isTerminal_tokens⟩,
      hends.isTerminal_last, hends.eq_endOfInput⟩
    cases ht
    rwa [← Bool.not_eq_true, isTerminal_toToken]
  | endOfInput hs ht =>
    rw [hs.toToken_endOfInput] at ht
    cases ht
    exact ⟨[], _, rfl, by simp, rfl, fun _ => rfl⟩
  | failure => exact ⟨[], _, rfl, by simp, rfl, fun h => by cases h⟩

end Scan

namespace TokenStream

theorem exists_endsWith (l : Lexer) :
    ∃ tokens last, (collect ⟨l, .active⟩).1 = tokens ++ [last] ∧ EndsWith tokens last := by
  obtain ⟨ts, hl⟩ := exists_lexes l.options.emitComments l.position l.cursor.items
  rw [collect_of_lexes hl rfl rfl rfl]
  exact hl.endsWith

theorem read_of_scan {l l' : Lexer} {t : Token} (h : l.scan = (.ok t, l')) :
    read ⟨l, .active⟩ = (t, ⟨l', if t.isEndOfInput then .ended t false else .active⟩) := by
  rw [read, h]

theorem read_of_failed_scan {l l' : Lexer} {e : ScanFailure} (h : l.scan = (.error e, l')) :
    read ⟨l, .active⟩ = (e.toToken, ⟨l', .ended e.toToken false⟩) := by
  rw [read, h]

/-- What an active stream reads is the first token that it would collect. If that is terminal the
stream ends, and otherwise it goes on with the others. -/
theorem read_active (l : Lexer) : ∃ t l',
    t.isTerminal = false ∧ read ⟨l, .active⟩ = (t, ⟨l', .active⟩) ∧
        (collect ⟨l, .active⟩).1 = t :: (collect ⟨l', .active⟩).1 ∨
      t.isTerminal = true ∧ read ⟨l, .active⟩ = (t, ⟨l', .ended t false⟩) ∧
        (collect ⟨l, .active⟩).1 = [t] := by
  obtain ⟨gap, w, e, rest, l', hscan, -⟩ := l.scan_eq_result
  cases e with
  | error fault =>
    have hread := read_of_failed_scan hscan
    exact ⟨_, l', Or.inr ⟨rfl, hread, collect_of_terminal l' hread⟩⟩
  | ok o =>
    have hread := read_of_scan hscan
    by_cases ho : o = .endOfInput
    · subst ho
      exact ⟨_, l', Or.inr ⟨rfl, hread, collect_of_terminal l' hread⟩⟩
    · have hend : (o.toToken (l.position.advanceAll gap)
          ((l.position.advanceAll gap).advanceAll w) (String.ofList w)).isEndOfInput = false := by
        rwa [← Bool.not_eq_true, isEndOfInput_toToken]
      rw [hend] at hread
      refine ⟨_, l', Or.inl ⟨?_, hread, collect_of_token hscan hend⟩⟩
      rwa [← Bool.not_eq_true, isTerminal_toToken]

/-! ## One call -/

/-- How far a stream has come with the calls made so far. -/
inductive Stage (tokens : List Token) (last : Token) : List Call → TokenStream → Prop
  | active {past : List Call} {lexer : Lexer} {rest : List Token} :
      tokens = past.filterMap (·.reply) ++ rest →
      (collect ⟨lexer, .active⟩).1 = rest ++ [last] → Stage tokens last past ⟨lexer, .active⟩
  | ended {past : List Call} {lexer : Lexer} {handedOut : Bool} {n : Nat} :
      past.filterMap (·.reply) = tokens ++ List.replicate (n + 1) last →
      (handedOut = true ↔ ∃ b ∈ past, b.request = .next ∧ b.reply = some last) →
      Stage tokens last past ⟨lexer, .ended last handedOut⟩

variable {tokens : List Token} {last : Token}

theorem EndsWith.reply_ne (h : EndsWith tokens last) {past : List Call} {rest : List Token}
    (htokens : tokens = past.filterMap (·.reply) ++ rest) {b : Call} (hb : b ∈ past) :
    b.reply ≠ some last := by
  intro hreply
  have hmem : last ∈ tokens := by
    rw [htokens]
    exact List.mem_append_left _ (List.mem_filterMap.2 ⟨b, hb, hreply⟩)
  have hterminal := h.isTerminal_last
  rw [h.isTerminal_tokens last hmem] at hterminal
  cases hterminal

theorem exists_mem_concat {past : List Call} {c : Call} {P : Call → Prop} :
    (∃ b ∈ past ++ [c], P b) ↔ (∃ b ∈ past, P b) ∨ P c := by
  simp only [List.mem_append, List.mem_singleton, or_and_right, exists_or, exists_eq_left]

theorem next?_active (l : Lexer) :
    next? ⟨l, .active⟩ = (some (read ⟨l, .active⟩).1, (read ⟨l, .active⟩).2.handOut) := rfl

theorem filterMap_concat (past : List Call) (c : Call) :
    (past ++ [c]).filterMap (·.reply) = past.filterMap (·.reply) ++ c.reply.toList := by
  rw [List.filterMap_append, List.filterMap_cons]
  cases c.reply <;> rfl

theorem stage_ask_active (hends : EndsWith tokens last) {past : List Call} {lexer : Lexer}
    {rest : List Token} (htokens : tokens = past.filterMap (·.reply) ++ rest)
    (hcollect : (collect ⟨lexer, .active⟩).1 = rest ++ [last]) (q : Request) :
    Stage tokens last (past ++ [.make ask ⟨lexer, .active⟩ q]) (ask q ⟨lexer, .active⟩).2 := by
  obtain ⟨t, l', ⟨ht, hread, hrest⟩ | ⟨ht, hread, hrest⟩⟩ := read_active lexer
  · have hask : ask q ⟨lexer, .active⟩ = (some t, ⟨l', .active⟩) := by
      cases q with
      | read => rw [ask, hread]
      | next => rw [ask, next?_active, hread]; rfl
    rw [Call.make, hask]
    -- The token is one of the others, since it is not terminal.
    rcases List.cons_eq_append_iff.1 (hrest.symm.trans hcollect) with
      ⟨-, hlast⟩ | ⟨rest', rfl, hcollect'⟩
    · rw [← (List.cons.inj hlast).1, hends.isTerminal_last] at ht
      cases ht
    · refine .active ?_ hcollect'
      rw [filterMap_concat, htokens, List.append_assoc]
      rfl
  · have hnot : ¬ ∃ b ∈ past, b.request = .next ∧ b.reply = some last := by
      rintro ⟨b, hb, -, hreply⟩
      exact hends.reply_ne htokens hb hreply
    rcases List.cons_eq_append_iff.1 (hrest.symm.trans hcollect) with
      ⟨rfl, hlast⟩ | ⟨rest', -, hnil⟩
    · -- The token is terminal, so all others have been handed out.
      obtain ⟨rfl, -⟩ := List.cons.inj hlast
      rw [List.append_nil] at htokens
      cases q with
      | read =>
        rw [Call.make, ask, hread]
        refine @Stage.ended _ _ _ _ _ 0 (by rw [filterMap_concat, htokens]; rfl) ?_
        rw [exists_mem_concat]
        simp [hnot]
      | next =>
        rw [Call.make, ask, next?_active, hread]
        refine @Stage.ended _ _ _ _ _ 0 (by rw [filterMap_concat, htokens]; rfl) ?_
        rw [exists_mem_concat]
        simp
    · exact absurd hnil (by simp)

theorem stage_ask_ended {past : List Call} {lexer : Lexer} {handedOut : Bool} {n : Nat}
    (htokens : past.filterMap (·.reply) = tokens ++ List.replicate (n + 1) last)
    (hhanded : handedOut = true ↔ ∃ b ∈ past, b.request = .next ∧ b.reply = some last)
    (q : Request) :
    Stage tokens last (past ++ [.make ask ⟨lexer, .ended last handedOut⟩ q])
      (ask q ⟨lexer, .ended last handedOut⟩).2 := by
  have hagain : tokens ++ List.replicate (n + 1) last ++ [last] =
      tokens ++ List.replicate (n + 1 + 1) last := by
    rw [List.append_assoc, ← List.replicate_succ']
  cases q with
  | read =>
    refine @Stage.ended _ _ _ _ _ (n + 1) (by rw [filterMap_concat, htokens]; exact hagain) ?_
    rw [exists_mem_concat, hhanded]
    simp [Call.make]
  | next =>
    cases handedOut with
    | true =>
      refine @Stage.ended _ _ _ _ _ n ?_ ?_
      · rw [filterMap_concat, htokens]
        exact List.append_nil _
      · rw [exists_mem_concat, ← hhanded]
        simp
    | false =>
      refine @Stage.ended _ _ _ _ _ (n + 1) (by rw [filterMap_concat, htokens]; exact hagain) ?_
      rw [exists_mem_concat]
      exact ⟨fun _ => Or.inr ⟨rfl, rfl⟩, fun _ => rfl⟩

/-- **Every call keeps the stage.** -/
theorem Stage.ask (hends : EndsWith tokens last) {past : List Call} {s : TokenStream}
    (h : Stage tokens last past s) (q : Request) :
    Stage tokens last (past ++ [.make ask s q]) (ask q s).2 := by
  cases h with
  | active htokens hcollect => exact stage_ask_active hends htokens hcollect q
  | ended htokens hhanded => exact stage_ask_ended htokens hhanded q

/-! ## All calls -/

theorem Stage.hasEnded_iff (hends : EndsWith tokens last) {past : List Call} {s : TokenStream}
    (h : Stage tokens last past s) : s.hasEnded = true ↔ ∃ b ∈ past, b.reply = some last := by
  cases h with
  | active htokens _ =>
    constructor
    · intro hended
      cases hended
    · rintro ⟨b, hb, hreply⟩
      exact absurd hreply (hends.reply_ne htokens hb)
  | ended htokens _ =>
    refine ⟨fun _ => ?_, fun _ => rfl⟩
    have hmem : last ∈ past.filterMap (·.reply) := by
      rw [htokens, List.replicate_succ]
      simp
    exact List.mem_filterMap.1 hmem

theorem Stage.handedOut {past : List Call} {s : TokenStream} (h : Stage tokens last past s) :
    ∃ n, past.filterMap (·.reply) <+: tokens ++ List.replicate n last := by
  cases h with
  | @active _ rest htokens _ => exact ⟨0, rest, by rw [← htokens]; simp⟩
  | @ended _ _ n htokens _ => exact ⟨n + 1, htokens ▸ List.prefix_refl _⟩

theorem Stage.next?_eq_none {past : List Call} {s : TokenStream} (hends : EndsWith tokens last)
    (h : Stage tokens last past s) :
    s.next?.1 = none ↔ ∃ b ∈ past, b.request = .next ∧ b.reply = some last := by
  cases h with
  | active htokens _ =>
    rw [next?_active]
    refine ⟨fun h => (Option.some_ne_none _ h).elim, ?_⟩
    rintro ⟨b, hb, -, hreply⟩
    exact absurd hreply (hends.reply_ne htokens hb)
  | @ended _ handedOut _ _ hhanded =>
    rw [← hhanded]
    cases handedOut <;> simp [next?, isExhausted]

/-- A stream that has ended leaves its lexer alone. -/
theorem lexer_calls_of_hasEnded {s : TokenStream} (h : s.hasEnded = true) (qs : List Request) :
    ∀ c ∈ s.calls qs, c.after.lexer = s.lexer := by
  obtain ⟨lexer, phase⟩ := s
  cases phase with
  | active => cases h
  | ended terminal handedOut =>
    induction qs generalizing handedOut with
    | nil => exact fun c hc => absurd hc List.not_mem_nil
    | cons q qs ih =>
      have hask : ∃ handedOut', (TokenStream.ask q ⟨lexer, .ended terminal handedOut⟩).2 =
          ⟨lexer, .ended terminal handedOut'⟩ := by
        cases q with
        | read => exact ⟨handedOut, rfl⟩
        | next => cases handedOut <;> exact ⟨true, rfl⟩
      obtain ⟨handedOut', hask⟩ := hask
      intro c hc
      rw [calls, SexprLex.calls, hask] at hc
      rcases List.mem_cons.1 hc with rfl | hc
      · rw [Call.make, hask]
      · exact ih handedOut' rfl c hc

theorem lives_calls {s : TokenStream} (hends : EndsWith tokens last)
    (h : Stage tokens last [] s) (qs : List Request) : Lives tokens last (s.calls qs) := by
  have hstage : ∀ past c future, s.calls qs = past ++ c :: future →
      Stage tokens last past c.before ∧ Stage tokens last (past ++ [c]) c.after :=
    fun _ _ _ hc => Call.history (Stage tokens last) (fun _ _ q hs => hs.ask hends q) h hc
  refine ⟨?_, ?_, ?_, ?_, ?_, ?_⟩
  · rcases List.eq_nil_or_concat (s.calls qs) with hnil | ⟨past, c, hc⟩
    · exact ⟨0, by rw [hnil]; exact List.nil_prefix⟩
    · rw [List.concat_eq_append] at hc
      rw [hc]
      exact (hstage past c [] hc).2.handedOut
  · intro past c future hc
    exact (hstage past c future hc).1.hasEnded_iff hends
  · intro past c future hc
    exact (hstage past c future hc).2.hasEnded_iff hends
  · intro c hc hread
    rw [eq_make_of_mem_calls hc, hread]
    rfl
  · intro past c future hc hnext
    rw [← (hstage past c future hc).1.next?_eq_none hends, (exists_calls_of_eq hc).1, hnext]
    rfl
  · intro past c future hc hreply
    obtain ⟨-, qs', rfl⟩ := exists_calls_of_eq hc
    have hended : c.after.hasEnded = true :=
      ((hstage past c _ hc).2.hasEnded_iff hends).2 ⟨c, by simp, hreply⟩
    exact lexer_calls_of_hasEnded hended qs'

/-- **The life of a stream.** -/
theorem lifecycle (options : Options) (r : Reader) : ∃ tokens last,
    (ofReader options r).collect.1 = tokens ++ [last] ∧ EndsWith tokens last ∧
      ∀ qs, Lives tokens last ((ofReader options r).calls qs) := by
  obtain ⟨tokens, last, hcollect, hends⟩ := exists_endsWith (.ofReader options r)
  exact ⟨tokens, last, hcollect, hends, lives_calls hends (.active rfl hcollect)⟩

end TokenStream

end SexprLex
