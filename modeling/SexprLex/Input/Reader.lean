import SexprLex.Input.Fault

/-!
# Byte readers

A **reader** hands out the bytes of an input one at a time. Besides bytes it can answer that
there are no more for now, or with a fault; neither answer need be its last. What it has still
to say is a list of **parts**, and behind the last part it answers "end of input" for ever.

* `Reader.readByte` — the next answer, interrupted reads tried again.
* `Reader.remaining` — how many answers other than "end of input" are left.

How the bytes are divided into chunks plays no part in the answers: a chunk is consumed from
the front, byte by byte.
-/

namespace SexprLex

/-- One part of what a reader has to say. A chunk holds at least one byte. -/
inductive Part
  /-- Some bytes that are ready together. -/
  | chunk (first : UInt8) (rest : List UInt8)
  /-- A single answer "end of input". -/
  | endOfInput
  /-- A single failing read. -/
  | failure (fault : Fault)
  deriving DecidableEq

/-- The part that delivers these bytes: a chunk, or if there are none an end of input. -/
def Part.ofBytes : List UInt8 → Part
  | [] => .endOfInput
  | b :: bs => .chunk b bs

/-- How many bytes and faults a part answers with before it is used up. -/
def Part.weight : Part → Nat
  | .chunk _ rest => rest.length + 1
  | .endOfInput => 0
  | .failure fault => if fault.isTransient then 0 else 1

/-- How many bytes and faults some parts answer with before they are used up. -/
def Part.totalWeight : List Part → Nat
  | [] => 0
  | part :: parts => part.weight + totalWeight parts

/-- A reader: what it has still to say, and how many bytes have been taken from it. -/
structure Reader where
  parts : List Part
  taken : Nat
  deriving DecidableEq

namespace Reader

/-- A reader that has not been asked yet. -/
def ofParts (parts : List Part) : Reader := ⟨parts, 0⟩

/-- The reader of an input that is all there. -/
def ofBytes (bytes : List UInt8) : Reader := ofParts [.ofBytes bytes]

/-- The reader of a text, which is read as UTF-8. -/
def ofText (text : String) : Reader := ofBytes text.toUTF8.data.toList

/-- What the parts answer when they are asked for a byte, and the parts that are left. -/
def askParts : List Part → Answer UInt8 × List Part
  | [] => (.ok none, [])
  | .chunk b [] :: parts => (.ok (some b), parts)
  | .chunk b (b' :: bs) :: parts => (.ok (some b), .chunk b' bs :: parts)
  | .endOfInput :: parts => (.ok none, parts)
  | .failure fault :: parts =>
    if fault.isTransient then askParts parts else (.error fault, parts)

/-- Asks for the next byte. Interrupted reads are tried again; any other fault is returned and
not repeated. -/
def readByte (r : Reader) : Answer UInt8 × Reader :=
  match askParts r.parts with
  | (.ok (some b), parts) => (.ok (some b), ⟨parts, r.taken + 1⟩)
  | (.ok none, parts) => (.ok none, ⟨parts, r.taken⟩)
  | (.error fault, parts) => (.error fault, ⟨parts, r.taken⟩)

/-! ## What is left -/

/-- How many bytes and faults the reader has still to answer with. -/
def remaining (r : Reader) : Nat := Part.totalWeight r.parts

theorem weight_askParts {parts parts' : List Part} {answer : Answer UInt8}
    (h : askParts parts = (answer, parts')) :
    Part.totalWeight parts' + Answer.cost answer ≤ Part.totalWeight parts := by
  induction parts generalizing parts' answer with
  | nil =>
    cases h
    exact Nat.le_refl _
  | cons part parts ih =>
    rw [Part.totalWeight]
    match part with
    | .chunk b [] =>
      cases h
      exact Nat.le_of_eq (Nat.add_comm ..)
    | .chunk b (b' :: bs) =>
      cases h
      simp only [Part.totalWeight, Part.weight, List.length_cons, Answer.cost_ok_some]
      omega
    | .endOfInput =>
      cases h
      exact Nat.le_add_left ..
    | .failure fault =>
      rw [askParts] at h
      split at h
      · exact Nat.le_trans (ih h) (Nat.le_add_left ..)
      · next hf =>
        cases h
        rw [Part.weight, if_neg hf]
        exact Nat.le_of_eq (Nat.add_comm ..)

/-- A byte or a fault leaves less to say, an end of input no more. -/
theorem remaining_readByte {r r' : Reader} {answer : Answer UInt8}
    (h : r.readByte = (answer, r')) :
    r'.remaining + Answer.cost answer ≤ r.remaining := by
  unfold readByte at h
  split at h <;> cases h <;> exact weight_askParts ‹_›

end Reader

end SexprLex
