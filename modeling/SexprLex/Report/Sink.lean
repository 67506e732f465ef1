import SexprLex.Input.Fault

/-!
# Sinks

A **sink** takes text, which it holds as the bytes of its UTF-8 form. It may have a capacity:
what is written beyond it is lost and the write fails with the sink's fault, after the sink has
been filled to the last byte.
-/

namespace SexprLex

/-- A place for output. -/
structure Sink where
  /-- How many bytes the sink can hold; without a capacity it holds any number. -/
  capacity : Option Nat
  /-- What it holds. -/
  content : ByteArray
  /-- The fault of a write that it cannot take all of. -/
  fault : Fault

namespace Sink

/-- A sink that holds nothing yet. -/
def empty (capacity : Option Nat) (fault : Fault) : Sink := ⟨capacity, .empty, fault⟩

/-- The fault of a sink of which nothing else is known. -/
def full : Fault := ⟨.other, "sink is full"⟩

/-- An empty sink that holds any number of bytes. -/
def unlimited : Sink := empty none full

/-- An empty sink that holds at most so many bytes. -/
def limited (capacity : Nat) : Sink := empty (some capacity) full

/-- Writes a text as far as there is room. The fault, if any, comes with the sink that is full. -/
def write (sink : Sink) (text : String) : Option Fault × Sink :=
  let bytes := text.toUTF8
  match sink.capacity with
  | none => (none, { sink with content := sink.content ++ bytes })
  | some capacity =>
    let room := capacity - sink.content.size
    if bytes.size ≤ room then (none, { sink with content := sink.content ++ bytes })
    else (some sink.fault, { sink with content := sink.content ++ bytes.extract 0 room })

/-- A sink without a capacity takes everything. -/
theorem write_of_capacity_eq_none {sink : Sink} (h : sink.capacity = none) (text : String) :
    sink.write text = (none, { sink with content := sink.content ++ text.toUTF8 }) := by
  rw [write, h]

end Sink

end SexprLex
