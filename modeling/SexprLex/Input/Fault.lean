/-!
# Faults of the outside world

A **fault** is what a failing read or write reports: a kind, and a text for people. Faults are
passed on as they are; only a read that was merely interrupted is tried again.
-/

namespace SexprLex

/-- The kinds of fault. -/
inductive FaultKind
  | notFound
  | permissionDenied
  | connectionReset
  | brokenPipe
  | alreadyExists
  | wouldBlock
  | notADirectory
  | invalidInput
  | invalidData
  | timedOut
  | writeZero
  | interrupted
  | unsupported
  | unexpectedEof
  | outOfMemory
  | invalidFilename
  | other
  deriving DecidableEq, Repr

namespace FaultKind

/-- All kinds, each once. -/
def all : List FaultKind :=
  [.notFound, .permissionDenied, .connectionReset, .brokenPipe, .alreadyExists, .wouldBlock,
    .notADirectory, .invalidInput, .invalidData, .timedOut, .writeZero, .interrupted,
    .unsupported, .unexpectedEof, .outOfMemory, .invalidFilename, .other]

/-- The name under which a kind is reported. -/
def name : FaultKind → String
  | .notFound => "NotFound"
  | .permissionDenied => "PermissionDenied"
  | .connectionReset => "ConnectionReset"
  | .brokenPipe => "BrokenPipe"
  | .alreadyExists => "AlreadyExists"
  | .wouldBlock => "WouldBlock"
  | .notADirectory => "NotADirectory"
  | .invalidInput => "InvalidInput"
  | .invalidData => "InvalidData"
  | .timedOut => "TimedOut"
  | .writeZero => "WriteZero"
  | .interrupted => "Interrupted"
  | .unsupported => "Unsupported"
  | .unexpectedEof => "UnexpectedEof"
  | .outOfMemory => "OutOfMemory"
  | .invalidFilename => "InvalidFilename"
  | .other => "Other"

/-- The kind of this name. -/
def ofName? (name : String) : Option FaultKind := all.find? (·.name == name)

theorem ofName?_name (k : FaultKind) : ofName? k.name = some k := by
  cases k <;> decide

/-- The text of a fault of which only the kind is known. -/
def text : FaultKind → String
  | .notFound => "entity not found"
  | .permissionDenied => "permission denied"
  | .connectionReset => "connection reset"
  | .brokenPipe => "broken pipe"
  | .alreadyExists => "entity already exists"
  | .wouldBlock => "operation would block"
  | .notADirectory => "not a directory"
  | .invalidInput => "invalid input parameter"
  | .invalidData => "invalid data"
  | .timedOut => "timed out"
  | .writeZero => "write zero"
  | .interrupted => "operation interrupted"
  | .unsupported => "unsupported"
  | .unexpectedEof => "unexpected end of file"
  | .outOfMemory => "out of memory"
  | .invalidFilename => "invalid filename"
  | .other => "other error"

end FaultKind

/-- A failing read or write. -/
structure Fault where
  kind : FaultKind
  text : String
  deriving DecidableEq, Repr

namespace Fault

/-- The fault of which only the kind is known. -/
def ofKind (kind : FaultKind) : Fault := ⟨kind, kind.text⟩

/-- Whether the read is simply tried again. -/
def isTransient (f : Fault) : Bool := f.kind == .interrupted

/-- The fault of input that is no UTF-8. -/
def malformedText : Fault := ⟨.invalidData, "stream did not contain valid UTF-8"⟩

@[simp] theorem isTransient_malformedText : malformedText.isTransient = false := rfl

end Fault

/-- The answer to a request for one item: an item, the end of the input, or a fault. -/
abbrev Answer (α : Type) := Except Fault (Option α)

/-- How much an answer uses up of what there is to say: an item and a fault count, the end of
the input does not. -/
def Answer.cost {α : Type} : Answer α → Nat
  | .ok none => 0
  | .ok (some _) => 1
  | .error _ => 1

@[simp] theorem Answer.cost_ok_none {α : Type} : Answer.cost (.ok none : Answer α) = 0 := rfl

@[simp] theorem Answer.cost_ok_some {α : Type} (a : α) : Answer.cost (.ok (some a)) = 1 := rfl

@[simp] theorem Answer.cost_error {α : Type} (fault : Fault) :
    Answer.cost (.error fault : Answer α) = 1 := rfl

theorem Answer.cost_le_one {α : Type} (answer : Answer α) : Answer.cost answer ≤ 1 := by
  unfold Answer.cost
  split <;> decide

end SexprLex
