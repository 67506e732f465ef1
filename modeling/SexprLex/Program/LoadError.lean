import SexprLex.Program.FileTree

/-!
# Loading a source

A **source** is what can be read at a path: anything but a folder. Loading fails in one of four
ways, and each failure names the path as it was given.
-/

namespace SexprLex

/-- Why a source could not be loaded. -/
inductive LoadError
  | notFound (path : String)
  | permissionDenied (path : String)
  | folder (path : String)
  | unreadable (path : String) (fault : Fault)
  deriving DecidableEq

namespace LoadError

/-- The failure that a fault amounts to. -/
def ofFault (path : String) (fault : Fault) : LoadError :=
  match fault.kind with
  | .notFound => .notFound path
  | .permissionDenied => .permissionDenied path
  | _ => .unreadable path fault

/-- The name of the kind of failure. -/
def name : LoadError → String
  | .notFound _ => "NotFound"
  | .permissionDenied _ => "PermissionDenied"
  | .folder _ => "IsDirectory"
  | .unreadable _ _ => "Io"

/-- What is wrong. -/
def message : LoadError → String
  | .notFound path => "cannot find file '" ++ path ++ "'"
  | .permissionDenied path => "permission denied reading '" ++ path ++ "'"
  | .folder path => "'" ++ path ++ "' is a directory"
  | .unreadable path fault => "error reading '" ++ path ++ "': " ++ fault.text

theorem message_folder (path : String) :
    (folder path).message = "'" ++ path ++ "' is a directory" := rfl

/-- The fault behind the failure, if the message does not already say all of it. -/
def fault? : LoadError → Option Fault
  | .unreadable _ fault => some fault
  | .notFound _ | .permissionDenied _ | .folder _ => none

end LoadError

/-- The bytes of the source at `path`, given what opening that path led to. -/
def loadSource (path : String) (opened : Except Fault Node) : Except LoadError (List UInt8) :=
  match opened with
  | .error fault => .error (.ofFault path fault)
  | .ok .folder => .error (.folder path)
  | .ok (.file bytes) | .ok (.device bytes) => .ok bytes

end SexprLex
