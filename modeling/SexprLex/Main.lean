import SexprLex.Program.CommandLine

/-!
# The program

Opens the file that the arguments name, answers them, and writes the response to the standard
streams.
-/

namespace SexprLex.Program

/-- The fault that an error number of the operating system stands for; `details` says what is
wrong where the number is none that opening a file usually leads to. -/
def faultOfNumber (number : Nat) (details : String) : Fault :=
  match number with
  | 2 => FileTree.missing
  | 13 => ⟨.permissionDenied, "Permission denied (os error 13)"⟩
  | 20 => FileTree.notAFolder
  | 36 => FileTree.tooLong
  | 40 => ⟨.other, "Too many levels of symbolic links (os error 40)"⟩
  | n => ⟨.other, details ++ " (os error " ++ toString n ++ ")"⟩

/-- An error number, which may be given as its negative. -/
def errorNumber (code : UInt32) : Nat :=
  if code < 0x80000000 then code.toNat else (0 - code).toNat

/-- The fault that a failing file operation amounts to. -/
def faultOf (e : IO.Error) : Fault :=
  match e with
  | .noFileOrDirectory _ code details
  | .permissionDenied _ code details
  | .inappropriateType _ code details
  | .invalidArgument _ code details
  | .resourceExhausted _ code details
  | .hardwareFault code details
  | .otherError code details => faultOfNumber (errorNumber code) details
  | e => ⟨.other, toString e⟩

/-- The number of the error that reading a folder leads to. -/
def folderNumber : Nat := 21

/-- What opening a path leads to. A folder can be opened but not read. A device is not told from a
file, since it is answered alike. -/
def openFile (path : String) : IO (Except Fault Node) := do
  if path.toList.contains '\x00' then return .error FileTree.nulInPath
  try
    let bytes ← IO.FS.readBinFile path
    return .ok (.file bytes.data.toList)
  catch e =>
    match e with
    | .inappropriateType _ code _ =>
      if errorNumber code = folderNumber then return .ok .folder else return .error (faultOf e)
    | e => return .error (faultOf e)

end SexprLex.Program

/-- Answers the arguments on the standard streams; the exit status says whether all was well. -/
def main (args : List String) : IO UInt32 := do
  let opened ← match SexprLex.Command.ofArgs args with
    | .ok (.lex path _) | .ok (.check path) => SexprLex.Program.openFile path
    | _ => pure (.error SexprLex.FileTree.missing)
  let response := SexprLex.respond args fun _ => opened
  (← IO.getStdout).write response.out
  (← IO.getStderr).write response.err
  return response.status.toUInt32
