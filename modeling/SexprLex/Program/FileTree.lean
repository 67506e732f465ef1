import SexprLex.Input.Fault

/-!
# File trees

A **file tree** holds files, devices and folders under a root, which is the folder that paths start
from. A **path** is a text of names with slashes between them, and leads from name to name: every
name is looked up in a folder, the empty name and `.` stay there, and `..` goes to the folder around
it. So a path that goes on behind a file fails, even if only a slash follows.

Where a path leads is a **place**, whether or not there is anything. The paths by which a tree is
made lead to places by the same rule, and every place they lead through is a folder.

The folders around the root are there, but their names are not known; outside the tree a tree
holds only what every system has.

* `Place.ofPath` — the place that a path leads to.
* `FileTree.ofPaths` — the tree of some files and folders.
* `FileTree.openPath` — what there is at the end of a path.
-/

namespace SexprLex

/-- What a path can lead to. -/
inductive Node
  | folder
  /-- A regular file. -/
  | file (bytes : List UInt8)
  /-- Anything else that can be read, and what it reads as. -/
  | device (bytes : List UInt8)
  deriving DecidableEq

/-! ## Places -/

/-- A folder from which places are counted. -/
inductive Anchor
  /-- The folder so many levels above the root; for zero the root itself. -/
  | above (levels : Nat)
  /-- The outermost folder of all, where paths that begin with a slash start. -/
  | outermost
  deriving DecidableEq

/-- The folder around an anchor. Around the outermost folder there is only itself. -/
def Anchor.around : Anchor → Anchor
  | .above levels => .above (levels + 1)
  | .outermost => .outermost

/-- A place: an anchor and the names that lead from it to the place. -/
structure Place where
  anchor : Anchor
  names : List String
  deriving DecidableEq

namespace Place

/-- The root of the tree. -/
def root : Place := ⟨.above 0, []⟩

/-- The outermost folder. -/
def outermost : Place := ⟨.outermost, []⟩

/-- The place that a name leads to. -/
def next (place : Place) (name : String) : Place :=
  if name = "" ∨ name = "." then place
  else if name = ".." then
    match place.names with
    | [] => ⟨place.anchor.around, []⟩
    | names => ⟨place.anchor, names.dropLast⟩
  else ⟨place.anchor, place.names ++ [name]⟩

/-- The places that some names lead through, the first and the last included. -/
def trail (place : Place) : List String → List Place
  | [] => [place]
  | name :: rest => place :: trail (place.next name) rest

/-- The part of a path before the first slash, and the parts behind it. -/
def splitSlashes : List Char → List Char × List (List Char)
  | [] => ([], [])
  | c :: cs =>
    let (part, parts) := splitSlashes cs
    if c = '/' then ([], part :: parts) else (c :: part, parts)

/-- The names of a path, the empty ones included. -/
def pathNames (path : String) : List String :=
  let (part, parts) := splitSlashes path.toList
  (part :: parts).map String.ofList

/-- Where a path starts. -/
def startOf (path : String) : Place :=
  if path.toList.head? = some '/' then outermost else root

/-- The place that a path leads to. -/
def ofPath (path : String) : Place := (pathNames path).foldl next (startOf path)

/-- The places that a path leads through, its end included. -/
def trailOfPath (path : String) : List Place := (startOf path).trail (pathNames path)

end Place

/-! ## Trees -/

/-- Files, devices and folders, each at its place. Of several at one place the first file counts,
or else the first device. -/
structure FileTree where
  files : List (Place × List UInt8)
  devices : List (Place × List UInt8)
  folders : List Place

namespace FileTree

/-- What every system has outside the tree: the null device, which reads as nothing, and the
folders of the file system hierarchy. -/
def surroundings : FileTree :=
  let top := ["bin", "boot", "dev", "etc", "lib", "media", "mnt", "opt", "proc", "run", "sbin",
    "srv", "sys", "tmp", "usr", "var"]
  ⟨[], [(⟨.outermost, ["dev", "null"]⟩, [])], top.map fun name => ⟨.outermost, [name]⟩⟩

/-- The tree of these files and folders, each at a path. A file that comes later replaces one at
the same place. -/
def ofPaths (files : List (String × List UInt8)) (folders : List String) : FileTree :=
  ⟨(files.map fun file => (Place.ofPath file.1, file.2)).reverse ++ surroundings.files,
    surroundings.devices,
    folders.flatMap Place.trailOfPath
      ++ files.flatMap (fun file => (Place.trailOfPath file.1).dropLast)
      ++ surroundings.folders⟩

/-- What there is at a place. An anchor is always a folder. -/
def node? (tree : FileTree) (place : Place) : Option Node :=
  match tree.files.lookup place with
  | some bytes => some (.file bytes)
  | none =>
    match tree.devices.lookup place with
    | some bytes => some (.device bytes)
    | none => if place.names.isEmpty || tree.folders.contains place then some .folder else none

/-! ## Following a path -/

/-- There is nothing under this name. -/
def missing : Fault := ⟨.notFound, "No such file or directory (os error 2)"⟩

/-- The path goes on behind a file or a device. -/
def notAFolder : Fault := ⟨.notADirectory, "Not a directory (os error 20)"⟩

/-- A name or a path has too many bytes. -/
def tooLong : Fault := ⟨.invalidFilename, "File name too long (os error 36)"⟩

/-- The path holds a NUL character, which no path may. -/
def nulInPath : Fault := ⟨.invalidInput, "file name contained an unexpected NUL byte"⟩

/-- The most bytes of one name. -/
def maxName : Nat := 255

/-- The most bytes of a path. -/
def maxPath : Nat := 4095

/-- Follows the names from a place to what there is at their end. Each is looked up in a folder,
and must lead to something. -/
def follow (tree : FileTree) (place : Place) : List String → Except Fault Node
  | [] =>
    match tree.node? place with
    | some node => .ok node
    | none => .error missing
  | name :: rest =>
    match tree.node? place with
    | none => .error missing
    | some (.file _) | some (.device _) => .error notAFolder
    | some .folder =>
      if maxName < name.utf8ByteSize then .error tooLong
      else tree.follow (place.next name) rest

/-- What there is at the end of a path. The empty path leads nowhere. -/
def openPath (tree : FileTree) (path : String) : Except Fault Node :=
  if path.toList.contains '\x00' then .error nulInPath
  else if path.isEmpty then .error missing
  else if maxPath < path.utf8ByteSize then .error tooLong
  else tree.follow (Place.startOf path) (Place.pathNames path)

end FileTree

end SexprLex
