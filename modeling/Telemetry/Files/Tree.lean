import Telemetry.Fault
import Telemetry.Files.Path

/-!
# A tree of files

A tree holds files and directories under a root, each under the list of names that leads to it.
One of its directories is the working directory.  It is always there, and so is everything on the
way to it from the root.

* `Tree.locate` follows a written path, from the root if it begins with a slash and from the working
  directory otherwise: every part but the last has to lead to a directory, `.` stays and `..` goes
  up, also out of the working directory, but not past the root.  What the last part leads to need
  not be there.
* `Tree.read`, `Tree.write`, `Tree.makeDirectory`, `Tree.rename`, `Tree.removeFile` and
  `Tree.remove` are the operations on files, with the fault that a path can meet.
* `Tree.listing` lists everything in the working directory.
-/

namespace Telemetry.Files

/-- Something in a tree. -/
inductive Entry where
  | file (content : ByteArray)
  | directory
  deriving Inhabited

/-- Files are equal if their contents are, byte by byte. -/
instance : DecidableEq Entry
  | .file a, .file b =>
    match ByteArray.instDecidableEq a b with
    | isTrue same => isTrue (congrArg Entry.file same)
    | isFalse differ => isFalse fun same => differ (Entry.file.inj same)
  | .directory, .directory => isTrue rfl
  | .file _, .directory => isFalse Entry.noConfusion
  | .directory, .file _ => isFalse Entry.noConfusion

/-- The names that lead from the root to an entry. -/
abbrev Names := List String

/-- The working directory, and the entries that are not on the way to it from the root. -/
structure Tree where
  workingDirectory : Names := []
  entries : List (Names × Entry) := []
  deriving DecidableEq, Inhabited

/-- Where a path leads: a name in a directory, or the directory itself. -/
structure Location where
  directory : Names
  last : Option String
  /-- Whether the path ends with a slash, and so wants a directory. -/
  slash : Bool
  deriving DecidableEq, Repr

/-- The greatest size of a name in bytes. -/
def maxNameBytes : Nat := 255

/-- The greatest size of a path in bytes. -/
def maxPathBytes : Nat := 4095

namespace Tree

/-- The entry under a list of names. -/
def get? (tree : Tree) (names : Names) : Option Entry :=
  if names.isPrefixOf tree.workingDirectory then some .directory else tree.entries.lookup names

/-- The tree without the entry under a list of names. -/
def erase (tree : Tree) (names : Names) : Tree :=
  { tree with entries := tree.entries.filter fun entry => entry.1 != names }

/-- The tree with an entry put under a list of names. -/
def put (tree : Tree) (names : Names) (entry : Entry) : Tree :=
  { tree with entries := (names, entry) :: (tree.erase names).entries }

/-- Follows parts from a directory. -/
def follow (tree : Tree) (slash : Bool) : (directory : Names) → List String →
    Except FileFault Location
  | directory, [] => .ok ⟨directory, none, slash⟩
  | directory, part :: rest =>
    if part = "." then follow tree slash directory rest
    else if part = ".." then follow tree slash directory.dropLast rest
    else if maxNameBytes < part.utf8ByteSize then .error .nameTooLong
    else if rest.isEmpty then .ok ⟨directory, some part, slash⟩
    else
      match tree.get? (directory ++ [part]) with
      | none => .error .missing
      | some (.file _) => .error .notDirectory
      | some .directory => follow tree slash (directory ++ [part]) rest

/-- The directory that a written path starts from. -/
def start (tree : Tree) (path : String) : Names :=
  if path.toList.head? == some '/' then [] else tree.workingDirectory

/-- Follows a written path. -/
def locate (tree : Tree) (path : String) : Except FileFault Location :=
  if path.toList.contains '\x00' then .error .nulInPath
  else if path.isEmpty then .error .missing
  else if maxPathBytes < path.utf8ByteSize then .error .nameTooLong
  else tree.follow (path.toList.getLast? == some '/') (tree.start path) (Path.pieces path)

/-- The content of a file. -/
def read (tree : Tree) (path : String) : Except FileFault ByteArray := do
  let location ← tree.locate path
  match location.last with
  | none => throw .isDirectory
  | some name =>
    match tree.get? (location.directory ++ [name]) with
    | none => throw .missing
    | some .directory => throw .isDirectory
    | some (.file content) => if location.slash then throw .notDirectory else return content

/-- Makes or replaces a file. -/
def write (tree : Tree) (path : String) (content : ByteArray) : Except FileFault Tree := do
  let location ← tree.locate path
  match location.last with
  | none => throw .isDirectory
  | some name =>
    let names := location.directory ++ [name]
    if location.slash || tree.get? names = some .directory then throw .isDirectory
    return tree.put names (.file content)

/-- Makes a directory. -/
def makeDirectory (tree : Tree) (path : String) : Except FileFault Tree := do
  let location ← tree.locate path
  match location.last with
  | none => throw .alreadyThere
  | some name =>
    let names := location.directory ++ [name]
    if (tree.get? names).isSome then throw .alreadyThere
    return tree.put names .directory

/-- Whether a path leads to a directory. -/
def isDirectory (tree : Tree) (path : String) : Bool :=
  match tree.locate path with
  | .error _ => false
  | .ok ⟨_, none, _⟩ => true
  | .ok ⟨directory, some name, _⟩ => tree.get? (directory ++ [name]) = some .directory

/-- Moves a file to another path, where it replaces the file that is there. -/
def rename (tree : Tree) (source target : String) : Except FileFault Tree := do
  let content ← tree.read source
  let origin ← tree.locate source
  let location ← tree.locate target
  match origin.last, location.last with
  | some old, some name =>
    let names := location.directory ++ [name]
    if location.slash then throw .notDirectory
    if tree.get? names = some .directory then throw .isDirectory
    return (tree.erase (origin.directory ++ [old])).put names (.file content)
  | _, _ => throw .busy

/-- Removes the file that a path leads to; directories stay. -/
def removeFile (tree : Tree) (path : String) : Tree :=
  match tree.locate path with
  | .ok ⟨directory, some name, false⟩ =>
    match tree.get? (directory ++ [name]) with
    | some (.file _) => tree.erase (directory ++ [name])
    | _ => tree
  | _ => tree

/-- Removes what a path leads to, with everything in it. -/
def remove (tree : Tree) (path : String) : Tree :=
  match tree.locate path with
  | .ok ⟨directory, some name, _⟩ =>
    let names := directory ++ [name]
    { tree with entries := tree.entries.filter fun entry => !names.isPrefixOf entry.1 }
  | _ => tree

/-- Everything in the working directory by its path from there, directories with a slash at the
end, in ascending order. -/
def listing (tree : Tree) : List String :=
  let inside := tree.entries.filter fun entry => tree.workingDirectory.isPrefixOf entry.1
  let paths := inside.map fun (names, entry) =>
    "/".intercalate (names.drop tree.workingDirectory.length) ++
      (if entry = .directory then "/" else "")
  paths.mergeSort fun a b => !decide (b < a)

end Tree

end Telemetry.Files
