import Telemetry.Files.Store
import Telemetry.Files.Tree

/-!
# A tree of files as a store

A workspace is a tree of files with a journal, in the hands of one process.  It is a store in which
every operation acts on the tree and every note goes to the end of the journal; the process marks
temporary files with its number.
-/

namespace Telemetry.Files

/-- A tree of files, the notes of the runs over it, and the number of the process that runs. -/
structure Workspace where
  tree : Tree := {}
  journal : List Event := []
  process : Nat := 1
  deriving Inhabited

namespace Workspace

/-- Changes the tree if the change is possible. -/
def update (change : Tree → Except FileFault Tree) : StateM Workspace (Except FileFault Unit) :=
  fun workspace =>
    match change workspace.tree with
    | .ok tree => (.ok (), { workspace with tree })
    | .error fault => (.error fault, workspace)

instance : Store (StateM Workspace) where
  read path := fun workspace => (workspace.tree.read path, workspace)
  write path content := update fun tree => tree.write path content
  makeDirectory path := update fun tree => tree.makeDirectory path
  isDirectory path := fun workspace => (workspace.tree.isDirectory path, workspace)
  rename source target := update fun tree => tree.rename source target
  removeFile path := fun workspace =>
    ((), { workspace with tree := workspace.tree.removeFile path })
  mark := fun workspace => (toString workspace.process, workspace)
  note event := fun workspace => ((), { workspace with journal := workspace.journal ++ [event] })

end Workspace

end Telemetry.Files
