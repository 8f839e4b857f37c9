/-!
# Paths

A path is the text that writes it.  Its parts stand between its slashes.  Repeated slashes, slashes
at the end and parts `.` behind the first one do not count, but they stay where they are written;
parts `..` count, for what they lead to depends on the files.

* `Path.fileName?` is the last part, if it is the name of a file;
* `Path.directories` lists the path and everything it lies in, and `Path.outer` only what it lies
  in, each as the path writes it;
* `Path.sibling` puts another name in the place of the file name.
-/

namespace Telemetry.Files

/-- A path as it is written. -/
structure Path where
  text : String
  deriving DecidableEq, Repr, Inhabited

namespace Path

/-- The path that a text writes. -/
def ofString (written : String) : Path :=
  ⟨written⟩

/-- What stands between the slashes of a written path. -/
def segments (written : String) : List (List Char) :=
  written.toList.splitOn '/'

/-- The parts among some segments: those that are not empty. -/
def parts (segments : List (List Char)) : List String :=
  segments.filterMap fun segment => if segment.isEmpty then none else some (.ofList segment)

/-- The parts of a written path. -/
def pieces (written : String) : List String :=
  parts (segments written)

/-- The text with some segments between its slashes. -/
def join (segments : List (List Char)) : String :=
  .ofList (['/'].intercalate segments)

/-- Whether a beginning of the segments of a path ends in a part that counts. -/
def counts : List (List Char) → Bool
  | [] => false
  | [first] => !first.isEmpty
  | _ :: second :: rest =>
    let last := (second :: rest).getLast (List.cons_ne_nil _ _)
    !last.isEmpty && last != ['.']

/-- The root, if a path begins there. -/
def root (path : Path) : List Path :=
  if path.text.toList.head? == some '/' then [⟨"/"⟩] else []

/-- The beginnings of some segments that end in a part that counts, the longest first. -/
def beginnings (segments : List (List Char)) : List (List (List Char)) :=
  ((List.range (segments.length + 1)).reverse.map segments.take).filter counts

/-- The path up to its last part and everything it lies in, from the inside out, down to the root or
to the first part. -/
def directories (path : Path) : List Path :=
  (beginnings (segments path.text)).map (fun front => ⟨join front⟩) ++ path.root

/-- Everything that the path lies in, from the inside out. -/
def outer (path : Path) : List Path :=
  path.directories.tail

/-- The last part, if it is the name of a file. -/
def fileName? (path : Path) : Option String :=
  ((pieces path.text).filter (· != ".")).getLast?.filter (· != "..")

/-- The path with the name in the place of its file name, or behind it if it has none. -/
def sibling (path : Path) (name : String) : Path :=
  let front :=
    if path.fileName?.isSome then (path.outer.head?.map Path.text).getD "" else path.text
  let slash := if front.isEmpty || front.toList.getLast? == some '/' then "" else "/"
  ⟨front ++ slash ++ name⟩

end Path

end Telemetry.Files
