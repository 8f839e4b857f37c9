import Telemetry.Files.Tree
import Telemetry.Proofs.Checked
import Telemetry.Proofs.Files.Path
import Telemetry.Proofs.Lookup

/-!
# What the operations on a tree do

* `Tree.get?_put` and `Tree.get?_erase`: what is found in a tree after a change;
* `Tree.target?` gives the names that a path to a file leads to.  `Tree.read_eq_ok_iff` and its
  siblings say by it when an operation succeeds and what it changes;
* `Tree.Extends`: where a path leads depends on the directories only, so it leads to the same place
  in a tree with more of them;
* `Tree.fileName?_of_target?` and `Tree.temporaryName_of_target?`: what the last of the names is.
-/

namespace Telemetry.Files.Tree

variable {tree after : Tree} {path : String} {names : Names}

/-! ### Entries -/

@[simp] theorem workingDirectory_put (tree : Tree) (names : Names) (entry : Entry) :
    (tree.put names entry).workingDirectory = tree.workingDirectory := rfl

@[simp] theorem workingDirectory_erase (tree : Tree) (names : Names) :
    (tree.erase names).workingDirectory = tree.workingDirectory := rfl

/-- What is no directory is not on the way to the working directory. -/
theorem isPrefixOf_eq_false (free : tree.get? names ≠ some .directory) :
    names.isPrefixOf tree.workingDirectory = false := by
  by_contra onTheWay
  exact free (by rw [get?, if_pos (Bool.not_eq_false _ ▸ onTheWay)])

theorem get?_erase (free : tree.get? names ≠ some .directory) (other : Names) :
    (tree.erase names).get? other = if other = names then none else tree.get? other := by
  have off := isPrefixOf_eq_false free
  by_cases same : other = names
  · rw [if_pos same, same, get?, workingDirectory_erase, off, if_neg Bool.false_ne_true]
    exact lookup_filter_self names tree.entries
  · rw [if_neg same, get?, get?, workingDirectory_erase]
    congr 1
    exact lookup_filter_of_ne same tree.entries

theorem get?_put (free : tree.get? names ≠ some .directory) (entry : Entry) (other : Names) :
    (tree.put names entry).get? other = if other = names then some entry else tree.get? other := by
  have off := isPrefixOf_eq_false free
  by_cases same : other = names
  · rw [if_pos same, same, get?, workingDirectory_put, off, if_neg Bool.false_ne_true, put]
    exact List.lookup_cons_self
  · rw [if_neg same, get?, get?, workingDirectory_put]
    congr 1
    simp only [put, List.lookup_cons, beq_eq_false_iff_ne.2 same]
    exact lookup_filter_of_ne same tree.entries

/-! ### Where a path leads -/

/-- The names that a path to a file leads to, whether the file is there or not. -/
def target? (tree : Tree) (path : String) : Option Names :=
  match tree.locate path with
  | .ok ⟨directory, some name, false⟩ => some (directory ++ [name])
  | _ => none

theorem target?_eq_some_iff : tree.target? path = some names ↔
    ∃ directory name, tree.locate path = .ok ⟨directory, some name, false⟩ ∧
      names = directory ++ [name] := by
  rw [target?]
  constructor
  · intro h
    split at h
    · rename_i directory name isLocation
      exact ⟨directory, name, isLocation, (Option.some.inj h).symm⟩
    · cases h
  · rintro ⟨directory, name, isLocation, rfl⟩
    rw [isLocation]

theorem read_eq_ok_iff {content : ByteArray} : tree.read path = .ok content ↔
    ∃ names, tree.target? path = some names ∧ tree.get? names = some (.file content) := by
  simp only [target?_eq_some_iff]
  rw [read, Checked.bind_eq_ok_iff]
  constructor
  · rintro ⟨⟨directory, last, slash⟩, isLocation, h⟩
    cases last with
    | none => cases h
    | some name =>
      dsimp only at h
      split at h
      · cases h
      · cases h
      · rename_i found
        cases slash with
        | true => cases h
        | false =>
          cases h
          exact ⟨_, ⟨directory, name, isLocation, rfl⟩, found⟩
  · rintro ⟨_, ⟨directory, name, isLocation, rfl⟩, found⟩
    refine ⟨_, isLocation, ?_⟩
    simp only [found]
    rfl

theorem write_eq_ok_iff {content : ByteArray} : tree.write path content = .ok after ↔
    ∃ names, tree.target? path = some names ∧ tree.get? names ≠ some .directory ∧
      after = tree.put names (.file content) := by
  simp only [target?_eq_some_iff]
  rw [write, Checked.bind_eq_ok_iff]
  constructor
  · rintro ⟨⟨directory, last, slash⟩, isLocation, h⟩
    cases last with
    | none => cases h
    | some name =>
      dsimp only at h
      split at h
      · cases h
      · rename_i possible
        rw [Bool.or_eq_true, not_or] at possible
        cases slash with
        | true => exact absurd rfl possible.1
        | false =>
          cases h
          exact ⟨_, ⟨directory, name, isLocation, rfl⟩, by simpa using possible.2, rfl⟩
  · rintro ⟨_, ⟨directory, name, isLocation, rfl⟩, free, rfl⟩
    refine ⟨_, isLocation, ?_⟩
    simp [free]
    rfl

theorem rename_eq_ok_iff {source : String} : tree.rename source path = .ok after ↔
    ∃ old names content, tree.target? source = some old ∧ tree.get? old = some (.file content) ∧
      tree.target? path = some names ∧ tree.get? names ≠ some .directory ∧
      after = (tree.erase old).put names (.file content) := by
  simp only [rename, Checked.bind_eq_ok_iff, read_eq_ok_iff]
  constructor
  · rintro ⟨content, ⟨old, isOld, found⟩, origin, isOrigin, ⟨directory, last, slash⟩, isLocation, h⟩
    obtain ⟨start, first, isStart, rfl⟩ := target?_eq_some_iff.1 isOld
    rw [isOrigin] at isStart
    cases isStart
    cases last with
    | none => cases h
    | some name =>
      dsimp only at h
      cases slash with
      | true => cases h
      | false =>
        rw [if_neg Bool.false_ne_true] at h
        split at h
        · cases h
        · rename_i free
          cases h
          exact ⟨_, _, content, isOld, found, target?_eq_some_iff.2 ⟨_, _, isLocation, rfl⟩, free,
            rfl⟩
  · rintro ⟨old, names, content, isOld, found, isTarget, free, rfl⟩
    obtain ⟨start, first, isStart, rfl⟩ := target?_eq_some_iff.1 isOld
    obtain ⟨directory, name, isLocation, rfl⟩ := target?_eq_some_iff.1 isTarget
    refine ⟨content, ⟨_, isOld, found⟩, _, isStart, _, isLocation, ?_⟩
    simp [free]
    rfl

theorem removeFile_of_file {content : ByteArray} (isTarget : tree.target? path = some names)
    (found : tree.get? names = some (.file content)) :
    tree.removeFile path = tree.erase names := by
  obtain ⟨directory, name, isLocation, rfl⟩ := target?_eq_some_iff.1 isTarget
  simp only [removeFile, isLocation, found]

theorem removeFile_eq_self (noFile : ∀ names content, tree.target? path = some names →
    tree.get? names ≠ some (.file content)) : tree.removeFile path = tree := by
  rw [removeFile]
  split
  · rename_i directory name isLocation
    split
    · rename_i content found
      exact absurd found (noFile _ content (target?_eq_some_iff.2 ⟨_, _, isLocation, rfl⟩))
    · rfl
  · rfl

/-- Where no file can be written, there is none to remove. -/
theorem removeFile_of_write_eq_error {content : ByteArray} {fault : FileFault}
    (h : tree.write path content = .error fault) : tree.removeFile path = tree := by
  refine removeFile_eq_self fun names held isTarget found => ?_
  have free : tree.get? names ≠ some .directory := by simp [found]
  have possible : tree.write path content = .ok _ :=
    write_eq_ok_iff.2 ⟨names, isTarget, free, rfl⟩
  rw [h] at possible
  cases possible

/-! ### More directories -/

/-- Whether a tree has all the directories of another one, and its working directory. -/
structure Extends (after before : Tree) : Prop where
  workingDirectory : after.workingDirectory = before.workingDirectory
  directory : ∀ names, before.get? names = some .directory → after.get? names = some .directory

theorem Extends.refl (tree : Tree) : tree.Extends tree :=
  ⟨rfl, fun _ h => h⟩

theorem Extends.trans {t u v : Tree} (first : u.Extends t) (second : v.Extends u) :
    v.Extends t where
  workingDirectory := second.workingDirectory.trans first.workingDirectory
  directory names h := second.directory names (first.directory names h)

theorem Extends.follow (h : after.Extends tree) {slash : Bool} {directory : Names}
    {parts : List String} {location : Location}
    (found : tree.follow slash directory parts = .ok location) :
    after.follow slash directory parts = .ok location := by
  induction parts generalizing directory with
  | nil => exact found
  | cons part rest ih =>
    rw [Tree.follow] at found ⊢
    by_cases stays : part = "."
    · rw [if_pos stays] at found ⊢
      exact ih found
    by_cases up : part = ".."
    · rw [if_neg stays, if_pos up] at found ⊢
      exact ih found
    rw [if_neg stays, if_neg up] at found ⊢
    split at found
    · cases found
    · rename_i short
      rw [if_neg short]
      split at found
      · rename_i isLast
        rw [if_pos isLast]
        exact found
      · rename_i notLast
        rw [if_neg notLast]
        cases isEntry : tree.get? (directory ++ [part]) with
        | none =>
          rw [isEntry] at found
          cases found
        | some entry =>
          rw [isEntry] at found
          cases entry with
          | file content => cases found
          | directory =>
            rw [h.directory _ isEntry]
            exact ih found

theorem Extends.locate (h : after.Extends tree) {location : Location}
    (found : tree.locate path = .ok location) : after.locate path = .ok location := by
  have start : after.start path = tree.start path := by
    rw [Tree.start, Tree.start, h.workingDirectory]
  rw [Tree.locate] at found ⊢
  split at found
  · cases found
  split at found
  · cases found
  split at found
  · cases found
  rename_i noNul notEmpty short
  rw [if_neg noNul, if_neg notEmpty, if_neg short, start]
  exact h.follow found

theorem Extends.target? (h : after.Extends tree) (found : tree.target? path = some names) :
    after.target? path = some names := by
  rw [target?_eq_some_iff] at found ⊢
  obtain ⟨directory, name, isLocation, rfl⟩ := found
  exact ⟨directory, name, h.locate isLocation, rfl⟩

/-! ### Last names -/

theorem exists_append_of_follow {slash : Bool} {directory : Names} {parts : List String}
    {location : Location} {name : String}
    (found : tree.follow slash directory parts = .ok location)
    (isLast : location.last = some name) :
    ∃ before, parts = before ++ [name] ∧ name ≠ "." ∧ name ≠ ".." := by
  induction parts generalizing directory with
  | nil =>
    cases found
    cases isLast
  | cons part rest ih =>
    -- Whatever is followed further leaves the last part to the rest.
    have further {directory : Names} (found : tree.follow slash directory rest = .ok location) :
        ∃ before, part :: rest = before ++ [name] ∧ name ≠ "." ∧ name ≠ ".." := by
      obtain ⟨before, rfl, notDot, notDots⟩ := ih found
      exact ⟨part :: before, rfl, notDot, notDots⟩
    rw [follow] at found
    split at found
    · exact further found
    split at found
    · exact further found
    split at found
    · cases found
    rename_i notDot notDots _
    split at found
    · rename_i isEmpty
      cases found
      cases isLast
      rw [List.isEmpty_iff.1 isEmpty]
      exact ⟨[], rfl, notDot, notDots⟩
    · split at found
      · cases found
      · cases found
      · exact further found

theorem exists_pieces_of_target? (h : tree.target? path = some names) :
    ∃ name before, names.getLast? = some name ∧ Path.pieces path = before ++ [name] ∧
      name ≠ "." ∧ name ≠ ".." := by
  obtain ⟨directory, name, isLocation, rfl⟩ := target?_eq_some_iff.1 h
  rw [locate] at isLocation
  split at isLocation
  · cases isLocation
  split at isLocation
  · cases isLocation
  split at isLocation
  · cases isLocation
  obtain ⟨before, isPieces, notDot, notDots⟩ := exists_append_of_follow isLocation rfl
  exact ⟨name, before, List.getLast?_concat, isPieces, notDot, notDots⟩

/-- A path leads to a file of its file name. -/
theorem fileName?_of_target? (h : tree.target? path = some names) :
    (Path.ofString path).fileName? = names.getLast? := by
  obtain ⟨name, before, isLast, isPieces, notDot, notDots⟩ := exists_pieces_of_target? h
  rw [isLast, Path.fileName?_of_pieces isPieces notDot notDots]

theorem temporaryName_of_target? {mark : String} (noSlash : '/' ∉ mark.toList)
    (h : tree.target? (temporaryPath path mark) = some names) :
    names.getLast? = some (temporaryName (Path.ofString path) mark) := by
  obtain ⟨name, before, isLast, isPieces, -⟩ := exists_pieces_of_target? h
  obtain ⟨before', isPieces'⟩ := pieces_temporaryPath path noSlash
  obtain ⟨-, same⟩ := List.append_inj' (isPieces.symm.trans isPieces') rfl
  rw [isLast, List.singleton_inj.1 same]

end Telemetry.Files.Tree
