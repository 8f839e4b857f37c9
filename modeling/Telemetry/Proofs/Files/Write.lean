import Telemetry.Proofs.Files.Run
import Telemetry.Proofs.Files.Tree

/-!
# What writing does to a tree

* `Tree.Made`: some of the directories at some paths have been made, and nothing else has been done.
  This is what `makeDirectories` does, `made_makeDirectories`.
* `Tree.Stored`: how storing a file by way of a temporary file ends.  With the directories made
  first, this is what `writeAtomic` does, `stored_writeAtomic`.
* `Tree.Stored.get?_of_ok` and `Tree.Stored.get?_of_error`: the entries that are there afterwards.
-/

namespace Telemetry.Files

namespace Tree

variable {tree after : Tree} {names : Names}

/-! ### Directories after a change -/

/-- A change of files keeps the directories. -/
theorem extends_put (free : tree.get? names ≠ some .directory) (entry : Entry) :
    (tree.put names entry).Extends tree where
  workingDirectory := rfl
  directory other isDirectory := by
    rw [get?_put free, if_neg, isDirectory]
    rintro rfl
    exact free isDirectory

theorem put_file_extends (free : tree.get? names ≠ some .directory) (content : ByteArray) :
    tree.Extends (tree.put names (.file content)) where
  workingDirectory := rfl
  directory other isDirectory := by
    rw [get?_put free] at isDirectory
    split at isDirectory
    · cases isDirectory
    · exact isDirectory

/-! ### Making directories -/

/-- The names that a path leads to, whatever is there. -/
def place? (tree : Tree) (path : String) : Option Names :=
  match tree.locate path with
  | .ok location => some (location.directory ++ location.last.toList)
  | .error _ => none

theorem Extends.place? (h : after.Extends tree) {path : String}
    (found : tree.place? path = some names) : after.place? path = some names := by
  rw [Tree.place?] at found ⊢
  split at found
  · rename_i location isLocation
    rw [h.locate isLocation]
    exact found
  · cases found

/-- Whether an entry is as it was, or a directory at one of the paths that was missing. -/
def KeptOrMade (paths : List Path) (tree after : Tree) (names : Names) : Prop :=
  after.get? names = tree.get? names ∨
    (tree.get? names = none ∧ after.get? names = some .directory ∧
      ∃ path ∈ paths, after.place? path.text = some names)

/-- Whether `after` is the tree in which some of the directories at `paths` have been made. -/
structure Made (paths : List Path) (tree after : Tree) : Prop where
  workingDirectory : after.workingDirectory = tree.workingDirectory
  keptOrMade : ∀ names, KeptOrMade paths tree after names

namespace Made

theorem refl (paths : List Path) (tree : Tree) : Made paths tree tree :=
  ⟨rfl, fun _ => .inl rfl⟩

theorem toExtends {paths : List Path} (h : Made paths tree after) : after.Extends tree where
  workingDirectory := h.workingDirectory
  directory names isDirectory := by
    rcases h.keptOrMade names with same | ⟨missing, -⟩
    · rw [same, isDirectory]
    · rw [missing] at isDirectory
      cases isDirectory

theorem mono {paths others : List Path} (h : Made paths tree after) (sub : paths ⊆ others) :
    Made others tree after where
  workingDirectory := h.workingDirectory
  keptOrMade names := (h.keptOrMade names).imp_right
    fun ⟨missing, isDirectory, path, isPath, leads⟩ =>
      ⟨missing, isDirectory, path, sub isPath, leads⟩

theorem trans {paths : List Path} {t u v : Tree} (first : Made paths t u)
    (second : Made paths u v) : Made paths t v where
  workingDirectory := second.workingDirectory.trans first.workingDirectory
  keptOrMade names := by
    rcases second.keptOrMade names with same | ⟨missing, isDirectory, leads⟩
    · rcases first.keptOrMade names with same' | ⟨missing, isDirectory, path, isPath, leads⟩
      · exact .inl (same.trans same')
      · exact .inr ⟨missing, same.trans isDirectory, path, isPath, second.toExtends.place? leads⟩
    · rcases first.keptOrMade names with same' | ⟨-, isDirectory', -⟩
      · exact .inr ⟨same' ▸ missing, isDirectory, leads⟩
      · rw [missing] at isDirectory'
        cases isDirectory'

/-- No file is made or changed with directories. -/
theorem get?_eq_file_iff {paths : List Path} (h : Made paths tree after) {content : ByteArray} :
    after.get? names = some (.file content) ↔ tree.get? names = some (.file content) := by
  rcases h.keptOrMade names with same | ⟨missing, isDirectory, -⟩
  · rw [same]
  · rw [missing, isDirectory]
    exact iff_of_false (by simp) (by simp)

end Made

theorem made_makeDirectory {path : Path} (h : tree.makeDirectory path.text = .ok after) :
    Made [path] tree after := by
  rw [makeDirectory, Checked.bind_eq_ok_iff] at h
  obtain ⟨⟨directory, last, slash⟩, isLocation, h⟩ := h
  cases last with
  | none => cases h
  | some name =>
    dsimp only at h
    split at h
    · cases h
    · rename_i missing
      rw [Option.not_isSome_iff_eq_none] at missing
      cases h
      have free : tree.get? (directory ++ [name]) ≠ some .directory := by
        simp [missing]
      have leads : tree.place? path.text = some (directory ++ [name]) := by
        rw [place?, isLocation]
        rfl
      refine ⟨rfl, fun names => ?_⟩
      rw [KeptOrMade, get?_put free]
      split
      · rename_i same
        rw [same]
        exact .inr ⟨missing, rfl, path, List.mem_singleton_self _,
          (extends_put free .directory).place? leads⟩
      · exact .inl rfl

end Tree

theorem makeDirectory_apply (path : String) (w : Workspace) :
    (Store.makeDirectory path : StateM Workspace (Except FileFault Unit)) w =
      match w.tree.makeDirectory path with
      | .ok tree => (.ok (), { w with tree })
      | .error fault => (.error fault, w) := rfl

/-- What it comes to that a directory cannot be made. -/
def Tree.settle (tree : Tree) (path : Path) (fault : FileFault) : Except FileFault Unit :=
  if tree.isDirectory path.text then .ok () else .error fault

theorem makeDirectories_cons (path : Path) (outer : List Path) (w : Workspace) :
    (makeDirectories (path :: outer) : StateM Workspace (Except FileFault Unit)) w =
      match w.tree.makeDirectory path.text with
      | .ok tree => (.ok (), { w with tree })
      | .error .missing =>
        match (makeDirectories outer : StateM Workspace (Except FileFault Unit)) w with
        | (.error fault, between) => (.error fault, between)
        | (.ok (), between) =>
          match between.tree.makeDirectory path.text with
          | .ok tree => (.ok (), { between with tree })
          | .error fault => (between.tree.settle path fault, between)
      | .error fault => (w.tree.settle path fault, w) := by
  rw [makeDirectories, bind_apply, makeDirectory_apply]
  cases w.tree.makeDirectory path.text with
  | ok tree => rfl
  | error fault =>
    cases fault with
    | missing =>
      dsimp only
      rw [bind_apply]
      rcases (makeDirectories outer : StateM Workspace (Except FileFault Unit)) w with
        ⟨result, between⟩
      cases result with
      | error fault => rfl
      | ok _ =>
        dsimp only
        rw [bind_apply, makeDirectory_apply]
        cases between.tree.makeDirectory path.text <;> rfl
    | _ => rfl

/-- Making directories depends on the tree only, and does nothing else. -/
theorem made_makeDirectories (paths : List Path) (tree : Tree) :
    ∃ result after, Tree.Made paths tree after ∧ ∀ w : Workspace, w.tree = tree →
      (makeDirectories paths : StateM Workspace (Except FileFault Unit)) w =
        (result, { w with tree := after }) := by
  induction paths generalizing tree with
  | nil =>
    refine ⟨.ok (), tree, .refl [] tree, ?_⟩
    rintro w rfl
    rfl
  | cons path outer ih =>
    have thisPath : [path] ⊆ path :: outer := by simp
    cases first : tree.makeDirectory path.text with
    | ok after =>
      refine ⟨.ok (), after, (Tree.made_makeDirectory first).mono thisPath, ?_⟩
      rintro w rfl
      rw [makeDirectories_cons, first]
    | error fault =>
      by_cases isMissing : fault = .missing
      · subst isMissing
        obtain ⟨result, between, made, isLeft⟩ := ih tree
        have madeOuter := made.mono (List.subset_cons_self path outer)
        cases result with
        | error fault =>
          refine ⟨.error fault, between, madeOuter, ?_⟩
          rintro w rfl
          rw [makeDirectories_cons, first, isLeft w rfl]
        | ok _ =>
          cases second : between.makeDirectory path.text with
          | ok after =>
            have madePath := (Tree.made_makeDirectory second).mono thisPath
            refine ⟨.ok (), after, madeOuter.trans madePath, ?_⟩
            rintro w rfl
            simp only [makeDirectories_cons, first, isLeft w rfl, second]
          | error fault =>
            refine ⟨between.settle path fault, between, madeOuter, ?_⟩
            rintro w rfl
            simp only [makeDirectories_cons, first, isLeft w rfl, second]
      · refine ⟨tree.settle path fault, tree, .refl _ tree, ?_⟩
        rintro w rfl
        rw [makeDirectories_cons, first]
        cases fault with
        | missing => exact absurd rfl isMissing
        | _ => rfl

/-! ### Storing a file -/

/-- The directories that are made before a file is written to a path. -/
def outerDirectories (path : String) : List Path :=
  (Path.ofString path).outer

/-- The tree in which a file is written to a path: the missing directories on the way to it have
been made as far as possible. -/
def Tree.prepared (tree : Tree) (path : String) : Tree :=
  ((makeDirectories (outerDirectories path) : StateM Workspace (Except FileFault Unit))
    { tree }).2.tree

theorem exists_makeDirectories_eq (path : String) (w : Workspace) :
    ∃ result, (makeDirectories (outerDirectories path) :
      StateM Workspace (Except FileFault Unit)) w =
        (result, { w with tree := w.tree.prepared path }) := by
  obtain ⟨result, after, -, isLeft⟩ := made_makeDirectories (outerDirectories path) w.tree
  have isPrepared : w.tree.prepared path = after := by
    rw [Tree.prepared, isLeft { tree := w.tree } rfl]
  exact ⟨result, by rw [isLeft w rfl, isPrepared]⟩

theorem Tree.made_prepared (tree : Tree) (path : String) :
    Made (outerDirectories path) tree (tree.prepared path) := by
  obtain ⟨result, after, made, isLeft⟩ := made_makeDirectories (outerDirectories path) tree
  rw [Tree.prepared, isLeft { tree } rfl]
  exact made

/-- How storing a file at a path by way of a temporary file can end: nothing is done, or the
temporary file is written and removed, or it takes the place of the file. -/
inductive Tree.Stored (tree : Tree) (temporary path : String) (content : ByteArray) :
    Checked Unit → Tree → Prop
  | untouched (fault : Fault) : Stored tree temporary path content (.error fault) tree
  | undone {old : Names} (fault : Fault) : tree.target? temporary = some old →
      tree.get? old ≠ some .directory →
      Stored tree temporary path content (.error fault) ((tree.put old (.file content)).erase old)
  | moved {old names : Names} : tree.target? temporary = some old →
      tree.get? old ≠ some .directory → tree.target? path = some names →
      tree.get? names ≠ some .directory →
      Stored tree temporary path content (.ok ())
        (((tree.put old (.file content)).erase old).put names (.file content))

namespace Tree.Stored

variable {tree after : Tree} {temporary path : String} {content : ByteArray}

/-- On success the file holds the content, the temporary file is gone, and the other entries are as
they were. -/
theorem get?_of_ok (h : Stored tree temporary path content (.ok ()) after) :
    ∃ old names, tree.target? temporary = some old ∧ tree.target? path = some names ∧
      tree.get? old ≠ some .directory ∧ tree.get? names ≠ some .directory ∧
      ∀ other, after.get? other = if other = names then some (.file content)
        else if other = old then none else tree.get? other := by
  cases h with
  | @moved old names isOld free isTarget free' =>
    refine ⟨old, names, isOld, isTarget, free, free', fun other => ?_⟩
    have written : (tree.put old (.file content)).get? old ≠ some .directory := by
      simp [get?_put free]
    have removed : ((tree.put old (.file content)).erase old).get? names ≠ some .directory := by
      rw [get?_erase written, get?_put free]
      split
      · simp
      · exact free'
    rw [get?_put removed, get?_erase written, get?_put free]
    split
    · rfl
    · split
      · rfl
      · rfl

/-- On failure all entries are as they were, except that a file is gone that was in the place of the
temporary file. -/
theorem get?_of_error {fault : Fault} (h : Stored tree temporary path content (.error fault) after)
    (other : Names) :
    after.get? other = tree.get? other ∨ (tree.target? temporary = some other ∧
      tree.get? other ≠ some .directory ∧ after.get? other = none) := by
  cases h with
  | untouched => exact .inl rfl
  | @undone old _ isOld free =>
    have written : (tree.put old (.file content)).get? old ≠ some .directory := by
      simp [get?_put free]
    rw [get?_erase written, get?_put free]
    by_cases same : other = old
    · rw [if_pos same, same]
      exact .inr ⟨isOld, free, rfl⟩
    · rw [if_neg same, if_neg same]
      exact .inl rfl

/-- The directories stay, whether the file is stored or not. -/
theorem toExtends {result : Checked Unit} (h : Stored tree temporary path content result after) :
    after.Extends tree where
  workingDirectory := by cases h <;> rfl
  directory names isDirectory := by
    cases result with
    | error fault =>
      rcases h.get?_of_error names with same | ⟨-, free, -⟩
      · rw [same, isDirectory]
      · exact absurd isDirectory free
    | ok _ =>
      obtain ⟨old, target, -, -, free, free', entries⟩ := h.get?_of_ok
      rw [entries, if_neg, if_neg, isDirectory]
      · rintro rfl
        exact free isDirectory
      · rintro rfl
        exact free' isDirectory

end Tree.Stored

theorem write_apply (path : String) (content : ByteArray) (w : Workspace) :
    (Store.write path content : StateM Workspace (Except FileFault Unit)) w =
      match w.tree.write path content with
      | .ok tree => (.ok (), { w with tree })
      | .error fault => (.error fault, w) := rfl

theorem rename_apply (source target : String) (w : Workspace) :
    (Store.rename source target : StateM Workspace (Except FileFault Unit)) w =
      match w.tree.rename source target with
      | .ok tree => (.ok (), { w with tree })
      | .error fault => (.error fault, w) := rfl

theorem mark_apply (w : Workspace) :
    (Store.mark : StateM Workspace String) w = (toString w.process, w) := rfl

theorem stored_writeAtomic (path text : String) (w : Workspace) :
    Tree.Stored (w.tree.prepared path) (temporaryPath path (toString w.process)) path text.toUTF8
        ((writeAtomic path text).exec w).1 ((writeAtomic path text).exec w).2.tree ∧
      ((writeAtomic path text).exec w).2.process = w.process := by
  obtain ⟨result, isLeft⟩ := exists_makeDirectories_eq path w
  generalize w.tree.prepared path = tree at isLeft ⊢
  rw [outerDirectories] at isLeft
  rw [temporaryPath, writeAtomic, Run.exec_mk]
  dsimp only
  rw [bind_apply, isLeft]
  cases result with
  | error fault => exact ⟨.untouched _, rfl⟩
  | ok _ =>
    dsimp only
    rw [bind_apply, mark_apply]
    dsimp only
    generalize (temporarySibling (Path.ofString path) (toString w.process)).text = temporary
    rw [bind_apply, write_apply]
    dsimp only
    cases written : tree.write temporary text.toUTF8 with
    | error fault =>
      refine ⟨?_, rfl⟩
      show Tree.Stored tree temporary path _ (.error _) (tree.removeFile temporary)
      rw [Tree.removeFile_of_write_eq_error written]
      exact .untouched _
    | ok tree' =>
      obtain ⟨old, isOld, free, rfl⟩ := Tree.write_eq_ok_iff.1 written
      have isOld' := (Tree.extends_put free (.file text.toUTF8)).target? isOld
      have found : (tree.put old (.file text.toUTF8)).get? old = some (.file text.toUTF8) := by
        rw [Tree.get?_put free, if_pos rfl]
      dsimp only
      rw [bind_apply, rename_apply]
      dsimp only
      cases renamed : (tree.put old (.file text.toUTF8)).rename temporary path with
      | error fault =>
        refine ⟨?_, rfl⟩
        show Tree.Stored tree temporary path _ (.error _) (Tree.removeFile _ temporary)
        rw [Tree.removeFile_of_file isOld' found]
        exact .undone _ isOld free
      | ok after =>
        obtain ⟨_, names, _, isOld'', found', isTarget, free', rfl⟩ :=
          Tree.rename_eq_ok_iff.1 renamed
        cases isOld'.symm.trans isOld''
        cases found.symm.trans found'
        refine ⟨?_, rfl⟩
        have isTarget' := (Tree.put_file_extends free text.toUTF8).target? isTarget
        have free'' : tree.get? names ≠ some .directory := fun isDirectory =>
          free' ((Tree.extends_put free _).directory names isDirectory)
        exact .moved isOld free isTarget' free''

/-! ### Writing where it is needed -/

theorem exec_writeIfChanged (path text : String) (w : Workspace) :
    ∃ journal, (writeIfChanged path text).exec w =
      match w.tree.existing path with
      | .error fault => (.error fault, { w with journal })
      | .ok held =>
        if held = some text then (.ok .unchanged, { w with journal })
        else
          match (writeAtomic path text).exec { w with journal } with
          | (.error fault, w') => (.error fault, w')
          | (.ok (), w') => (.ok .written, w') := by
  obtain ⟨journal, held⟩ := Run.reads_readExisting path w
  refine ⟨journal, ?_⟩
  rw [writeIfChanged, Run.exec_bind, held]
  dsimp only
  cases w.tree.existing path with
  | error fault => rfl
  | ok held =>
    dsimp only
    split
    · rfl
    · rw [Run.exec_bind]
      rcases (writeAtomic path text).exec { w with journal } with ⟨result, w'⟩
      cases result <;> rfl

/-- The note of a generation. -/
def outcomeEvent (output : String) : WriteOutcome → Event
  | .written => .wrote output
  | .unchanged => .upToDate output

theorem exec_generateToFile (settings : Settings) (schema output : String) (w : Workspace) :
    ∃ journal, (generateToFile settings schema output).exec w =
      match w.tree.artifact settings schema with
      | .error fault => (.error fault, { w with journal })
      | .ok text =>
        match (writeIfChanged output text).exec { w with journal } with
        | (.error fault, w') => (.error fault, w')
        | (.ok outcome, w') =>
          (.ok outcome, { w' with journal := w'.journal ++ [outcomeEvent output outcome] }) := by
  obtain ⟨journal, generated⟩ := Run.reads_generateFile settings schema w
  refine ⟨journal, ?_⟩
  rw [generateToFile, Run.exec_bind, generated]
  dsimp only
  cases w.tree.artifact settings schema with
  | error fault => rfl
  | ok text =>
    dsimp only
    rw [Run.exec_bind]
    rcases (writeIfChanged output text).exec { w with journal } with ⟨result, w'⟩
    cases result with
    | error fault => rfl
    | ok outcome => cases outcome <;> rfl

end Telemetry.Files
