import Telemetry.Proofs.Files.Beside
import Telemetry.Proofs.Files.Session

/-!
# Stale artifacts

An artifact is stale if it differs from what its schema generates.  Whether it can be told and
replaced depends on what it holds and on its name.

* `Tree.Roomy` says that there is room for the temporary file beside a file, and
  `exec_writeAtomic_of_file` that exactly then a text can be put into the file;
* `stale_of_isText`: a stale artifact that holds a text is told, and replaced if there is room;
* `stale_of_not_isText`: bytes that are no text are neither told nor replaced;
* `stale_exact` puts both together, and `not_stale_exact` are two stale artifacts that stay.
-/

namespace Telemetry.Files

/-- Whether bytes are the encoding of a text. -/
def IsText (content : ByteArray) : Prop :=
  ∃ text : String, content = text.toUTF8

namespace Tree

variable {tree : Tree} {path mark : String} {names : Names} {content : ByteArray}

theorem existing_of_not_isText (held : tree.read path = .ok content) (noText : ¬ IsText content) :
    tree.existing path = .error (.read path .notText) := by
  have undecoded : String.fromUTF8? content = none := by
    rw [Option.eq_none_iff_forall_ne_some]
    exact fun text isText => noText ⟨text, fromUTF8?_eq_some_iff.1 isText⟩
  rw [existing, text, held]
  simp only [undecoded]

/-- Whether there is room for the temporary file beside a file: its path and its name are short
enough, and no directory has this name. -/
structure Roomy (tree : Tree) (path mark : String) : Prop where
  shortPath : (temporaryPath path mark).utf8ByteSize ≤ maxPathBytes
  shortName : (temporaryName (Path.ofString path) mark).utf8ByteSize ≤ maxNameBytes
  free : ∀ names ∈ tree.target? path,
    tree.get? (names.dropLast ++ [temporaryName (Path.ofString path) mark]) ≠ some .directory

theorem Roomy.target? (h : tree.Roomy path mark) (isTarget : tree.target? path = some names)
    (noSlash : '/' ∉ mark.toList) (noNul : '\x00' ∉ mark.toList) :
    tree.target? (temporaryPath path mark) =
      some (names.dropLast ++ [temporaryName (Path.ofString path) mark]) := by
  rw [target?_temporaryPath isTarget noSlash noNul, if_pos ⟨h.shortPath, h.shortName⟩]

/-- There is room for a file that can be written. -/
theorem roomy_of_target? {temporary : Names} (isTarget : tree.target? path = some names)
    (noSlash : '/' ∉ mark.toList) (noNul : '\x00' ∉ mark.toList)
    (isTemporary : tree.target? (temporaryPath path mark) = some temporary)
    (free : tree.get? temporary ≠ some .directory) : tree.Roomy path mark := by
  rw [target?_temporaryPath isTarget noSlash noNul] at isTemporary
  split at isTemporary
  · rename_i sizes
    cases isTemporary
    refine ⟨sizes.1, sizes.2, fun names' isTarget' => ?_⟩
    cases isTarget.symm.trans isTarget'
    exact free
  · cases isTemporary

/-- More directories leave no more room. -/
theorem Roomy.of_extends {after : Tree} (extended : after.Extends tree)
    (h : after.Roomy path mark) : tree.Roomy path mark where
  shortPath := h.shortPath
  shortName := h.shortName
  free names isTarget isDirectory :=
    h.free names (extended.target? isTarget) (extended.directory _ isDirectory)

end Tree

theorem nul_notMem_toString (n : Nat) : '\x00' ∉ (toString n).toList := by
  rw [Nat.toString_eq_repr, Nat.toList_repr]
  intro nul
  exact absurd (Nat.isDigit_of_mem_toDigits (by decide) (by decide) nul) (by decide)

/-! ### Putting a text into a file -/

/-- A text is put into a file by a temporary file that is renamed. -/
theorem exec_writeAtomic_fst (path text : String) (w : Workspace) :
    ((writeAtomic path text).exec w).1 =
      match (makeDirectories (outerDirectories path) :
          StateM Workspace (Except FileFault Unit)) w with
      | (.error fault, _) => .error (.write path fault)
      | (.ok (), between) =>
        match between.tree.write (temporaryPath path (toString between.process)) text.toUTF8 with
        | .error fault => .error (.write path fault)
        | .ok tree =>
          match tree.rename (temporaryPath path (toString between.process)) path with
          | .error fault => .error (.write path fault)
          | .ok _ => .ok () := by
  rw [writeAtomic, Run.exec_mk, outerDirectories]
  dsimp only
  rw [bind_apply]
  rcases (makeDirectories (Path.ofString path).outer :
    StateM Workspace (Except FileFault Unit)) w with ⟨result, between⟩
  cases result with
  | error fault => rfl
  | ok _ =>
    dsimp only
    rw [bind_apply, mark_apply]
    dsimp only
    rw [bind_apply, write_apply, ← temporaryPath]
    cases between.tree.write (temporaryPath path (toString between.process)) text.toUTF8 with
    | error fault => rfl
    | ok tree =>
      dsimp only
      rw [bind_apply, rename_apply]
      dsimp only
      cases tree.rename (temporaryPath path (toString between.process)) path <;> rfl

/-- A text that cannot be put into a file is a failure to write this file. -/
theorem exists_write_of_writeAtomic {path text : String} {w : Workspace} {fault : Fault}
    (h : ((writeAtomic path text).exec w).1 = .error fault) :
    ∃ cause, fault = .write path cause := by
  rw [exec_writeAtomic_fst] at h
  split at h
  · cases h
    exact ⟨_, rfl⟩
  · split at h
    · cases h
      exact ⟨_, rfl⟩
    · split at h
      · cases h
        exact ⟨_, rfl⟩
      · cases h

section

variable (text : String) {w : Workspace} {path : String} {names : Names} {content : ByteArray}

/-- A text can be put into a file that is there, if there is room beside it. -/
theorem exec_writeAtomic_of_roomy (isTarget : w.tree.target? path = some names)
    (isFile : w.tree.get? names = some (.file content))
    (roomy : w.tree.Roomy path (toString w.process)) :
    ((writeAtomic path text).exec w).1 = .ok () := by
  have isTemporary := roomy.target? isTarget (slash_notMem_toString _) (nul_notMem_toString _)
  have free := roomy.free names isTarget
  generalize names.dropLast ++ [_] = temporary at isTemporary free
  have written : w.tree.write _ text.toUTF8 = .ok _ :=
    Tree.write_eq_ok_iff.2 ⟨temporary, isTemporary, free, rfl⟩
  have more := Tree.extends_put free (.file text.toUTF8)
  have isWritten : (w.tree.put temporary (.file text.toUTF8)).get? temporary =
      some (.file text.toUTF8) := by
    rw [Tree.get?_put free, if_pos rfl]
  have isFree : (w.tree.put temporary (.file text.toUTF8)).get? names ≠ some .directory := by
    rw [Tree.get?_put free, isFile]
    split <;> simp
  have renamed := Tree.rename_eq_ok_iff.2 ⟨temporary, names, text.toUTF8,
    more.target? isTemporary, isWritten, more.target? isTarget, isFree, rfl⟩
  rw [exec_writeAtomic_fst, makeDirectories_of_target? isTarget roomy.shortPath]
  simp only [written, renamed]

/-- A text can be put into a file that is there, exactly if there is room beside it; otherwise the
file stays as it is. -/
theorem exec_writeAtomic_of_file (isTarget : w.tree.target? path = some names)
    (isFile : w.tree.get? names = some (.file content)) :
    (w.tree.Roomy path (toString w.process) →
      ((writeAtomic path text).exec w).1 = .ok () ∧
        ((writeAtomic path text).exec w).2.tree.read path = .ok text.toUTF8) ∧
    (¬ w.tree.Roomy path (toString w.process) →
      ∃ cause, ((writeAtomic path text).exec w).1 = .error (.write path cause) ∧
        ((writeAtomic path text).exec w).2.tree.read path = .ok content) := by
  obtain ⟨stored, -⟩ := stored_writeAtomic path text w
  have made := w.tree.made_prepared path
  have isTarget' := made.toExtends.target? isTarget
  constructor
  · intro roomy
    have done := exec_writeAtomic_of_roomy text isTarget isFile roomy
    rw [done] at stored
    obtain ⟨_, target, -, isTarget'', -, -, entries⟩ := stored.get?_of_ok
    refine ⟨done, Tree.read_eq_ok_iff.2 ⟨target, stored.toExtends.target? isTarget'', ?_⟩⟩
    rw [entries, if_pos rfl]
  · intro noRoom
    cases isResult : ((writeAtomic path text).exec w).1 with
    | ok _ =>
      rw [isResult] at stored
      obtain ⟨old, _, isOld, -, free, -⟩ := stored.get?_of_ok
      have roomy := Tree.roomy_of_target? isTarget' (slash_notMem_toString _)
        (nul_notMem_toString _) isOld free
      exact absurd (roomy.of_extends made.toExtends) noRoom
    | error fault =>
      obtain ⟨cause, rfl⟩ := exists_write_of_writeAtomic isResult
      refine ⟨cause, rfl, Tree.read_eq_ok_iff.2 ⟨names, stored.toExtends.target? isTarget', ?_⟩⟩
      rw [isResult] at stored
      rcases stored.get?_of_error names with same | ⟨isTemporary, -⟩
      · rw [same, made.get?_eq_file_iff.2 isFile]
      · have isName := Tree.temporaryName_of_target? (slash_notMem_toString _) isTemporary
        rw [← Tree.fileName?_of_target? isTarget] at isName
        exact absurd isName (temporaryName_ne _ _)

end

/-! ### Stale artifacts -/

section

variable {settings : Settings} {schema output text : String} {content : ByteArray} {w : Workspace}

theorem checkUpToDate_of_artifact (isArtifact : w.tree.artifact settings schema = .ok text) :
    ((checkUpToDate settings schema output).exec w).1 =
      w.tree.existing output >>= fun held =>
        if held ≠ some text then .error (.outOfDate output) else .ok () := by
  obtain ⟨_, isCheck⟩ := Run.reads_checkUpToDate settings schema output w
  rw [isCheck]
  dsimp only
  rw [isArtifact]
  rfl

theorem generateToFile_of_unreadable (isArtifact : w.tree.artifact settings schema = .ok text)
    {fault : Fault} (unreadable : w.tree.existing output = .error fault) :
    ((generateToFile settings schema output).exec w).1 = .error fault ∧
      ((generateToFile settings schema output).exec w).2.tree = w.tree := by
  obtain ⟨journal, isRun⟩ := exec_generateToFile settings schema output w
  obtain ⟨journal', isWrite⟩ := exec_writeIfChanged output text { w with journal }
  rw [isArtifact] at isRun
  dsimp only at isRun isWrite
  rw [isWrite, unreadable] at isRun
  rw [isRun]
  exact ⟨rfl, rfl⟩

/-- A stale artifact is written. -/
theorem generateToFile_of_stale (isArtifact : w.tree.artifact settings schema = .ok text)
    {held : Option String} (isHeld : w.tree.existing output = .ok held) (stale : held ≠ some text) :
    ∃ w', w'.tree = w.tree ∧ w'.process = w.process ∧
      ((generateToFile settings schema output).exec w).1 =
        (fun _ => WriteOutcome.written) <$> ((writeAtomic output text).exec w').1 ∧
      ((generateToFile settings schema output).exec w).2.tree =
        ((writeAtomic output text).exec w').2.tree := by
  obtain ⟨journal, isRun⟩ := exec_generateToFile settings schema output w
  obtain ⟨journal', isWrite⟩ := exec_writeIfChanged output text { w with journal }
  rw [isArtifact] at isRun
  dsimp only at isRun isWrite
  rw [isWrite, isHeld] at isRun
  dsimp only at isRun
  rw [if_neg stale] at isRun
  refine ⟨{ w with journal := journal' }, rfl, rfl, ?_⟩
  rw [isRun]
  rcases (writeAtomic output text).exec { w with journal := journal' } with ⟨result, after⟩
  cases result <;> exact ⟨rfl, rfl⟩

theorem artifact_of_generateFile
    (generated : ((generateFile settings schema).exec w).1 = .ok text) :
    w.tree.artifact settings schema = .ok text := by
  obtain ⟨journal, isLeft⟩ := Run.reads_generateFile settings schema w
  rw [← generated, isLeft]

/-- A stale artifact that holds a text is told, and it is replaced exactly if there is room beside
it; otherwise it stays. -/
theorem stale_of_isText (generated : ((generateFile settings schema).exec w).1 = .ok text)
    (held : w.tree.read output = .ok content) (stale : content ≠ text.toUTF8)
    (isText : IsText content) :
    ((checkUpToDate settings schema output).exec w).1 = .error (.outOfDate output) ∧
    (w.tree.Roomy output (toString w.process) →
      ((generateToFile settings schema output).exec w).1 = .ok .written ∧
        ((generateToFile settings schema output).exec w).2.tree.read output = .ok text.toUTF8) ∧
    (¬ w.tree.Roomy output (toString w.process) →
      ∃ cause, ((generateToFile settings schema output).exec w).1 =
          .error (.write output cause) ∧
        ((generateToFile settings schema output).exec w).2.tree.read output = .ok content) := by
  obtain ⟨old, rfl⟩ := isText
  have isArtifact := artifact_of_generateFile generated
  have isExisting := Tree.existing_eq_some_iff.2 held
  have differs : some old ≠ some text := fun same => stale (by rw [Option.some.inj same])
  constructor
  · rw [checkUpToDate_of_artifact isArtifact, isExisting]
    exact if_pos differs
  · obtain ⟨w', sameTree, sameProcess, isResult, isTree⟩ :=
      generateToFile_of_stale isArtifact isExisting differs
    obtain ⟨names, isTarget, isFile⟩ := Tree.read_eq_ok_iff.1 held
    rw [← sameTree] at isTarget isFile
    rw [isResult, isTree, ← sameTree, ← sameProcess]
    obtain ⟨room, noRoom⟩ := exec_writeAtomic_of_file text isTarget isFile
    constructor
    · intro roomy
      obtain ⟨done, after⟩ := room roomy
      exact ⟨by rw [done]; rfl, after⟩
    · intro notRoomy
      obtain ⟨cause, fails, after⟩ := noRoom notRoomy
      exact ⟨cause, by rw [fails]; rfl, after⟩

/-- An artifact that holds no text is neither told nor replaced, for it cannot be read. -/
theorem stale_of_not_isText (generated : ((generateFile settings schema).exec w).1 = .ok text)
    (held : w.tree.read output = .ok content) (noText : ¬ IsText content) :
    ((checkUpToDate settings schema output).exec w).1 = .error (.read output .notText) ∧
      ((generateToFile settings schema output).exec w).1 = .error (.read output .notText) ∧
      ((generateToFile settings schema output).exec w).2.tree = w.tree := by
  have isArtifact := artifact_of_generateFile generated
  have unreadable := Tree.existing_of_not_isText held noText
  rw [checkUpToDate_of_artifact isArtifact, unreadable]
  exact ⟨rfl, generateToFile_of_unreadable isArtifact unreadable⟩

theorem generateFile_of_read {source : String} (h : w.tree.read schema = .ok source.toUTF8) :
    ((generateFile settings schema).exec w).1 =
      Document.load source >>= fun document => document.generate settings := by
  obtain ⟨journal, isLeft⟩ := Run.reads_generateFile settings schema w
  rw [isLeft]
  show Tree.artifact _ settings schema = _
  rw [Tree.artifact, Tree.document, Tree.text_eq_ok_iff.2 h]
  rfl

/-- What checking and generating make of a stale artifact. -/
theorem stale_exact (generated : ((generateFile settings schema).exec w).1 = .ok text)
    (held : w.tree.read output = .ok content) (stale : content ≠ text.toUTF8) :
    (IsText content →
      ((checkUpToDate settings schema output).exec w).1 = .error (.outOfDate output) ∧
      (w.tree.Roomy output (toString w.process) →
        ((generateToFile settings schema output).exec w).1 = .ok .written ∧
          ((generateToFile settings schema output).exec w).2.tree.read output =
            .ok text.toUTF8) ∧
      (¬ w.tree.Roomy output (toString w.process) →
        ∃ cause, ((generateToFile settings schema output).exec w).1 =
            .error (.write output cause) ∧
          ((generateToFile settings schema output).exec w).2.tree.read output = .ok content)) ∧
    (¬ IsText content →
      ((checkUpToDate settings schema output).exec w).1 = .error (.read output .notText) ∧
        ((generateToFile settings schema output).exec w).1 = .error (.read output .notText) ∧
        ((generateToFile settings schema output).exec w).2.tree = w.tree) :=
  ⟨stale_of_isText generated held stale, stale_of_not_isText generated held⟩

end

/-- A workspace with a schema and something else in a file. -/
def workspaceWith (name : String) (content : ByteArray) : Workspace :=
  { tree := { entries := [(["s.json"], .file "\x7b\x7d".toUTF8), ([name], .file content)] } }

/-- The same text, which is not `old`, is generated wherever the schema is the empty one. -/
theorem exists_generateFile_of_read :
    ∃ text, text.toUTF8 ≠ "old".toUTF8 ∧ ∀ w : Workspace,
      w.tree.read "s.json" = .ok "\x7b\x7d".toUTF8 →
        ((generateFile {} "s.json").exec w).1 = .ok text := by
  have generated : ((Document.load "\x7b\x7d" >>= fun document =>
      document.generate {}).toOption.map (· == "old")) = some false := by decide +kernel
  obtain ⟨text, isText, differs⟩ := Option.map_eq_some_iff.1 generated
  refine ⟨text, fun same => beq_eq_false_iff_ne.1 differs (String.toByteArray_inj.1 same),
    fun w isSchema => ?_⟩
  rw [generateFile_of_read isSchema]
  exact Checked.toOption_eq_some_iff.1 isText

theorem stale_exact_of_workspaceWith :
    ∃ text, ((generateFile {} "s.json").exec (workspaceWith "a.ts" "old".toUTF8)).1 = .ok text ∧
      (workspaceWith "a.ts" "old".toUTF8).tree.read "a.ts" = .ok "old".toUTF8 ∧
      "old".toUTF8 ≠ text.toUTF8 ∧
      ((checkUpToDate {} "s.json" "a.ts").exec (workspaceWith "a.ts" "old".toUTF8)).1 =
        .error (.outOfDate "a.ts") ∧
      ((generateToFile {} "s.json" "a.ts").exec (workspaceWith "a.ts" "old".toUTF8)).1 =
        .ok .written := by
  obtain ⟨text, differs, generates⟩ := exists_generateFile_of_read
  have generated := generates (workspaceWith "a.ts" "old".toUTF8) (by decide +kernel)
  have held : (workspaceWith "a.ts" "old".toUTF8).tree.read "a.ts" = .ok "old".toUTF8 := by
    decide +kernel
  obtain ⟨told, replaced, -⟩ := (stale_exact generated held differs.symm).1 ⟨"old", rfl⟩
  exact ⟨text, generated, held, differs.symm, told,
    (replaced ⟨by decide +kernel, by decide +kernel, by decide +kernel⟩).1⟩

/-- A file name of 252 bytes, which leaves no room for the name of a temporary file. -/
def longName : String := .ofList (List.replicate 63 '𝄞')

/-- Not every stale artifact is told and replaced: bytes that are no text are neither, and a file
with a long name is not replaced. -/
theorem not_stale_exact :
    (∃ text, ((generateFile {} "s.json").exec (workspaceWith "a.ts" ⟨#[255]⟩)).1 = .ok text ∧
      (workspaceWith "a.ts" ⟨#[255]⟩).tree.read "a.ts" = .ok ⟨#[255]⟩ ∧ ⟨#[255]⟩ ≠ text.toUTF8 ∧
      ((checkUpToDate {} "s.json" "a.ts").exec (workspaceWith "a.ts" ⟨#[255]⟩)).1 ≠
        .error (.outOfDate "a.ts") ∧
      ((generateToFile {} "s.json" "a.ts").exec (workspaceWith "a.ts" ⟨#[255]⟩)).1 ≠
        .ok .written) ∧
    ∃ text, ((generateFile {} "s.json").exec (workspaceWith longName "old".toUTF8)).1 = .ok text ∧
      (workspaceWith longName "old".toUTF8).tree.read longName = .ok "old".toUTF8 ∧
      "old".toUTF8 ≠ text.toUTF8 ∧
      ((generateToFile {} "s.json" longName).exec (workspaceWith longName "old".toUTF8)).1 ≠
        .ok .written ∧
      ((generateToFile {} "s.json" longName).exec
        (workspaceWith longName "old".toUTF8)).2.tree.read longName = .ok "old".toUTF8 := by
  obtain ⟨text, differs, generates⟩ := exists_generateFile_of_read
  constructor
  · have generated := generates (workspaceWith "a.ts" ⟨#[255]⟩) (by decide +kernel)
    have held : (workspaceWith "a.ts" ⟨#[255]⟩).tree.read "a.ts" = .ok ⟨#[255]⟩ := by
      decide +kernel
    have noText : ¬ IsText ⟨#[255]⟩ := by
      rintro ⟨old, isOld⟩
      have undecoded : String.fromUTF8? ⟨#[255]⟩ = none := by decide +kernel
      rw [fromUTF8?_eq_some_iff.2 isOld] at undecoded
      cases undecoded
    obtain ⟨check, generate, -⟩ := stale_of_not_isText generated held noText
    rw [check, generate]
    exact ⟨text, generated, held, fun same => noText ⟨text, same⟩, nofun, nofun⟩
  · have generated := generates (workspaceWith longName "old".toUTF8) (by decide +kernel)
    have held : (workspaceWith longName "old".toUTF8).tree.read longName = .ok "old".toUTF8 := by
      decide +kernel
    have noRoom : ¬ (workspaceWith longName "old".toUTF8).tree.Roomy longName (toString 1) :=
      fun roomy => absurd roomy.shortName (by decide +kernel)
    obtain ⟨-, -, kept⟩ := stale_of_isText generated held differs.symm ⟨"old", rfl⟩
    obtain ⟨cause, fails, after⟩ := kept noRoom
    rw [fails]
    exact ⟨text, generated, held, differs.symm, nofun, after⟩

end Telemetry.Files
