import Telemetry.Proofs.Files.Session

/-!
# Generated artifacts are up to date

* `Tree.Current` says that a file holds the artifact of a schema.  Exactly then checking succeeds,
  `isOk_checkUpToDate_iff`, and generating has nothing to write, `unchanged_generateToFile_iff`;
* `Operation.Spares` says of an operation that it does not get at a file, once the directories that
  it makes are there;
* `upToDate_of_generateToFile`: what has been generated is current, and stays so over a session that
  spares the schema and the artifact.
-/

namespace Telemetry.Files

/-! ### Current artifacts -/

/-- Whether a file holds exactly the artifact of a schema. -/
def Tree.Current (settings : Settings) (schema output : String) (tree : Tree) : Prop :=
  ∃ text, tree.artifact settings schema = .ok text ∧ tree.read output = .ok text.toUTF8

theorem isOk_checkUpToDate_iff (settings : Settings) (schema output : String) (w : Workspace) :
    ((checkUpToDate settings schema output).exec w).1 = .ok () ↔
      w.tree.Current settings schema output := by
  obtain ⟨journal, isLeft⟩ := Run.reads_checkUpToDate settings schema output w
  rw [isLeft, Tree.Current]
  simp only [Checked.bind_eq_ok_iff]
  refine exists_congr fun text => and_congr_right fun _ => ?_
  rw [← Tree.existing_eq_some_iff]
  constructor
  · rintro ⟨held, isHeld, same⟩
    split at same
    · cases same
    · rename_i equal
      rw [isHeld, not_not.1 equal]
  · intro isHeld
    exact ⟨_, isHeld, by rw [if_neg (not_not.2 rfl)]⟩

theorem unchanged_generateToFile_iff (settings : Settings) (schema output : String)
    (w : Workspace) :
    ((generateToFile settings schema output).exec w).1 = .ok .unchanged ↔
      w.tree.Current settings schema output := by
  obtain ⟨journal, isLeft⟩ := exec_generateToFile settings schema output w
  rw [isLeft, Tree.Current]
  cases w.tree.artifact settings schema with
  | error fault => simp
  | ok text =>
    obtain ⟨journal', isLeft⟩ := exec_writeIfChanged output text { w with journal }
    simp only [Except.ok.injEq, exists_eq_left', ← Tree.existing_eq_some_iff, isLeft]
    cases w.tree.existing output with
    | error fault => simp
    | ok held =>
      by_cases same : held = some text
      · simp [same]
      · -- A file that does not hold the text is written, if that is possible.
        rcases (writeAtomic output text).exec { w with journal := journal' } with ⟨result, after⟩
        cases result <;> simp [same]

/-! ### Operations that spare a file -/

/-- Whether an operation does not get at a file: neither its path nor the one of its temporary file
leads there, once the missing directories on the way have been made. -/
def Operation.Spares (operation : Operation) (w : Workspace) (names : Names) : Prop :=
  ∀ path ∈ operation.output?, (w.tree.prepared path).target? path ≠ some names ∧
    (w.tree.prepared path).target? (temporaryPath path (toString w.process)) ≠ some names

instance (operation : Operation) (w : Workspace) (names : Names) :
    Decidable (operation.Spares w names) :=
  inferInstanceAs (Decidable (∀ path ∈ operation.output?, _))

namespace Tree

variable {tree after : Tree} {path text temporary : String} {names : Names}

theorem Ends.toExtends {outcome : Checked WriteOutcome}
    (h : Ends tree temporary path text outcome after) : after.Extends tree := by
  have made := (tree.made_prepared path).toExtends
  cases h with
  | stopped => exact .refl tree
  | unchanged => exact .refl tree
  | failed stored => exact made.trans stored.toExtends
  | written stored => exact made.trans stored.toExtends

/-- Writing keeps a file that neither the path nor the one of the temporary file leads to. -/
theorem Ends.get?_of_file {outcome : Checked WriteOutcome} {content : ByteArray}
    (h : Ends tree temporary path text outcome after)
    (isFile : tree.get? names = some (.file content))
    (notTarget : (tree.prepared path).target? path ≠ some names)
    (notTemporary : (tree.prepared path).target? temporary ≠ some names) :
    after.get? names = some (.file content) := by
  have before := (tree.made_prepared path).get?_eq_file_iff.2 isFile
  cases h with
  | stopped => exact isFile
  | unchanged => exact isFile
  | failed stored =>
    rcases stored.get?_of_error names with same | ⟨isTemporary, -⟩
    · rw [same, before]
    · exact absurd isTemporary notTemporary
  | written stored =>
    obtain ⟨old, target, isOld, isTarget, -, -, entries⟩ := stored.get?_of_ok
    rw [entries, if_neg, if_neg, before]
    · rintro rfl
      exact notTemporary isOld
    · rintro rfl
      exact notTarget isTarget

/-- An artifact depends on nothing but the content of its schema. -/
theorem artifact_congr {schema : String} {content : ByteArray}
    (isRead : tree.read schema = .ok content) (same : after.read schema = .ok content)
    (settings : Settings) : after.artifact settings schema = tree.artifact settings schema := by
  rw [artifact, artifact, document, document, Tree.text, Tree.text, isRead, same]

theorem exists_read_of_artifact {settings : Settings} {schema : String}
    (h : tree.artifact settings schema = .ok text) :
    ∃ content, tree.read schema = .ok content := by
  obtain ⟨document, isDocument, -⟩ := Checked.bind_eq_ok_iff.1 h
  obtain ⟨source, isSource, -⟩ := Checked.bind_eq_ok_iff.1 isDocument
  cases isText : tree.text schema with
  | error fault =>
    rw [isText] at isSource
    cases isSource
  | ok source => exact ⟨_, text_eq_ok_iff.1 isText⟩

/-- A current artifact stays current in a tree with the same two files. -/
theorem Current.of_extends {settings : Settings} {schema output : String}
    (h : tree.Current settings schema output) (extended : after.Extends tree)
    (kept : ∀ path ∈ [schema, output], ∀ names content, tree.target? path = some names →
      tree.get? names = some (.file content) → after.get? names = some (.file content)) :
    after.Current settings schema output := by
  have read : ∀ path ∈ [schema, output], ∀ content, tree.read path = .ok content →
      after.read path = .ok content := by
    intro path isPath content isRead
    obtain ⟨names, isTarget, found⟩ := read_eq_ok_iff.1 isRead
    exact read_eq_ok_iff.2
      ⟨names, extended.target? isTarget, kept path isPath names content isTarget found⟩
  obtain ⟨text, generated, held⟩ := h
  obtain ⟨content, isRead⟩ := exists_read_of_artifact generated
  refine ⟨text, ?_, read output (by simp) _ held⟩
  rw [artifact_congr isRead (read schema (by simp) content isRead), generated]

end Tree

/-- What an operation does to a file that it spares, and to the directories. -/
theorem Operation.keeps (operation : Operation) (w : Workspace) :
    (operation.run.exec w).2.tree.Extends w.tree ∧
      ∀ names content, operation.Spares w names → w.tree.get? names = some (.file content) →
        (operation.run.exec w).2.tree.get? names = some (.file content) := by
  cases isOutput : operation.output? with
  | none =>
    rw [(operation.tree_eq_of_reads isOutput w).1]
    exact ⟨.refl _, fun _ _ _ isFile => isFile⟩
  | some path =>
    obtain ⟨_, _, ends, -⟩ := operation.ends isOutput w
    refine ⟨ends.toExtends, fun names content spares isFile => ?_⟩
    obtain ⟨notTarget, notTemporary⟩ := spares path isOutput
    exact ends.get?_of_file isFile notTarget notTemporary

theorem Operation.current (operation : Operation) {settings : Settings} {schema output : String}
    {w : Workspace} (h : w.tree.Current settings schema output)
    (spares : ∀ path ∈ [schema, output], ∀ names, w.tree.target? path = some names →
      operation.Spares w names) :
    (operation.run.exec w).2.tree.Current settings schema output := by
  obtain ⟨extended, kept⟩ := operation.keeps w
  exact h.of_extends extended fun path isPath names content isTarget =>
    kept names content (spares path isPath names isTarget)

/-- Where a generation has succeeded, the artifact is current afterwards. -/
theorem current_of_generateToFile {settings : Settings} {schema output : String}
    {w after : Workspace} {outcome : WriteOutcome}
    (h : (generateToFile settings schema output).exec w = (.ok outcome, after))
    (spares : ∀ names, w.tree.target? schema = some names →
      (Operation.generateToFile settings schema output).Spares w names) :
    after.tree.Current settings schema output := by
  have isRun : (Operation.generateToFile settings schema output).run.exec w =
      (.ok (.outcome outcome), after) := by
    rw [Operation.run, Run.exec_map, h]
    rfl
  obtain ⟨text, result, ends, isText, isResult, -⟩ :=
    (Operation.generateToFile settings schema output).ends rfl w
  rw [isRun] at ends isResult
  obtain ⟨o, rfl, isAnswer⟩ := Checked.map_eq_ok_iff.1 isResult.symm
  cases Answer.outcome.inj isAnswer
  cases outcome with
  | unchanged =>
    rw [ends.eq_of_unchanged]
    exact (unchanged_generateToFile_iff settings schema output w).1 (by rw [h])
  | written =>
    have generated : w.tree.artifact settings schema = .ok text := by
      obtain ⟨journal, isLeft⟩ := Run.reads_generateFile settings schema w
      rw [← isText rfl, Operation.text, isLeft]
    have held : after.tree.read output = .ok text.toUTF8 := by
      cases ends with
      | written stored =>
        obtain ⟨old, names, -, isTarget, -, -, entries⟩ := stored.get?_of_ok
        exact Tree.read_eq_ok_iff.2
          ⟨names, stored.toExtends.target? isTarget, by rw [entries, if_pos rfl]⟩
    obtain ⟨content, isRead⟩ := Tree.exists_read_of_artifact generated
    obtain ⟨names, isTarget, found⟩ := Tree.read_eq_ok_iff.1 isRead
    obtain ⟨notTarget, notTemporary⟩ := spares names isTarget output rfl
    have same : after.tree.read schema = .ok content := Tree.read_eq_ok_iff.2
      ⟨names, ends.toExtends.target? isTarget, ends.get?_of_file found notTarget notTemporary⟩
    exact ⟨text, (Tree.artifact_congr isRead same settings).trans generated, held⟩

/-! ### Over a session -/

/-- Whether checking an artifact succeeds, and generating it again changes nothing. -/
structure UpToDate (settings : Settings) (schema output : String) (w : Workspace) : Prop where
  check : ((checkUpToDate settings schema output).exec w).1 = .ok ()
  unchanged : ((generateToFile settings schema output).exec w).1 = .ok .unchanged
  tree : ((generateToFile settings schema output).exec w).2.tree = w.tree

theorem Tree.Current.upToDate {settings : Settings} {schema output : String} {w : Workspace}
    (h : w.tree.Current settings schema output) : UpToDate settings schema output w where
  check := (isOk_checkUpToDate_iff settings schema output w).2 h
  unchanged := (unchanged_generateToFile_iff settings schema output w).2 h
  tree := by
    have unchanged := (unchanged_generateToFile_iff settings schema output w).2 h
    obtain ⟨text, result, ends, -, isResult, -⟩ :=
      (Operation.generateToFile settings schema output).ends rfl w
    rw [Operation.run, Run.exec_map] at ends isResult
    dsimp only at ends isResult
    rw [unchanged] at isResult
    obtain ⟨o, rfl, isAnswer⟩ := Checked.map_eq_ok_iff.1 isResult.symm
    cases Answer.outcome.inj isAnswer
    exact ends.eq_of_unchanged

theorem Tree.Current.exists_target {settings : Settings} {schema output : String} {tree : Tree}
    (h : tree.Current settings schema output) :
    ∀ path ∈ [schema, output], ∃ names, tree.target? path = some names := by
  obtain ⟨text, generated, held⟩ := h
  obtain ⟨content, isRead⟩ := exists_read_of_artifact generated
  have ofRead {path : String} {content : ByteArray} (isRead : tree.read path = .ok content) :
      ∃ names, tree.target? path = some names := by
    obtain ⟨names, isTarget, -⟩ := read_eq_ok_iff.1 isRead
    exact ⟨names, isTarget⟩
  exact List.forall_mem_cons.2 ⟨ofRead isRead, List.forall_mem_singleton.2 (ofRead held)⟩

theorem current_of_session {settings : Settings} {schema output : String} {w : Workspace}
    (h : w.tree.Current settings schema output) {operations : List Operation}
    (spares : ∀ step ∈ session w operations, ∀ path ∈ [schema, output], ∀ names,
      w.tree.target? path = some names → step.operation.Spares step.before names) :
    ∀ step ∈ session w operations, step.after.tree.Current settings schema output := by
  induction operations generalizing w with
  | nil => exact List.forall_mem_nil _
  | cons operation rest ih =>
    obtain ⟨first, others⟩ := List.forall_mem_cons.1 spares
    have current := operation.current h first
    refine List.forall_mem_cons.2 ⟨current, ih current fun step isStep path isPath names => ?_⟩
    -- The paths lead to where they led before, for no directory has gone.
    obtain ⟨names', isTarget'⟩ := h.exists_target path isPath
    intro isTarget
    cases ((operation.keeps w).1.target? isTarget').symm.trans isTarget
    exact others step isStep path isPath names isTarget'

/-- What has been generated is up to date, and stays so over a session, as long as no operation gets
at the schema or the artifact.  In any state, checking succeeds exactly where generating changes
nothing, which is where the artifact is the encoding of the generated text. -/
theorem upToDate_of_generateToFile (settings : Settings) (schema output : String)
    (w : Workspace) :
    (∀ outcome after,
      (generateToFile settings schema output).exec w = (.ok outcome, after) →
      (∀ names, w.tree.target? schema = some names →
        (Operation.generateToFile settings schema output).Spares w names) →
      UpToDate settings schema output after ∧
        ∀ operations, (∀ step ∈ session after operations, ∀ path ∈ [schema, output], ∀ names,
            after.tree.target? path = some names → step.operation.Spares step.before names) →
          ∀ step ∈ session after operations, UpToDate settings schema output step.after) ∧
    (((checkUpToDate settings schema output).exec w).1 = .ok () ↔
      ((generateToFile settings schema output).exec w).1 = .ok .unchanged) ∧
    (((checkUpToDate settings schema output).exec w).1 = .ok () ↔
      ∃ text, ((generateFile settings schema).exec w).1 = .ok text ∧
        w.tree.read output = .ok text.toUTF8) := by
  refine ⟨?_, ?_, ?_⟩
  · intro outcome after isRun spares
    have current := current_of_generateToFile isRun spares
    exact ⟨current.upToDate, fun operations others step isStep =>
      (current_of_session current others step isStep).upToDate⟩
  · rw [isOk_checkUpToDate_iff, unchanged_generateToFile_iff]
  · obtain ⟨journal, isLeft⟩ := Run.reads_generateFile settings schema w
    rw [isOk_checkUpToDate_iff, isLeft]
    rfl

/-- The workspace behind a generation into a directory that is made for it. -/
def generatedWorkspace : Workspace :=
  ((generateToFile {} "s.json" "out/a.ts").exec schemaWorkspace).2

theorem upToDate_generatedWorkspace :
    UpToDate {} "s.json" "out/a.ts" generatedWorkspace ∧
      ∀ step ∈ session generatedWorkspace [.writeAtomic "out/b" "text"],
        UpToDate {} "s.json" "out/a.ts" step.after := by
  have written : ((generateToFile {} "s.json" "out/a.ts").exec schemaWorkspace).1.toOption =
      some .written := by decide +kernel
  have isRun : (generateToFile {} "s.json" "out/a.ts").exec schemaWorkspace =
      (.ok .written, generatedWorkspace) :=
    Prod.ext (Checked.toOption_eq_some_iff.1 written) rfl
  have isSchema : schemaWorkspace.tree.target? "s.json" = some ["s.json"] := by decide +kernel
  have spares : (Operation.generateToFile {} "s.json" "out/a.ts").Spares schemaWorkspace
      ["s.json"] := by decide +kernel
  have targets : ∀ path ∈ ["s.json", "out/a.ts"],
      ∀ step ∈ session generatedWorkspace [.writeAtomic "out/b" "text"],
      ∀ names ∈ generatedWorkspace.tree.target? path,
        step.operation.Spares step.before names := by decide +kernel
  obtain ⟨upToDate, later⟩ := (upToDate_of_generateToFile {} "s.json" "out/a.ts"
    schemaWorkspace).1 .written generatedWorkspace isRun fun names isTarget => by
      cases isSchema.symm.trans isTarget
      exact spares
  exact ⟨upToDate, later _ fun step isStep path isPath names isTarget =>
    targets path isPath step isStep names isTarget⟩

/-- A schema that has the name of a temporary file. -/
def hiddenWorkspace : Workspace :=
  { tree := { entries := [([".b.tmp-1"], .file "\x7b\x7d".toUTF8)] } }

/-- It is not enough that the path of the artifact does not lead to the schema beforehand.  In the
first workspace it does when the directory has been made that it goes through, and in the second the
schema is in the place of the temporary file; so the artifact or nothing is there afterwards.  In
the same two ways a later operation can get at the artifact or the schema. -/
theorem not_upToDate_of_generateToFile :
    (schemaWorkspace.tree.target? "new/../s.json" ≠ schemaWorkspace.tree.target? "s.json" ∧
      ∃ after, (generateToFile { sinkImport := none } "s.json" "new/../s.json").exec
          schemaWorkspace = (.ok .written, after) ∧
        ((checkUpToDate { sinkImport := none } "s.json" "new/../s.json").exec after).1 ≠ .ok ()) ∧
    (hiddenWorkspace.tree.target? "b" ≠ hiddenWorkspace.tree.target? ".b.tmp-1" ∧
      ∃ after, (generateToFile {} ".b.tmp-1" "b").exec hiddenWorkspace = (.ok .written, after) ∧
        ((checkUpToDate {} ".b.tmp-1" "b").exec after).1 ≠ .ok ()) ∧
    ∃ after, (generateToFile {} "s.json" ".b.tmp-1").exec schemaWorkspace =
        (.ok .written, after) ∧
      ∀ path ∈ ["b", "new/../s.json"],
        (∀ kept ∈ ["s.json", ".b.tmp-1"], after.tree.target? path ≠ after.tree.target? kept) ∧
        ∀ step ∈ session after [.writeAtomic path "text"],
          ((checkUpToDate {} "s.json" ".b.tmp-1").exec step.after).1 ≠ .ok () := by
  have isRun {settings : Settings} {schema output : String} {w : Workspace}
      (written : ((generateToFile settings schema output).exec w).1.toOption = some .written) :
      (generateToFile settings schema output).exec w =
        (.ok .written, ((generateToFile settings schema output).exec w).2) :=
    Prod.ext (Checked.toOption_eq_some_iff.1 written) rfl
  have isStale {settings : Settings} {schema output : String} {w : Workspace}
      (stale : ((checkUpToDate settings schema output).exec w).1.toOption = none) :
      ((checkUpToDate settings schema output).exec w).1 ≠ .ok () := by
    intro isOk
    rw [Checked.toOption_eq_some_iff.2 isOk] at stale
    cases stale
  refine ⟨⟨?_, _, isRun ?_, isStale ?_⟩, ⟨?_, _, isRun ?_, isStale ?_⟩, _, isRun ?_,
    fun path isPath => ⟨?apart, fun step isStep => isStale ?stale⟩⟩
  case apart =>
    revert path
    decide +kernel
  case stale =>
    revert step path
    decide +kernel
  all_goals decide +kernel

end Telemetry.Files
