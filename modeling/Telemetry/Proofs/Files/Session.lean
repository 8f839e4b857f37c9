import Telemetry.Proofs.Files.Write

/-!
# Sessions

A session is a sequence of operations over one workspace, each of which takes up what the ones
before it have left.

* `Operation` lists the operations, `session` carries them out and keeps what each of them gives;
* `Step.AllOrNothing` says of a step that it leaves no temporary file, and that it stores its text
  in one file or leaves every file as it was;
* `Tree.Ends` lists the ways in which writing a file can end, `Operation.ends` says that an
  operation that writes a file ends in one of them;
* `allOrNothing_of_session`: all steps of a session are all or nothing.
-/

namespace Telemetry.Files

/-- What can be done with schemas and artifacts. -/
inductive Operation where
  | generate (settings : Settings) (schema : String)
  | validate (settings : Settings) (schema : String)
  | check (settings : Settings) (schema output : String)
  | generateToFile (settings : Settings) (schema output : String)
  | writeAtomic (path text : String)
  | writeIfChanged (path text : String)

/-- What an operation answers. -/
inductive Answer where
  | artifact (text : String)
  | plan (plan : Plan)
  | upToDate
  | outcome (outcome : WriteOutcome)
  | stored

namespace Operation

/-- Carries an operation out. -/
def run : Operation → Run (StateM Workspace) Answer
  | .generate settings schema => .artifact <$> Files.generateFile settings schema
  | .validate settings schema => .plan <$> Files.planFile settings schema
  | .check settings schema output => do
    Files.checkUpToDate settings schema output
    return .upToDate
  | .generateToFile settings schema output =>
    .outcome <$> Files.generateToFile settings schema output
  | .writeAtomic path text => do
    Files.writeAtomic path text
    return .stored
  | .writeIfChanged path text => .outcome <$> Files.writeIfChanged path text

/-- The path of the file that an operation writes. -/
def output? : Operation → Option String
  | .generate _ _ => none
  | .validate _ _ => none
  | .check _ _ _ => none
  | .generateToFile _ _ output => some output
  | .writeAtomic path _ => some path
  | .writeIfChanged path _ => some path

/-- The text that an operation is about: the one it is given, or the one that its schema
generates. -/
def text (w : Workspace) : Operation → Checked String
  | .generate settings schema | .validate settings schema | .check settings schema _
  | .generateToFile settings schema _ => ((Files.generateFile settings schema).exec w).1
  | .writeAtomic _ text | .writeIfChanged _ text => .ok text

end Operation

/-- An operation of a session, with the workspaces before and after it. -/
structure Step where
  operation : Operation
  before : Workspace
  result : Checked Answer
  after : Workspace

/-- Carries operations out one after the other, whether they succeed or not. -/
def session (w : Workspace) : List Operation → List Step
  | [] => []
  | operation :: rest =>
    let (result, after) := operation.run.exec w
    ⟨operation, w, result, after⟩ :: session after rest

/-! ### All or nothing -/

/-- Whether a tree has a file of this name in some directory. -/
def Tree.HasFileNamed (tree : Tree) (name : String) : Prop :=
  ∃ names content, names.getLast? = some name ∧ tree.get? names = some (.file content)

theorem Tree.HasFileNamed.mem_entries {tree : Tree} {name : String} (h : tree.HasFileNamed name) :
    name ∈ tree.entries.filterMap fun entry => entry.1.getLast? := by
  obtain ⟨names, content, isName, isFile⟩ := h
  rw [get?] at isFile
  split at isFile
  · cases isFile
  · obtain ⟨front, back, isList, -⟩ := List.lookup_eq_some_iff.1 isFile
    exact List.mem_filterMap.2 ⟨(names, .file content), by rw [isList]; simp, isName⟩

/-- The name of the temporary file that an operation uses, if it writes a file. -/
def Operation.temporary? (operation : Operation) (w : Workspace) : Option String :=
  operation.output?.map fun path => temporaryName (Path.ofString path) (toString w.process)

/-- Whether `after` is the tree in which the text has been stored at a path and nothing else has
been changed, except that missing directories on the way have been made. -/
def Tree.StoredAt (path text : String) (tree after : Tree) : Prop :=
  ∃ names, after.target? path = some names ∧ after.get? names = some (.file text.toUTF8) ∧
    ∀ other, other ≠ names → KeptOrMade (outerDirectories path) tree after other

namespace Step

/-- Whether no file has the name of the temporary file of a step beforehand. -/
def Free (step : Step) : Prop :=
  ∀ name ∈ step.operation.temporary? step.before, ¬ step.before.tree.HasFileNamed name

/-- What a step does to the files, if it is all or nothing. -/
structure AllOrNothing (step : Step) : Prop where
  noTemporary : ∀ name ∈ step.operation.temporary? step.before,
    ¬ step.after.tree.HasFileNamed name
  /-- Generating, validating and checking changes nothing. -/
  reads : step.operation.output? = none → step.after.tree = step.before.tree
  unchanged : step.result = .ok (.outcome .unchanged) → step.after.tree = step.before.tree
  /-- A failure leaves all files as they were. -/
  failed : ∀ path ∈ step.operation.output?, ∀ fault, step.result = .error fault →
    Tree.Made (outerDirectories path) step.before.tree step.after.tree
  stored : ∀ path ∈ step.operation.output?,
    step.result = .ok (.outcome .written) ∨ step.result = .ok .stored →
    ∃ text, step.operation.text step.before = .ok text ∧
      Tree.StoredAt path text step.before.tree step.after.tree

end Step

/-! ### How writing ends -/

/-- How writing a text to a path can end: before anything is done, because of a failure or because
the file holds the text already, or with the file stored or not. -/
inductive Tree.Ends (tree : Tree) (temporary path text : String) :
    Checked WriteOutcome → Tree → Prop
  | stopped (fault : Fault) : Ends tree temporary path text (.error fault) tree
  | unchanged : Ends tree temporary path text (.ok .unchanged) tree
  | failed {fault : Fault} {after : Tree} :
      Stored (tree.prepared path) temporary path text.toUTF8 (.error fault) after →
      Ends tree temporary path text (.error fault) after
  | written {after : Tree} :
      Stored (tree.prepared path) temporary path text.toUTF8 (.ok ()) after →
      Ends tree temporary path text (.ok .written) after

theorem ends_writeAtomic (path text : String) (w : Workspace) :
    Tree.Ends w.tree (temporaryPath path (toString w.process)) path text
        ((fun _ => .written) <$> ((writeAtomic path text).exec w).1)
        ((writeAtomic path text).exec w).2.tree ∧
      ((writeAtomic path text).exec w).2.process = w.process := by
  obtain ⟨stored, process⟩ := stored_writeAtomic path text w
  refine ⟨?_, process⟩
  generalize (writeAtomic path text).exec w = left at stored ⊢
  rcases left with ⟨result, after⟩
  cases result with
  | error fault => exact .failed stored
  | ok _ => exact .written stored

theorem ends_writeIfChanged (path text : String) (w : Workspace) :
    Tree.Ends w.tree (temporaryPath path (toString w.process)) path text
        ((writeIfChanged path text).exec w).1 ((writeIfChanged path text).exec w).2.tree ∧
      ((writeIfChanged path text).exec w).2.process = w.process := by
  obtain ⟨journal, isLeft⟩ := exec_writeIfChanged path text w
  rw [isLeft]
  cases w.tree.existing path with
  | error fault => exact ⟨.stopped fault, rfl⟩
  | ok held =>
    dsimp only
    split
    · exact ⟨.unchanged, rfl⟩
    · have ends := ends_writeAtomic path text { w with journal }
      generalize (writeAtomic path text).exec { w with journal } = left at ends ⊢
      rcases left with ⟨result, after⟩
      cases result <;> exact ends

namespace Operation

/-- What an operation answers when it has written a file, or has not had to. -/
def answer : Operation → WriteOutcome → Answer
  | .writeAtomic _ _, .written => .stored
  | _, outcome => .outcome outcome

theorem answer_unchanged {operation : Operation} {outcome : WriteOutcome}
    (h : operation.answer outcome = .outcome .unchanged) : outcome = .unchanged := by
  cases operation <;> cases outcome <;> simp [answer] at h ⊢

theorem answer_written {operation : Operation} {outcome : WriteOutcome}
    (h : operation.answer outcome = .outcome .written ∨ operation.answer outcome = .stored) :
    outcome = .written := by
  cases operation <;> cases outcome <;> simp [answer] at h ⊢

theorem ends {operation : Operation} {path : String} (h : path ∈ operation.output?)
    (w : Workspace) :
    ∃ text outcome,
      Tree.Ends w.tree (temporaryPath path (toString w.process)) path text outcome
        (operation.run.exec w).2.tree ∧
      (outcome = .ok .written → operation.text w = .ok text) ∧
      (operation.run.exec w).1 = operation.answer <$> outcome ∧
      (operation.run.exec w).2.process = w.process := by
  cases operation with
  | generate settings schema => cases h
  | validate settings schema => cases h
  | check settings schema output => cases h
  | generateToFile settings schema output =>
    cases h
    obtain ⟨journal, generated⟩ := Run.reads_generateFile settings schema w
    obtain ⟨journal, isLeft⟩ := exec_generateToFile settings schema path w
    rw [run, Run.exec_map, isLeft, text, generated]
    dsimp only
    cases w.tree.artifact settings schema with
    | error fault =>
      exact ⟨"", .error fault, .stopped fault, nofun, rfl, rfl⟩
    | ok text =>
      obtain ⟨ends, process⟩ := ends_writeIfChanged path text { w with journal }
      dsimp only
      generalize (Files.writeIfChanged path text).exec { w with journal } = left
        at ends process ⊢
      rcases left with ⟨result, after⟩
      cases result with
      | error fault => exact ⟨text, _, ends, fun _ => rfl, rfl, process⟩
      | ok outcome => exact ⟨text, _, ends, fun _ => rfl, rfl, process⟩
  | writeAtomic path text =>
    cases h
    obtain ⟨ends, process⟩ := ends_writeAtomic path text w
    rw [run, Run.exec_bind]
    generalize (Files.writeAtomic path text).exec w = left at ends process ⊢
    rcases left with ⟨result, after⟩
    cases result with
    | error fault => exact ⟨text, _, ends, fun _ => rfl, rfl, process⟩
    | ok _ => exact ⟨text, _, ends, fun _ => rfl, rfl, process⟩
  | writeIfChanged path text =>
    cases h
    obtain ⟨ends, process⟩ := ends_writeIfChanged path text w
    rw [run, Run.exec_map]
    exact ⟨text, _, ends, fun _ => rfl, rfl, process⟩

theorem tree_eq_of_reads {operation : Operation} (h : operation.output? = none) (w : Workspace) :
    (operation.run.exec w).2.tree = w.tree ∧ (operation.run.exec w).2.process = w.process := by
  cases operation with
  | generate settings schema =>
    obtain ⟨journal, isLeft⟩ := Run.reads_generateFile settings schema w
    rw [run, Run.exec_map, isLeft]
    exact ⟨rfl, rfl⟩
  | validate settings schema =>
    obtain ⟨journal, isLeft⟩ := Run.reads_planFile settings schema w
    rw [run, Run.exec_map, isLeft]
    exact ⟨rfl, rfl⟩
  | check settings schema output =>
    have reads : Run.Reads (run (.check settings schema output)) _ :=
      (Run.reads_checkUpToDate settings schema output).bind
        fun _ => Run.reads_of (.ok Answer.upToDate)
    obtain ⟨journal, isLeft⟩ := reads w
    rw [isLeft]
    exact ⟨rfl, rfl⟩
  | generateToFile settings schema output => cases h
  | writeAtomic path text => cases h
  | writeIfChanged path text => cases h

end Operation

/-! ### What is kept -/

namespace Tree

variable {tree after : Tree} {path text temporary : String} {names : Names}

theorem KeptOrMade.of_eq {paths : List Path} {between : Tree} (made : Made paths tree between)
    (extended : after.Extends between) (same : after.get? names = between.get? names) :
    KeptOrMade paths tree after names := by
  rcases made.keptOrMade names with kept | ⟨missing, isDirectory, directory, isPath, leads⟩
  · exact .inl (same.trans kept)
  · exact .inr ⟨missing, same.trans isDirectory, directory, isPath, extended.place? leads⟩

/-- There is nothing in the place of the temporary file if no file has its name. -/
theorem get?_eq_none_of_free {mark : String} (noSlash : '/' ∉ mark.toList)
    (free : ¬ tree.HasFileNamed (temporaryName (Path.ofString path) mark))
    (isTarget : (tree.prepared path).target? (temporaryPath path mark) = some names)
    (notDirectory : (tree.prepared path).get? names ≠ some .directory) :
    (tree.prepared path).get? names = none := by
  cases found : (tree.prepared path).get? names with
  | none => rfl
  | some entry =>
    cases entry with
    | directory => exact absurd found notDirectory
    | file content =>
      have isFile := (tree.made_prepared path).get?_eq_file_iff.1 found
      exact absurd ⟨names, content, temporaryName_of_target? noSlash isTarget, isFile⟩ free

namespace Ends

theorem eq_of_unchanged (h : Ends tree temporary path text (.ok .unchanged) after) :
    after = tree := by
  cases h
  rfl

/-- Writing adds no file but the one that it is to write. -/
theorem hasFileNamed_or {outcome : Checked WriteOutcome} {name : String}
    (h : Ends tree temporary path text outcome after) (found : after.HasFileNamed name) :
    tree.HasFileNamed name ∨ (Path.ofString path).fileName? = some name := by
  obtain ⟨names, content, isName, isFile⟩ := found
  have before : (tree.prepared path).get? names = some (.file content) →
      tree.HasFileNamed name := fun isFile =>
    ⟨names, content, isName, (tree.made_prepared path).get?_eq_file_iff.1 isFile⟩
  cases h with
  | stopped => exact .inl ⟨names, content, isName, isFile⟩
  | unchanged => exact .inl ⟨names, content, isName, isFile⟩
  | failed stored =>
    rcases stored.get?_of_error names with same | ⟨-, -, none⟩
    · exact .inl (before (same ▸ isFile))
    · rw [none] at isFile
      cases isFile
  | written stored =>
    obtain ⟨old, target, -, isTarget, -, -, entries⟩ := stored.get?_of_ok
    rw [entries] at isFile
    split at isFile
    · rename_i same
      rw [fileName?_of_target? isTarget, ← same, isName]
      exact .inr rfl
    · split at isFile
      · cases isFile
      · exact .inl (before isFile)

/-- A failure makes directories at most. -/
theorem made_of_error {mark : String} {fault : Fault} (noSlash : '/' ∉ mark.toList)
    (free : ¬ tree.HasFileNamed (temporaryName (Path.ofString path) mark))
    (h : Ends tree (temporaryPath path mark) path text (.error fault) after) :
    Made (outerDirectories path) tree after := by
  cases h with
  | stopped => exact .refl _ tree
  | failed stored =>
    have made := tree.made_prepared path
    refine ⟨stored.toExtends.workingDirectory.trans made.workingDirectory, fun names => ?_⟩
    refine .of_eq made stored.toExtends ?_
    rcases stored.get?_of_error names with same | ⟨isTarget, notDirectory, none⟩
    · exact same
    · rw [none, get?_eq_none_of_free noSlash free isTarget notDirectory]

/-- A success stores the text. -/
theorem storedAt_of_written {mark : String} (noSlash : '/' ∉ mark.toList)
    (free : ¬ tree.HasFileNamed (temporaryName (Path.ofString path) mark))
    (h : Ends tree (temporaryPath path mark) path text (.ok .written) after) :
    StoredAt path text tree after := by
  cases h with
  | written stored =>
    obtain ⟨old, names, isOld, isTarget, notDirectory, -, entries⟩ := stored.get?_of_ok
    refine ⟨names, stored.toExtends.target? isTarget, by rw [entries, if_pos rfl], ?_⟩
    intro other ne
    refine .of_eq (tree.made_prepared path) stored.toExtends ?_
    rw [entries, if_neg ne]
    split
    · rename_i same
      rw [same, get?_eq_none_of_free noSlash free isOld notDirectory]
    · rfl

end Ends

end Tree

/-! ### Whole sessions -/

/-- Whether a step is what carrying its operation out gives. -/
def Step.IsRun (step : Step) : Prop :=
  step.operation.run.exec step.before = (step.result, step.after)

theorem Step.allOrNothing {step : Step} (isRun : step.IsRun) (free : step.Free) :
    step.AllOrNothing := by
  obtain ⟨operation, before, result, after⟩ := step
  simp only [Step.IsRun, Step.Free, Operation.temporary?] at isRun free
  cases isOutput : operation.output? with
  | none =>
    obtain ⟨kept, -⟩ := operation.tree_eq_of_reads isOutput before
    rw [isRun] at kept
    refine ⟨?_, fun _ => kept, fun _ => kept, ?_, ?_⟩
    · simp [Operation.temporary?, isOutput]
    · simp [isOutput]
    · simp [isOutput]
  | some path =>
    obtain ⟨text, outcome, ends, isText, isResult, -⟩ := operation.ends isOutput before
    rw [isRun] at ends isResult
    have noSlash := slash_notMem_toString before.process
    rw [isOutput] at free
    have free := free _ rfl
    refine ⟨?_, ?_, ?_, ?_, ?_⟩
    · intro name isName found
      simp only [Operation.temporary?, isOutput, Option.map_some, Option.mem_some_iff] at isName
      subst isName
      rcases ends.hasFileNamed_or found with there | same
      · exact free there
      · exact temporaryName_ne _ _ same
    · simp [isOutput]
    · intro isUnchanged
      dsimp only at isUnchanged isResult
      rw [isUnchanged] at isResult
      obtain ⟨o, rfl, isAnswer⟩ := Checked.map_eq_ok_iff.1 isResult.symm
      rw [Operation.answer_unchanged isAnswer] at ends
      exact ends.eq_of_unchanged
    · intro path' isPath fault isFault
      cases isOutput.symm.trans isPath
      dsimp only at isFault isResult
      rw [isFault] at isResult
      cases outcome with
      | ok o => cases isResult
      | error fault' => exact ends.made_of_error noSlash free
    · intro path' isPath isStored
      cases isOutput.symm.trans isPath
      dsimp only at isStored isResult
      have isOk : ∃ o, outcome = .ok o ∧
          (operation.answer o = .outcome .written ∨ operation.answer o = .stored) := by
        cases outcome with
        | error fault =>
          rw [isResult] at isStored
          rcases isStored with h | h <;> cases h
        | ok o =>
          rw [isResult] at isStored
          exact ⟨o, rfl, isStored.imp Except.ok.inj Except.ok.inj⟩
      obtain ⟨o, rfl, isAnswer⟩ := isOk
      rw [Operation.answer_written isAnswer] at ends isText
      exact ⟨text, isText rfl, ends.storedAt_of_written noSlash free⟩

theorem isRun_of_mem_session {w : Workspace} {operations : List Operation} :
    ∀ step ∈ session w operations, step.operation ∈ operations ∧ step.IsRun := by
  induction operations generalizing w with
  | nil => exact List.forall_mem_nil _
  | cons operation rest ih =>
    refine List.forall_mem_cons.2 ⟨⟨List.mem_cons_self, rfl⟩, fun step isStep => ?_⟩
    obtain ⟨isOperation, isRun⟩ := ih step isStep
    exact ⟨List.mem_cons_of_mem _ isOperation, isRun⟩

/-- What every operation keeps, a session keeps. -/
theorem invariant_of_session {P : Workspace → Prop} {operations : List Operation} {w : Workspace}
    (keeps : ∀ operation ∈ operations, ∀ w, P w → P (operation.run.exec w).2) (start : P w) :
    ∀ step ∈ session w operations, P step.before ∧ P step.after := by
  induction operations generalizing w with
  | nil => exact List.forall_mem_nil _
  | cons operation rest ih =>
    obtain ⟨first, others⟩ := List.forall_mem_cons.1 keeps
    exact List.forall_mem_cons.2 ⟨⟨start, first w start⟩, ih others (first w start)⟩

/-- The names of the temporary files of operations. -/
def temporaryNames (w : Workspace) (operations : List Operation) : List String :=
  operations.filterMap (·.temporary? w)

/-- The names of the files that operations write. -/
def fileNames (operations : List Operation) : List String :=
  operations.filterMap fun operation =>
    operation.output?.bind fun path => (Path.ofString path).fileName?

/-- Every step of a session is all or nothing where no file has the name of its temporary file
beforehand.  This is so at every step if it is so in the beginning and no file is written under such
a name. -/
theorem allOrNothing_of_session (w : Workspace) (operations : List Operation) :
    (∀ step ∈ session w operations, step.Free → step.AllOrNothing) ∧
      ((∀ name ∈ temporaryNames w operations,
          ¬ w.tree.HasFileNamed name ∧ name ∉ fileNames operations) →
        ∀ step ∈ session w operations, step.AllOrNothing ∧
          ∀ name ∈ temporaryNames w operations, ¬ step.after.tree.HasFileNamed name) := by
  refine ⟨fun step isStep => step.allOrNothing (isRun_of_mem_session step isStep).2, ?_⟩
  intro apart step isStep
  have keeps : ∀ operation ∈ operations, ∀ w', w'.process = w.process ∧
      (∀ name ∈ temporaryNames w operations, ¬ w'.tree.HasFileNamed name) →
      (operation.run.exec w').2.process = w.process ∧
        ∀ name ∈ temporaryNames w operations,
          ¬ (operation.run.exec w').2.tree.HasFileNamed name := by
    rintro operation isOperation w' ⟨process, free⟩
    cases isOutput : operation.output? with
    | none =>
      obtain ⟨kept, process'⟩ := operation.tree_eq_of_reads isOutput w'
      rw [kept, process']
      exact ⟨process, free⟩
    | some path =>
      obtain ⟨_, _, ends, -, -, process'⟩ := operation.ends isOutput w'
      refine ⟨process'.trans process, fun name isName found => ?_⟩
      rcases ends.hasFileNamed_or found with there | isFile
      · exact free name isName there
      · refine (apart name isName).2 (List.mem_filterMap.2 ⟨operation, isOperation, ?_⟩)
        rw [isOutput]
        exact isFile
  obtain ⟨⟨process, freeBefore⟩, -, freeAfter⟩ :=
    invariant_of_session keeps ⟨rfl, fun name isName => (apart name isName).1⟩ step isStep
  obtain ⟨isOperation, isRun⟩ := isRun_of_mem_session step isStep
  refine ⟨step.allOrNothing isRun fun name isName => freeBefore name ?_, freeAfter⟩
  refine List.mem_filterMap.2 ⟨step.operation, isOperation, ?_⟩
  rw [Operation.temporary?, process] at isName
  exact isName

/-- A workspace with a schema. -/
def schemaWorkspace : Workspace :=
  { tree := { entries := [(["s.json"], .file "\x7b\x7d".toUTF8)] } }

/-- A session in which a directory is made, and one operation fails, for there is nothing inside a
file. -/
def mixedSession : List Operation :=
  [.generateToFile {} "s.json" "out/a.ts", .writeAtomic "s.json/x" "text",
    .writeIfChanged "b" "text"]

theorem allOrNothing_of_mixedSession :
    ((session schemaWorkspace mixedSession).map fun step => step.result.toOption.isSome) =
        [true, false, true] ∧
      ∀ step ∈ session schemaWorkspace mixedSession, step.AllOrNothing ∧
        ∀ name ∈ [".a.ts.tmp-1", ".x.tmp-1", ".b.tmp-1"], ¬ step.after.tree.HasFileNamed name := by
  have names : temporaryNames schemaWorkspace mixedSession =
      [".a.ts.tmp-1", ".x.tmp-1", ".b.tmp-1"] := by decide +kernel
  have apart : ∀ name ∈ temporaryNames schemaWorkspace mixedSession,
      (name ∉ schemaWorkspace.tree.entries.filterMap fun entry => entry.1.getLast?) ∧
        name ∉ fileNames mixedSession := by decide +kernel
  refine ⟨by decide +kernel, ?_⟩
  rw [← names]
  exact (allOrNothing_of_session schemaWorkspace mixedSession).2 fun name isName =>
    ⟨fun found => (apart name isName).1 found.mem_entries, (apart name isName).2⟩

end Telemetry.Files
