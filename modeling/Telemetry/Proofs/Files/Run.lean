import Telemetry.Files.Workspace
import Telemetry.Proofs.Checked

/-!
# Runs that only read

A run over a workspace gives a result and leaves a workspace behind.  `Run.Reads` says that the
result is determined by the tree of files and that nothing but the journal is changed.  It holds of
everything that generates, validates and compares: `Run.reads_generateFile`, `Run.reads_planFile`,
`Run.reads_readExisting` and `Run.reads_checkUpToDate`.
-/

namespace Telemetry.Files

/-- Bytes are read as a text exactly if they are its encoding. -/
theorem fromUTF8?_eq_some_iff {content : ByteArray} {text : String} :
    String.fromUTF8? content = some text ↔ content = text.toUTF8 := by
  rw [String.fromUTF8?]
  constructor
  · intro h
    split at h
    · cases h
      rfl
    · cases h
  · rintro rfl
    rw [dif_pos (show text.toUTF8.IsValidUTF8 from text.isValidUTF8)]
    rfl

namespace Tree

/-- The text of a file. -/
def text (tree : Tree) (path : String) : Except FileFault String :=
  match tree.read path with
  | .error fault => .error fault
  | .ok content =>
    match String.fromUTF8? content with
    | some text => .ok text
    | none => .error .notText

/-- The document of the schema in a file. -/
def document (tree : Tree) (schema : String) : Checked Document := do
  let text ← (tree.text schema).mapError (.read schema)
  Document.load text

/-- The artifact of the schema in a file. -/
def artifact (tree : Tree) (settings : Settings) (schema : String) : Checked String := do
  let document ← tree.document schema
  document.generate settings

/-- The text of a file, if the file is there. -/
def existing (tree : Tree) (path : String) : Checked (Option String) :=
  match tree.text path with
  | .ok text => .ok (some text)
  | .error .missing => .ok none
  | .error fault => .error (.read path fault)

theorem text_eq_ok_iff {tree : Tree} {path text : String} :
    tree.text path = .ok text ↔ tree.read path = .ok text.toUTF8 := by
  rw [Tree.text]
  cases tree.read path with
  | error fault => simp
  | ok content =>
    rw [Except.ok.injEq, ← fromUTF8?_eq_some_iff]
    dsimp only
    cases String.fromUTF8? content <;> simp

theorem existing_eq_some_iff {tree : Tree} {path text : String} :
    tree.existing path = .ok (some text) ↔ tree.read path = .ok text.toUTF8 := by
  rw [← text_eq_ok_iff, existing]
  split
  · rename_i isText
    simp [isText]
  · rename_i isMissing
    simp [isMissing]
  · rename_i isFault
    simp [isFault]

end Tree

/-! ### Steps over a workspace -/

theorem bind_apply {α β : Type} (x : StateM Workspace α) (f : α → StateM Workspace β)
    (w : Workspace) : (x >>= f) w = f (x w).1 (x w).2 := rfl

theorem readText_apply (path : String) (w : Workspace) :
    (readText path : StateM Workspace (Except FileFault String)) w = (w.tree.text path, w) := by
  rw [readText, bind_apply]
  show (match w.tree.read path with
    | .error fault => _
    | .ok content => _ : StateM Workspace (Except FileFault String)) w = _
  rw [Tree.text]
  cases w.tree.read path with
  | error fault => rfl
  | ok content =>
    dsimp only
    cases String.fromUTF8? content <;> rfl

namespace Run

variable {α β : Type}

/-- What a run over a workspace gives and leaves behind. -/
def exec (run : Run (StateM Workspace) α) (w : Workspace) : Checked α × Workspace :=
  run.run w

theorem exec_mk (x : StateM Workspace (Checked α)) (w : Workspace) :
    exec (ExceptT.mk x) w = x w := rfl

theorem exec_bind (run : Run (StateM Workspace) α) (next : α → Run (StateM Workspace) β)
    (w : Workspace) :
    (run >>= next).exec w =
      match run.exec w with
      | (.ok a, w') => (next a).exec w'
      | (.error fault, w') => (.error fault, w') := by
  show (match run.run w with
    | (result, w') => (ExceptT.bindCont next result : StateM Workspace (Checked β)) w') = _
  rw [exec]
  rcases run.run w with ⟨result, w'⟩
  cases result <;> rfl

theorem exec_map (f : α → β) (run : Run (StateM Workspace) α) (w : Workspace) :
    (f <$> run).exec w = (f <$> (run.exec w).1, (run.exec w).2) := by
  rw [← bind_pure_comp, exec_bind]
  rcases run.exec w with ⟨result, w'⟩
  cases result <;> rfl

/-- Whether a run gives what the tree says and changes nothing but the journal. -/
def Reads (run : Run (StateM Workspace) α) (result : Tree → Checked α) : Prop :=
  ∀ w : Workspace, ∃ journal, run.exec w = (result w.tree, { w with journal })

theorem reads_of (result : Checked α) : Reads (.of result) fun _ => result :=
  fun w => ⟨w.journal, rfl⟩

theorem reads_note (event : Event) : Reads (.note event) fun _ => .ok () :=
  fun w => ⟨w.journal ++ [event], rfl⟩

theorem Reads.bind {run : Run (StateM Workspace) α} {next : α → Run (StateM Workspace) β}
    {result : Tree → Checked α} {results : α → Tree → Checked β} (h : Reads run result)
    (nexts : ∀ a, Reads (next a) (results a)) :
    Reads (run >>= next) fun tree => result tree >>= fun a => results a tree := by
  intro w
  obtain ⟨journal, first⟩ := h w
  rw [exec_bind, first]
  dsimp only
  cases result w.tree with
  | error fault => exact ⟨journal, rfl⟩
  | ok a =>
    obtain ⟨journal', second⟩ := nexts a { w with journal }
    exact ⟨journal', second⟩

theorem reads_notes (events : List Event) :
    Reads (events.forM Run.note) fun _ => .ok () := by
  induction events with
  | nil => exact reads_of (.ok ())
  | cons event rest ih => exact (reads_note event).bind fun _ => ih

theorem reads_ofTraced (traced : Traced α) : Reads (.ofTraced traced) fun _ => traced.result :=
  (reads_notes traced.events).bind fun _ => reads_of traced.result

theorem reads_readExisting (path : String) : Reads (readExisting path) (·.existing path) := by
  intro w
  refine ⟨w.journal, ?_⟩
  rw [readExisting, exec_mk, bind_apply, readText_apply]
  dsimp only [Tree.existing]
  cases w.tree.text path with
  | ok text => rfl
  | error fault => cases fault <;> rfl

theorem reads_loadFile (schema : String) : Reads (loadFile schema) (·.document schema) := by
  rw [loadFile]
  refine Reads.bind (show Reads _ fun tree => (tree.text schema).mapError (.read schema) from ?_)
    fun text => (reads_note (.schemaRead schema text.utf8ByteSize)).bind fun _ =>
      reads_of (Document.load text)
  intro w
  refine ⟨w.journal, ?_⟩
  rw [exec_mk, bind_apply, readText_apply]
  dsimp only
  cases w.tree.text schema <;> rfl

theorem reads_generateFile (settings : Settings) (schema : String) :
    Reads (generateFile settings schema) (·.artifact settings schema) :=
  (reads_loadFile schema).bind fun document => reads_ofTraced (document.generateTraced settings)

theorem reads_planFile (settings : Settings) (schema : String) :
    Reads (planFile settings schema) fun tree =>
      tree.document schema >>= fun document => document.plan settings :=
  (reads_loadFile schema).bind fun document => reads_ofTraced (document.planTraced settings)

theorem reads_checkUpToDate (settings : Settings) (schema output : String) :
    Reads (checkUpToDate settings schema output) fun tree =>
      tree.artifact settings schema >>= fun text => tree.existing output >>= fun held =>
        if held ≠ some text then .error (.outOfDate output) else .ok () := by
  refine (reads_generateFile settings schema).bind fun text =>
    (reads_readExisting output).bind fun held => ?_
  split
  · exact reads_of _
  · exact reads_of _

end Run

end Telemetry.Files
