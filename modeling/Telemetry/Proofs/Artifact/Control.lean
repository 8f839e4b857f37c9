import Telemetry.Proofs.Artifact.CodeLines
import Telemetry.Proofs.Artifact.RustDeclared

/-!
# Control characters in artifacts

Text of a schema reaches an artifact as names, in literals and in comments.  Words hold no control
characters, literals escape them and comments have spaces in their place, so the only ones in an
artifact are the line feeds that end its lines.

* `TypeScript.plain_lines`, like `Rust.plain_lines`: no line of a plan holds a character that could
  end it;
* `onlyFeeds_of_generateText`: the only control characters in an artifact are line feeds, and the
  line and the paragraph separator do not occur in it.
-/

namespace Telemetry

namespace Artifact

/-- What could end a line of a text is a line feed, if it is in none of the lines. -/
theorem eq_feed_of_mem_joinLines {lines : List String} (h : Plain lines) {c : Char}
    (there : c ∈ (joinLines lines).toList) (breaks : Text.isLineBreaking c = true) : c = '\n' := by
  rw [toList_joinLines] at there
  obtain ⟨line, hline, hc⟩ := List.mem_flatMap.1 there
  rcases List.mem_append.1 hc with inner | last
  · rw [h line hline c inner] at breaks
    cases breaks
  · exact List.mem_singleton.1 last

namespace TypeScript

variable {settings : Settings} {plan : Plan}

theorem plain_functionComment {m : PlannedMetric} {types : List ConstrainedType}
    (orderly : m.Orderly types) : Plain (functionComment m) := by
  simp +decide only [functionComment_eq, plain_append, plain_cons, plain_nil,
    plain_commentBody orderly]

theorem plain_functionLines (sink : Text.Unbroken settings.sink.toList) {m : PlannedMetric}
    {types : List ConstrainedType} (orderly : m.Orderly types) :
    Plain (functionLines settings m) := by
  have body : Plain (call settings ++ argumentLines m) := by
    simp +decide only [call, plain_append, plain_cons, plain_nil, Text.unbroken_toList_append, sink,
      plain_argumentLines orderly]
  refine plain_append.2 ⟨plain_functionComment orderly, ?_⟩
  exact plain_enclosed.2 ⟨unbroken_signature orderly, body, by decide⟩

/-- The end of a line that is trimmed stays on the line. -/
theorem unbroken_trimEnd {line : String} (h : Text.Unbroken line.toList) :
    Text.Unbroken (Text.trimEnd line).toList := by
  rw [Text.trimEnd, String.toList_ofList]
  refine h.of_subset fun c there => ?_
  rw [Text.dropBlanksAtEnd, List.mem_reverse] at there
  exact List.mem_reverse.1 ((List.dropWhile_sublist _).mem there)

theorem plain_preamble (sinkImport : ∀ line ∈ settings.sinkImport, Text.Unbroken line.toList) :
    Plain (preamble settings) := by
  have heading : Plain header := by
    simp only [header, plain_cons, plain_nil, and_true]
    exact ⟨.ofList (by decide), .ofList (by decide), .ofList (by decide), .ofList (by decide)⟩
  refine plain_append.2 ⟨heading, ?_⟩
  cases isImport : settings.sinkImport with
  | none => exact plain_nil
  | some line =>
    exact plain_cons.2
      ⟨by decide, plain_cons.2 ⟨unbroken_trimEnd (sinkImport line isImport), plain_nil⟩⟩

/-- No line of a plan holds a character that could end it. -/
theorem plain_lines (sink : Text.Unbroken settings.sink.toList)
    (sinkImport : ∀ line ∈ settings.sinkImport, Text.Unbroken line.toList)
    (orderly : plan.Orderly) : Plain (lines settings plan) := by
  have blank : Plain [""] := plain_cons.2 ⟨by decide, plain_nil⟩
  have unions : Plain (plan.constrainedTypes.flatMap fun t => ["", unionLine t]) := by
    rw [plain_flatMap]
    exact fun t ht => plain_append.2
      ⟨blank, plain_cons.2 ⟨unbroken_unionLine (orderly.types t ht), plain_nil⟩⟩
  have metrics : Plain (plan.metrics.flatMap fun m =>
      ([""] ++ interfaceLines plan.constrainedTypes m) ++ ([""] ++ functionLines settings m)) := by
    rw [plain_flatMap]
    intro m hm
    have isOrderly := orderly.metrics m hm
    simp only [plain_append, blank, plain_interfaceLines orderly.types isOrderly,
      plain_functionLines sink isOrderly, and_self]
  simp only [lines_eq, declarationLines, plain_append, plain_preamble sinkImport, blank,
    plain_eventLines orderly, unions, metrics, and_self]

end TypeScript

end Artifact

/-- What could end a line of a plan's text is a line feed, if the settings bring nothing else. -/
theorem Plan.eq_feed_of_render {settings : Settings} {plan : Plan} (orderly : plan.Orderly)
    (sink : Text.Unbroken settings.sink.toList)
    (sinkImport : ∀ line ∈ settings.sinkImport, Text.Unbroken line.toList) {artifact : String}
    (h : plan.render settings = .ok artifact) {c : Char} (there : c ∈ artifact.toList)
    (breaks : Text.isLineBreaking c = true) : c = '\n' := by
  unfold Plan.render at h
  split at h
  · rw [(Artifact.TypeScript.render_eq_ok_iff.1 h).2] at there
    exact Artifact.eq_feed_of_mem_joinLines
      (Artifact.TypeScript.plain_lines sink sinkImport orderly) there breaks
  · rw [(Artifact.Rust.render_eq_ok_iff.1 h).2] at there
    exact Artifact.eq_feed_of_mem_joinLines (Artifact.Rust.plain_lines orderly) there breaks

/-- The only control characters in an artifact are line feeds, and the line and the paragraph
separator do not occur in it, unless the settings bring them. -/
theorem onlyFeeds_of_generateText {settings : Settings}
    (sink : ∀ c ∈ settings.sink.toList,
      Text.isControl c = false ∧ c ≠ '\u2028' ∧ c ≠ '\u2029')
    (sinkImport : ∀ line ∈ settings.sinkImport, ∀ c ∈ line.toList,
      Text.isControl c = false ∧ c ≠ '\u2028' ∧ c ≠ '\u2029')
    {text artifact : String} (h : generateText settings text = .ok artifact) :
    ∀ c ∈ artifact.toList,
      (Text.isControl c = true → c = '\n') ∧ c ≠ '\u2028' ∧ c ≠ '\u2029' := by
  rw [generateText, Checked.bind_eq_ok_iff] at h
  obtain ⟨document, -, generated⟩ := h
  rw [Document.generate_eq, Checked.bind_eq_ok_iff] at generated
  obtain ⟨plan, planned, rendered⟩ := generated
  intro c there
  have feed : Text.isLineBreaking c = true → c = '\n' :=
    Plan.eq_feed_of_render (Document.orderly_of_plan planned) (Text.unbroken_iff.2 sink)
      (fun line isImport => Text.unbroken_iff.2 (sinkImport line isImport)) rendered there
  refine ⟨fun control => feed ?_, ?_, ?_⟩
  · rw [Text.isLineBreaking, control]
    rfl
  · rintro rfl
    exact absurd (feed (by decide)) (by decide)
  · rintro rfl
    exact absurd (feed (by decide)) (by decide)

/-- A schema with control characters and separators in a name, in values and in a description. -/
def controlText : String :=
  "\x7b\"metadata\":[\x7b\"name\":\"a\\u2028b\","
    ++ "\"allowedValues\":[\"\\u0000\",\"\\r\\n\\u009f\"]\x7d],"
    ++ "\"metrics\":[\x7b\"name\":\"hit\",\"unit\":\"Count\","
    ++ "\"description\":\"\\u0007\\u2029*/\",\"metadata\":[\"$a\\u2028b\"]\x7d]\x7d"

theorem onlyFeeds_of_controlText :
    ∃ artifact, generateText {} controlText = .ok artifact ∧
      ∀ c ∈ artifact.toList,
        (Text.isControl c = true → c = '\n') ∧ c ≠ '\u2028' ∧ c ≠ '\u2029' := by
  have sink : Text.Unbroken defaultSink.toList := by decide
  have sinkImport : ∀ line ∈ some defaultSinkImport, Text.Unbroken line.toList := by
    intro line isImport
    cases isImport
    decide
  have generated : (generateText {} controlText).toOption.isSome = true := by decide +kernel
  cases h : generateText {} controlText with
  | error fault =>
    rw [h] at generated
    cases generated
  | ok artifact =>
    exact ⟨artifact, rfl, onlyFeeds_of_generateText (Text.unbroken_iff.1 sink)
      (fun line isImport => Text.unbroken_iff.1 (sinkImport line isImport)) h⟩

end Telemetry
