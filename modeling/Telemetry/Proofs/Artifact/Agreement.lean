import Telemetry.Artifact.Generate
import Telemetry.Proofs.Artifact.RustReader
import Telemetry.Proofs.Artifact.TypeScriptReader

/-!
# Artifacts agree

The wire contract of a document can be read off the text of any of its artifacts, by a reader that
knows the settings and nothing of the document.  So all artifacts of a document agree, and documents
with different contracts have different artifacts.

* `Artifact.read?` is the reader of each target;
* `read?_of_render`: the artifact of a plan has the contract of the plan;
* `contract_of_generate`: the artifacts of a document have the contract of the document.
-/

namespace Telemetry

/-- The contract of an artifact that was generated under the settings. -/
def Artifact.read? (settings : Settings) (text : String) : Option WireContract :=
  match settings.target with
  | .typescript => TypeScript.read? settings text
  | .rust => Rust.read? text

/-- The artifact of a plan has the contract of the plan, whatever the target. -/
theorem Plan.read?_of_render {settings : Settings} {plan : Plan} (orderly : plan.Orderly)
    {text : String} (h : plan.render settings = .ok text) :
    Artifact.read? settings text = plan.contract? := by
  rw [Plan.render] at h
  rw [Artifact.read?]
  cases isTarget : settings.target with
  | typescript =>
    rw [isTarget] at h
    exact Artifact.TypeScript.read?_of_render orderly h
  | rust =>
    rw [isTarget] at h
    exact Artifact.Rust.read?_of_render orderly h

namespace Document

/-- An artifact of a document has the contract of the document. -/
theorem read?_of_generate {settings : Settings} {document : Document} {text : String}
    (h : document.generate settings = .ok text) :
    ∃ contract, document.contract? = some contract ∧
      Artifact.read? settings text = some contract := by
  rw [generate_eq] at h
  obtain ⟨plan, planned, rendered⟩ := Checked.bind_eq_ok_iff.1 h
  obtain ⟨contract, ofDocument, ofPlan⟩ := contract?_of_plan planned
  have readBack := Plan.read?_of_render (orderly_of_plan planned) rendered
  exact ⟨contract, ofDocument, readBack.trans ofPlan⟩

/-- The contract of a document is read off each of its artifacts, whatever their targets, and every
document that has one of them as its artifact has that contract. -/
theorem contract_of_generate {settings : Settings} {document : Document} {text : String}
    (h : document.generate settings = .ok text) :
    ∃ contract, document.contract? = some contract ∧
      Artifact.read? settings text = some contract ∧
      (∀ other artifact, document.generate other = .ok artifact →
        Artifact.read? other artifact = some contract) ∧
      ∀ another : Document, another.generate settings = .ok text →
        another.contract? = some contract := by
  obtain ⟨contract, ofDocument, readBack⟩ := read?_of_generate h
  refine ⟨contract, ofDocument, readBack, ?_, ?_⟩
  · intro other artifact generated
    obtain ⟨same, ofSame, readOther⟩ := read?_of_generate generated
    rw [ofDocument] at ofSame
    cases ofSame
    exact readOther
  · intro another generated
    obtain ⟨same, ofAnother, readSame⟩ := read?_of_generate generated
    rw [readBack] at readSame
    cases readSame
    exact ofAnother

/-- A document with quotes in a key, quotes, a backslash and line feeds in values, and code in a
description. -/
def quotingDocument : Document where
  metadata := [{ name := "re\"gion'", allowedValues := some ["e\\u\n", "\x7d", "us'"] }]
  metrics := [
    { name := "cache_hit", unit := "Count", description := some "*/ export enum A \x7b\n\x7d",
      metadata := [.reference "$re\"gion'", .inline { name := "size", kind := some "int" }] }]

theorem contract_of_quotingDocument :
    ∃ text, quotingDocument.generate { target := .rust } = .ok text ∧
      ∃ contract, quotingDocument.contract? = some contract ∧
        Artifact.read? { target := .rust } text = some contract ∧
        (∀ other artifact, quotingDocument.generate other = .ok artifact →
          Artifact.read? other artifact = some contract) ∧
        ∀ another : Document, another.generate { target := .rust } = .ok text →
          another.contract? = some contract := by
  have generated : (quotingDocument.generate { target := .rust }).toOption.isSome = true := by
    decide +kernel
  cases h : quotingDocument.generate { target := .rust } with
  | error fault =>
    rw [h] at generated
    cases generated
  | ok text => exact ⟨text, rfl, contract_of_generate h⟩

end Document

end Telemetry
