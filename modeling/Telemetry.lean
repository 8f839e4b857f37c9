import Telemetry.Json.Progress
import Telemetry.Main
import Telemetry.Proofs.Json.Grammar
import Telemetry.Proofs.Json.Literals
import Telemetry.Proofs.Json.Tokens
import Telemetry.Proofs.Json.Members
import Telemetry.Proofs.Json.Acceptance
import Telemetry.Proofs.Json.Damage
import Telemetry.Proofs.Json.Report
import Telemetry.Proofs.Json.Repair
import Telemetry.Proofs.Json.Recovery
import Telemetry.Proofs.Json.Phrase
import Telemetry.Proofs.Json.Flaws
import Telemetry.Proofs.Checked
import Telemetry.Proofs.Metadata.Pool
import Telemetry.Proofs.Schema.Record
import Telemetry.Proofs.Schema.Loading
import Telemetry.Proofs.Metric.Name
import Telemetry.Proofs.Identifier.Scope
import Telemetry.Proofs.Identifier.Forms
import Telemetry.Proofs.Identifier.Letters
import Telemetry.Proofs.Plan.Table
import Telemetry.Proofs.Plan.Fields
import Telemetry.Proofs.Plan.Metrics
import Telemetry.Proofs.Metric.Reference
import Telemetry.Proofs.Metric.Resolution
import Telemetry.Proofs.Plan.Acceptance
import Telemetry.Proofs.Plan.Faithful
import Telemetry.Proofs.Plan.Referenced
import Telemetry.Proofs.Plan.Undescribed
import Telemetry.Proofs.Plan.Interning
import Telemetry.Proofs.Plan.Growth
import Telemetry.Proofs.Artifact.Literal
import Telemetry.Proofs.Artifact.Denotation
import Telemetry.Proofs.Artifact.Outline
import Telemetry.Proofs.Plan.Contract
import Telemetry.Proofs.Artifact.Declarations
import Telemetry.Proofs.Artifact.Names
import Telemetry.Proofs.Artifact.TypeScriptReader
import Telemetry.Proofs.Artifact.RustReader
import Telemetry.Proofs.Artifact.Agreement
import Telemetry.Proofs.Artifact.Declared
import Telemetry.Proofs.Artifact.RustDeclared
import Telemetry.Proofs.Artifact.TypeScriptDeclared
import Telemetry.Proofs.Artifact.WellNamed
import Telemetry.Proofs.Artifact.CodeLines
import Telemetry.Proofs.Artifact.Control
import Telemetry.Proofs.Lookup
import Telemetry.Proofs.Files.Path
import Telemetry.Proofs.Files.Tree
import Telemetry.Proofs.Files.Run
import Telemetry.Proofs.Files.Write
import Telemetry.Proofs.Files.Session
import Telemetry.Proofs.Files.UpToDate
import Telemetry.Proofs.Json.Writing
import Telemetry.Proofs.Schema.Fields
import Telemetry.Proofs.Schema.Writing
import Telemetry.Proofs.Text.Trim
import Telemetry.Proofs.Schema.Respelling
import Telemetry.Proofs.Schema.Gist
import Telemetry.Proofs.Plan.Gist
import Telemetry.Proofs.Artifact.Spelling
import Telemetry.Proofs.Text.ByteOrder
import Telemetry.Proofs.Text.LetterCase
import Telemetry.Proofs.Metadata.Lookup
import Telemetry.Proofs.Identifier.History
import Telemetry.Proofs.Metric.Order
import Telemetry.Proofs.Plan.Precedence
import Telemetry.Proofs.Schema.FirstFault
import Telemetry.Proofs.Files.Beside
import Telemetry.Proofs.Files.Stale
import Telemetry.Proofs.Json.Walk
import Telemetry.Proofs.Json.Advance
import Telemetry.Proofs.Json.Places
import Telemetry.Proofs.Json.Diagnostics
import Telemetry.Proofs.Json.Numerals
import Telemetry.Proofs.Json.Quoted
