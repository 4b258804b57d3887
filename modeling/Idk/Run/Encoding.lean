import Idk.Logic.Json
import Idk.Run.Ledger

/-!
# Run records as JSON

How `serde` serializes the records of a run's history and the ledger that holds them.
-/

namespace Idk

open Idk.Logic

/-- The text of a path from its components. -/
def PathBuf.text : PathBuf → String
  | "/" :: rest => "/" ++ "/".intercalate rest
  | path => "/".intercalate path

def PathBuf.toJson (path : PathBuf) : Json := .str path.text

def identityJson (identity : Nat × Nat) : Json := .arr [.nat identity.1, .nat identity.2]

def RunState.toJson : RunState → Json
  | .preparing => .str "Preparing"
  | .running => .str "Running"
  | .cancelling => .str "Cancelling"
  | .succeeded => .str "Succeeded"
  | .failed => .str "Failed"
  | .cancelled => .str "Cancelled"
  | .unknown => .str "Unknown"

def LogState.toJson : LogState → Json
  | .disabled => .str "Disabled"
  | .recording => .str "Recording"
  | .complete => .str "Complete"
  | .limited => .str "Limited"
  | .writeFailed => .str "WriteFailed"
  | .expired => .str "Expired"
  | .partialLog => .str "Partial"

def LogDescriptor.toJson (log : LogDescriptor) : Json := .obj [
  ("run_id", .str log.runId),
  ("generation", .nat log.generation),
  ("state", log.state.toJson),
  ("bytes", .nat log.bytes),
  ("observed_bytes", .nat log.observedBytes),
  ("limit_bytes", .nat log.limitBytes),
  ("merged_pty", .bool log.mergedPty),
  ("file_identity", .optional log.fileIdentity identityJson)]

def StepResult.toJson (step : StepResult) : Json := .obj [
  ("index", .nat step.index),
  ("name", .str step.name),
  ("exit_code", .optional step.exitCode .num)]

def SourceObservation.toJson (source : SourceObservation) : Json := .obj [
  ("identity", .optional source.identity PathBuf.toJson),
  ("generation", .optional source.generation .nat),
  ("git_head", .optional source.gitHead .str),
  ("dirty", .optional source.dirty .bool),
  ("status_digest", .optional source.statusDigest .str),
  ("error", .optional source.error .str)]

def FileIdentity.toJson (identity : FileIdentity) : Json := .obj [
  ("device", .nat identity.device),
  ("inode", .nat identity.inode),
  ("size", .nat identity.size),
  ("mtime_seconds", .num identity.mtimeSeconds),
  ("mtime_nanos", .num identity.mtimeNanos),
  ("ctime_seconds", .num identity.ctimeSeconds),
  ("ctime_nanos", .num identity.ctimeNanos)]

def ArtifactSnapshot.toJson (snapshot : ArtifactSnapshot) : Json := .obj [
  ("path", snapshot.path.toJson),
  ("sha256", .str snapshot.sha256),
  ("size", .nat snapshot.size),
  ("identity", snapshot.identity.toJson)]

def ArtifactRelation.toJson (artifact : ArtifactRelation) : Json := .obj [
  ("path", .optional artifact.path PathBuf.toJson),
  ("from_task", .optional artifact.fromTask .str),
  ("from_run", .optional artifact.fromRun .str),
  ("verified_bytes", .bool artifact.verifiedBytes),
  ("snapshot", .optional artifact.snapshot ArtifactSnapshot.toJson),
  ("snapshot_error", .optional artifact.snapshotError .str),
  ("observed_at_ms", .optional artifact.observedAtMs .nat)]

def BodyReference.toJson (body : BodyReference) : Json := .obj [
  ("run_id", .str body.runId),
  ("sha256", .str body.sha256),
  ("bytes", .nat body.bytes)]

def ResultSummary.toJson (summary : ResultSummary) : Json := .obj [
  ("schema_id", .str summary.schemaId),
  ("schema_version", .nat summary.schemaVersion),
  ("producer", .str summary.producer),
  ("producer_version", .str summary.producerVersion),
  ("producer_run_id", .optional summary.producerRunId .str),
  ("findings_count", .nat summary.findingsCount),
  ("complete", .optional summary.complete .bool),
  ("selected_gate", .optional summary.selectedGate .str),
  ("workspace_gate", .optional summary.workspaceGate .str),
  ("scope_kind", .optional summary.scopeKind .str),
  ("identity_digest", .str summary.identityDigest),
  ("scope_digest", .str summary.scopeDigest)]

/-- `document` gives back the value whose text an inline result holds.  The body of an
    invalid result is left out when there is none. -/
def StructuredResult.toJson (document : String → Json) : StructuredResult → Json
  | .missing => .obj [("state", .str "missing")]
  | .invalid error none => .obj [("state", .str "invalid"), ("error", .str error)]
  | .invalid error (some body) =>
    .obj [("state", .str "invalid"), ("error", .str error), ("body", body.toJson)]
  | .unsupported schemaId schemaVersion body => .obj [
    ("state", .str "unsupported"),
    ("schema_id", .str schemaId),
    ("schema_version", .nat schemaVersion),
    ("body", .optional body BodyReference.toJson)]
  | .oversize limitBytes observedBytes => .obj [
    ("state", .str "oversize"),
    ("limit_bytes", .nat limitBytes),
    ("observed_bytes", .nat observedBytes)]
  | .limited limitBytes requiredBytes => .obj [
    ("state", .str "limited"),
    ("limit_bytes", .nat limitBytes),
    ("required_bytes", .nat requiredBytes)]
  | .storageFailed error => .obj [("state", .str "storage_failed"), ("error", .str error)]
  | .expired body => .obj [("state", .str "expired"), ("body", body.toJson)]
  | .tampered body error =>
    .obj [("state", .str "tampered"), ("body", body.toJson), ("error", .str error)]
  | .stored summary body =>
    .obj [("state", .str "stored"), ("summary", summary.toJson), ("body", body.toJson)]
  | .available idkRunId path sha256 schemaId schemaVersion producerVersion producerRunId text =>
    .obj [
      ("state", .str "available"),
      ("idk_run_id", .str idkRunId),
      ("path", path.toJson),
      ("sha256", .str sha256),
      ("schema_id", .str schemaId),
      ("schema_version", .nat schemaVersion),
      ("producer_version", .str producerVersion),
      ("producer_run_id", .optional producerRunId .str),
      ("document", document text)]

def EventState.toJson : EventState → Json
  | .missing => .str "missing"
  | .observed => .str "observed"
  | .partialStream => .str "partial"
  | .invalid => .str "invalid"
  | .oversize => .str "oversize"
  | .expired => .str "expired"
  | .tampered => .str "tampered"
  | .storageFailed => .str "storage_failed"

def ProgressEvent.toJson (event : ProgressEvent) : Json := .obj [
  ("seq", .nat event.seq),
  ("event_type", .str event.eventType),
  ("producer_run_id", .str event.producerRunId),
  ("task_id", .optional event.taskId .str),
  ("message", .str event.message)]

def EventProgress.toJson (progress : EventProgress) : Json := .obj [
  ("state", progress.state.toJson),
  ("bytes_observed", .nat progress.bytesObserved),
  ("events_observed", .nat progress.eventsObserved),
  ("invalid_events", .nat progress.invalidEvents),
  ("sequence_gaps", .nat progress.sequenceGaps),
  ("truncated_tail", .bool progress.truncatedTail),
  ("latest", .optional progress.latest ProgressEvent.toJson),
  ("error", .optional progress.error .str),
  ("body", .optional progress.body BodyReference.toJson)]

def RunInfo.toJson (document : String → Json) (run : RunInfo) : Json := .obj [
  ("run_id", .str run.runId),
  ("operation_id", .str run.operationId),
  ("project_id", .str run.projectId),
  ("task_id", .str run.taskId),
  ("name", .str run.name),
  ("session_id", .optional run.sessionId .str),
  ("state", run.state.toJson),
  ("definition_revision", .nat run.definitionRevision),
  ("launch_digest", .str run.launchDigest),
  ("initialization_digest", .str run.initializationDigest),
  ("cwd", run.cwd.toJson),
  ("source_roots", .list run.sourceRoots PathBuf.toJson),
  ("build_outputs", .list run.buildOutputs PathBuf.toJson),
  ("started_at_ms", .nat run.startedAtMs),
  ("finished_at_ms", .optional run.finishedAtMs .nat),
  ("timeout_seconds", .optional run.timeoutSeconds .nat),
  ("timeout_requested", .bool run.timeoutRequested),
  ("cancel_requested", .bool run.cancelRequested),
  ("cleanup_confirmed", .bool run.cleanupConfirmed),
  ("exit_code", .optional run.exitCode .nat),
  ("signal", .optional run.signal .str),
  ("steps", .list run.steps StepResult.toJson),
  ("structured_result", .optional run.structuredResult (·.toJson document)),
  ("pinned", .bool run.pinned),
  ("events", .optional run.events EventProgress.toJson),
  ("source_start", run.sourceStart.toJson),
  ("source_end", .optional run.sourceEnd SourceObservation.toJson),
  ("source_changed", .optional run.sourceChanged .bool),
  ("artifact", run.artifact.toJson),
  ("log", run.log.toJson),
  ("error", .optional run.error .str)]

def RetiredRun.toJson (retired : RetiredRun) : Json := .obj [
  ("run_id", .str retired.runId),
  ("result", .optional retired.result BodyReference.toJson),
  ("events", .optional retired.events BodyReference.toJson),
  ("log_identity", .optional retired.logIdentity identityJson),
  ("runtime_identity", .optional retired.runtimeIdentity identityJson)]

def RunLedger.toJson (document : String → Json) (ledger : RunLedger) : Json := .obj [
  ("schema", .nat ledger.schema),
  ("runs", .list ledger.runs (·.toJson document)),
  ("retired", .list ledger.retired RetiredRun.toJson)]

/-- The formats with the lengths that the serialized values have. -/
def Formats.json (isUuid : String → Bool) (document : String → Json) : Formats where
  isUuid := isUuid
  resultLength result := (result.toJson document).width
  eventsLength events := events.toJson.width

end Idk
