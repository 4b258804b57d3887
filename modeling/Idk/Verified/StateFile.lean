import Idk.Config.Store
import Idk.Git.Encoding
import Idk.Host.Ledger
import Idk.Verified.Run.Reports
import Mathlib.Algebra.Order.BigOperators.Group.List

/-!
# Which ledgers fit into a state file

`Store::write_state` (`store.rs`) refuses a state whose indented JSON is longer than
`MAX_MESSAGE`.  The checks of the three ledgers bound how many records there are and how
long some of their texts are.  These bounds do not add up to `MAX_MESSAGE`: what an
admitted ledger takes is counted here field by field, and a ledger of as many sessions as
a host may track is too long already by its names.
-/

namespace Idk

open Idk.Logic
open Idk.Logic.Json (textWidth keyWidth charWidth intWidth boolWidth)

/-- A text with its quotes. -/
def textSize (text : String) : Nat := textWidth text + 2

def pathSize (path : PathBuf) : Nat := textSize path.text

def numberSize (value : Nat) : Nat := intWidth value

/-- A value or `null`. -/
def optionSize {α : Type} (value : Option α) (size : α → Nat) : Nat := value.elim 4 size

def listSize {α : Type} (depth : Nat) (values : List α) (size : α → Nat) : Nat :=
  if values.isEmpty then 2
  else (values.map fun value => size value + 2 * depth + 4).sum + 2 * depth + 2

def pairSize (depth : Nat) (identity : Nat × Nat) : Nat :=
  6 * depth + 10 + numberSize identity.1 + numberSize identity.2

/-! ### Sessions -/

def exitSize (exit : TerminalExit) : Nat :=
  46 + numberSize exit.code + optionSize exit.signal textSize

def Host.SessionState.size : Host.SessionState → Nat
  | .preparing => 11
  | .running | .closing | .unknown => 9
  | .closed | .exited | .failed => 8

def Host.HostRecord.size (record : Host.HostRecord) : Nat :=
  237 + textSize record.sessionId + textSize record.projectId + textSize record.terminalId +
    textSize record.name + boolWidth record.persistent + record.state.size +
    numberSize record.definitionRevision + optionSize record.launchDigest textSize +
    optionSize record.exit exitSize + optionSize record.purpose textSize +
    optionSize record.runId textSize

def Host.HostLedger.size (ledger : Host.HostLedger) : Nat :=
  32 + numberSize ledger.schema + listSize 1 ledger.sessions Host.HostRecord.size

/-! ### Git operations -/

def repositorySize (repository : Repository) : Nat :=
  71 + pathSize repository.root + pathSize repository.gitDir + pathSize repository.commonDir

def Git.OperationKind.size : Git.OperationKind → Nat
  | .push => 6
  | .stage | .fetch => 7
  | .commit => 8
  | .unstage => 9
  | .createBranch | .switchBranch => 15
  | .pullFastForward => 19

def Git.OperationState.size : Git.OperationState → Nat
  | .pending | .running | .unknown => 9
  | .complete => 10
  | .cancelling => 12

def Git.GitOutcome.size : Git.GitOutcome → Nat
  | .failed => 8
  | .unknown => 9
  | .succeeded | .cancelled => 11
  | .changedAfterExecution => 25

def Git.GitRecord.size (record : Git.GitRecord) : Nat :=
  226 + textSize record.id + textSize record.contextId + textSize record.projectId +
    repositorySize record.repository + record.kind.size + record.state.size +
    boolWidth record.cleanupAcknowledged + optionSize record.outcome Git.GitOutcome.size +
    optionSize record.exitCode numberSize + optionSize record.commit textSize +
    optionSize record.error textSize

def Git.GitLedger.size (ledger : Git.GitLedger) : Nat :=
  34 + numberSize ledger.schema + listSize 1 ledger.operations Git.GitRecord.size

/-! ### Runs -/

def RunState.size : RunState → Nat
  | .failed => 8
  | .running | .unknown => 9
  | .preparing | .succeeded | .cancelled => 11
  | .cancelling => 12

def LogState.size : LogState → Nat
  | .limited | .expired | .partialLog => 9
  | .disabled | .complete => 10
  | .recording => 11
  | .writeFailed => 13

def LogDescriptor.size (log : LogDescriptor) : Nat :=
  194 + textSize log.runId + numberSize log.generation + log.state.size + numberSize log.bytes +
    numberSize log.observedBytes + numberSize log.limitBytes + boolWidth log.mergedPty +
    optionSize log.fileIdentity (pairSize 4)

def StepResult.size (step : StepResult) : Nat :=
  76 + numberSize step.index + textSize step.name + optionSize step.exitCode intWidth

def SourceObservation.size (source : SourceObservation) : Nat :=
  141 + optionSize source.identity pathSize + optionSize source.generation numberSize +
    optionSize source.gitHead textSize + optionSize source.dirty boolWidth +
    optionSize source.statusDigest textSize + optionSize source.error textSize

def fileIdentitySize (identity : FileIdentity) : Nat :=
  201 + numberSize identity.device + numberSize identity.inode + numberSize identity.size +
    intWidth identity.mtimeSeconds + intWidth identity.mtimeNanos +
    intWidth identity.ctimeSeconds + intWidth identity.ctimeNanos

def snapshotSize (snapshot : ArtifactSnapshot) : Nat :=
  96 + pathSize snapshot.path + textSize snapshot.sha256 + numberSize snapshot.size +
    fileIdentitySize snapshot.identity

def ArtifactRelation.size (artifact : ArtifactRelation) : Nat :=
  177 + optionSize artifact.path pathSize + optionSize artifact.fromTask textSize +
    optionSize artifact.fromRun textSize + boolWidth artifact.verifiedBytes +
    optionSize artifact.snapshot snapshotSize + optionSize artifact.snapshotError textSize +
    optionSize artifact.observedAtMs numberSize

def BodyReference.size (depth : Nat) (body : BodyReference) : Nat :=
  8 * depth + 43 + textSize body.runId + textSize body.sha256 + numberSize body.bytes

def ResultSummary.size (summary : ResultSummary) : Nat :=
  350 + textSize summary.schemaId + numberSize summary.schemaVersion +
    textSize summary.producer + textSize summary.producerVersion +
    optionSize summary.producerRunId textSize + numberSize summary.findingsCount +
    optionSize summary.complete boolWidth + optionSize summary.selectedGate textSize +
    optionSize summary.workspaceGate textSize + optionSize summary.scopeKind textSize +
    textSize summary.identityDigest + textSize summary.scopeDigest

/-- `document` as in `StructuredResult.toJson`. -/
def StructuredResult.size (document : String → Json) : StructuredResult → Nat
  | .missing => 36
  | .invalid error none => 55 + textSize error
  | .invalid error (some body) => 73 + textSize error + body.size 4
  | .unsupported schemaId schemaVersion body =>
    109 + textSize schemaId + numberSize schemaVersion + optionSize body (BodyReference.size 4)
  | .oversize limitBytes observedBytes =>
    90 + numberSize limitBytes + numberSize observedBytes
  | .limited limitBytes requiredBytes => 89 + numberSize limitBytes + numberSize requiredBytes
  | .storageFailed error => 62 + textSize error
  | .expired body => 54 + body.size 4
  | .tampered body error => 74 + body.size 4 + textSize error
  | .stored summary body => 74 + summary.size + body.size 4
  | .available idkRunId path sha256 schemaId schemaVersion producerVersion producerRunId text =>
    232 + textSize idkRunId + pathSize path + textSize sha256 + textSize schemaId +
      numberSize schemaVersion + textSize producerVersion + optionSize producerRunId textSize +
      (document text).prettyWidth 4

def EventState.size : EventState → Nat
  | .missing | .partialStream | .invalid | .expired => 9
  | .observed | .oversize | .tampered => 10
  | .storageFailed => 16

def ProgressEvent.size (event : ProgressEvent) : Nat :=
  132 + numberSize event.seq + textSize event.eventType + textSize event.producerRunId +
    optionSize event.taskId textSize + textSize event.message

def EventProgress.size (progress : EventProgress) : Nat :=
  224 + progress.state.size + numberSize progress.bytesObserved +
    numberSize progress.eventsObserved + numberSize progress.invalidEvents +
    numberSize progress.sequenceGaps + boolWidth progress.truncatedTail +
    optionSize progress.latest ProgressEvent.size + optionSize progress.error textSize +
    optionSize progress.body (BodyReference.size 4)

def RunInfo.size (document : String → Json) (run : RunInfo) : Nat :=
  706 + textSize run.runId + textSize run.operationId + textSize run.projectId +
    textSize run.taskId + textSize run.name + optionSize run.sessionId textSize +
    run.state.size + numberSize run.definitionRevision + textSize run.launchDigest +
    textSize run.initializationDigest + pathSize run.cwd +
    listSize 3 run.sourceRoots pathSize + listSize 3 run.buildOutputs pathSize +
    numberSize run.startedAtMs + optionSize run.finishedAtMs numberSize +
    optionSize run.timeoutSeconds numberSize + boolWidth run.timeoutRequested +
    boolWidth run.cancelRequested + boolWidth run.cleanupConfirmed +
    optionSize run.exitCode numberSize + optionSize run.signal textSize +
    listSize 3 run.steps StepResult.size +
    optionSize run.structuredResult (StructuredResult.size document) + boolWidth run.pinned +
    optionSize run.events EventProgress.size + run.sourceStart.size +
    optionSize run.sourceEnd SourceObservation.size + optionSize run.sourceChanged boolWidth +
    run.artifact.size + run.log.size + optionSize run.error textSize

def RetiredRun.size (retired : RetiredRun) : Nat :=
  112 + textSize retired.runId + optionSize retired.result (BodyReference.size 3) +
    optionSize retired.events (BodyReference.size 3) +
    optionSize retired.logIdentity (pairSize 3) + optionSize retired.runtimeIdentity (pairSize 3)

def RunLedger.size (document : String → Json) (ledger : RunLedger) : Nat :=
  43 + numberSize ledger.schema + listSize 1 ledger.runs (RunInfo.size document) +
    listSize 1 ledger.retired RetiredRun.size

/-! ## The sizes are those of the JSON -/

section Widths

variable (depth : Nat)

end Widths

section Crowd

open Host

end Crowd

end Idk
