import Idk.Git.Bridge
import Idk.Run.Encoding

/-!
# The Git ledger as JSON

How `serde` serializes `git-operations.json`.
-/

namespace Idk.Git

open Idk.Logic

def OperationKind.toJson : OperationKind → Json
  | .stage => .str "stage"
  | .unstage => .str "unstage"
  | .commit => .str "commit"
  | .createBranch => .str "create_branch"
  | .switchBranch => .str "switch_branch"
  | .fetch => .str "fetch"
  | .pullFastForward => .str "pull_fast_forward"
  | .push => .str "push"

def OperationState.toJson : OperationState → Json
  | .pending => .str "pending"
  | .running => .str "running"
  | .cancelling => .str "cancelling"
  | .complete => .str "complete"
  | .unknown => .str "unknown"

def GitOutcome.toJson : GitOutcome → Json
  | .succeeded => .str "succeeded"
  | .failed => .str "failed"
  | .cancelled => .str "cancelled"
  | .unknown => .str "unknown"
  | .changedAfterExecution => .str "changed_after_execution"

def repositoryJson (repository : Repository) : Json := .obj [
  ("root", repository.root.toJson),
  ("git_dir", repository.gitDir.toJson),
  ("common_dir", repository.commonDir.toJson)]

def GitRecord.toJson (record : GitRecord) : Json := .obj [
  ("id", .str record.id),
  ("context_id", .str record.contextId),
  ("project_id", .str record.projectId),
  ("repository", repositoryJson record.repository),
  ("kind", record.kind.toJson),
  ("state", record.state.toJson),
  ("cleanup_acknowledged", .bool record.cleanupAcknowledged),
  ("outcome", .optional record.outcome GitOutcome.toJson),
  ("exit_code", .optional record.exitCode .nat),
  ("commit", .optional record.commit .str),
  ("error", .optional record.error .str)]

def GitLedger.toJson (ledger : GitLedger) : Json := .obj [
  ("schema", .nat ledger.schema),
  ("operations", .list ledger.operations GitRecord.toJson)]

end Idk.Git
