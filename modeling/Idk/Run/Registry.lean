import Idk.Gate.SourceGate
import Idk.Logic.Procedure
import Idk.Run.Ledger

/-!
# The run registry: its state and its durable ledger

`run.rs`.  What the registry asks of the file system, the clock, Git and the
output threads is answered by the environment; one `Answers` value is what it
would say at one moment.  `durable` lists what each successful `write_state`
stored, newest first, so that its head is the ledger on disk and its tails are
the disks of earlier moments.
-/

namespace Idk

open Idk.Logic (Procedure)
open Idk.Logic.Procedure (current update answer fail attempt iterate)

/-- `HISTORY_LIMIT`. -/
def historyLimit : Nat := runRecordLimit

/-- `RETENTION_MS`. -/
def retentionMs : Nat := 30 * 24 * 60 * 60 * 1000

/-- Length and identity of an open log file. -/
structure LogMetadata where
  identity : Nat × Nat
  length : Nat

/-- A stored project, as far as the registry reads it. -/
structure ProjectBinding where
  repositoryBinding : Option Repository
  relatedRepositories : List Repository

structure Answers where
  now : Nat
  newId : String
  /-- `write_state`. -/
  write : Result Unit
  /-- `read_state`: whether the file can be read. -/
  read : Result Unit
  load : Result (List ProjectBinding)
  /-- `FileLock::acquire_shared` of `run-use.lock`. -/
  runUse : Result Unit
  /-- `TaskService::launch_plan`: a plan is one of the requested task. -/
  launchPlan : (projectId taskId : String) → BTreeMap String →
    Result { plan : TaskLaunchPlan // plan.projectId = projectId ∧ plan.task.id = taskId }
  outputIdentity : PathBuf → Result PathBuf
  verify : Repository → Result Unit
  createDirectory : String → Result Unit
  /-- The text of a run's runtime directory. -/
  directory : String → String
  createSteps : TaskLaunchPlan → Result ShellPlan
  /-- `RunOutputSink::new` followed by `descriptor`. -/
  openSink : LogDescriptor → Result LogDescriptor
  /-- `descriptor` of the sink of an active run. -/
  sink : String → LogDescriptor
  /-- `log_file`, then `metadata` of the file it opened. -/
  logFile : String → Result (Result LogMetadata)
  readSteps : String → List TaskStep → List StepResult
  /-- The runtime directory's identity, if there is a directory. -/
  runtimeDirectory : String → Result (Option (Nat × Nat))
  removeBody : BodyReference → Bool → Result Unit
  removeLog : RetiredRun → Result Unit
  removeDirectory : RetiredRun → Result Unit
  capture : String → StructuredResult
  captureEvents : String → Option String → EventProgress
  measurement : String → Option ArtifactMeasurement
  verifyResult : StructuredResult → StructuredResult
  retainedEvents : EventProgress → EventProgress
  /-- Everything `open` does with directories and the old backup. -/
  prepareStore : Result Unit
  migrate : String → StructuredResult → StructuredResult

structure Active where
  plan : TaskLaunchPlan
  shell : ShellPlan
  lease : Option GateLease
  runUse : Bool
  finishing : Bool
  resultSnapshot : Option StructuredResult
  eventsSnapshot : Option EventProgress

structure PendingStart where
  runId : String
  projectId : String
  taskId : String
  operationId : String
  buildOutputs : List PathBuf

/-- A reserved start; whoever has the ticket holds the run-use lock with it. -/
structure BeginTicket where
  runId : String
  plan : TaskLaunchPlan
  operationId : String
  outputs : List PathBuf
  lease : Option GateLease

def BeginTicket.probeIdentity (ticket : BeginTicket) : Option PathBuf :=
  ticket.plan.repository.map (·.identity)

inductive BeginReservation where
  | existing (reply : RunStartReply)
  | fresh (ticket : BeginTicket)

structure RunRegistry where
  gate : SourceGate
  runs : List RunInfo
  retired : List RetiredRun
  active : BTreeMap Active
  pendingStarts : List PendingStart
  durable : List RunLedger

abbrev Op (α : Type) := Procedure String Answers RunRegistry α

/-- `error.context(message)`. -/
def withContext {α : Type} (value : Result α) (message : String) : Result α :=
  value.mapError fun _ => message

/-- Replaces the first element that satisfies `test`, as `iter_mut().find(..)` does. -/
def updateFirst {α : Type} (test : α → Bool) (change : α → α) : List α → List α
  | [] => []
  | head :: rest => if test head then change head :: rest else head :: updateFirst test change rest

namespace RunRegistry

/-! ## Reading -/

def find (registry : RunRegistry) (runId : String) : Option RunInfo :=
  registry.runs.find? (·.runId == runId)

/-- The last part of `info`: what the log file says about the recorded descriptor. -/
def observeLog (answers : Answers) (registry : RunRegistry) (runId : String) (run : RunInfo) :
    Result RunInfo :=
  if run.log.state = .disabled then
    .ok run
  else
    match answers.logFile runId with
    | .error _ => .ok { run with log.state := .expired }
    | .ok (.error error) => .error error
    | .ok (.ok metadata) =>
      if run.log.fileIdentity ≠ some metadata.identity then
        .ok { run with
          log.state := .expired
          log.generation := saturatingAdd run.log.generation 1 }
      else if metadata.length < run.log.bytes then
        .ok { run with
          log.state := .partialLog
          log.bytes := metadata.length
          log.generation := saturatingAdd run.log.generation 1 }
      else if !registry.active.contains runId then
        .ok { run with
          log.state := if metadata.length ≠ run.log.bytes then .partialLog else run.log.state
          log.bytes := min metadata.length logByteLimit }
      else
        .ok run

def info (answers : Answers) (registry : RunRegistry) (runId : String) : Result RunInfo := do
  let run ← context (registry.find runId) "run not found or retention expired"
  match registry.active[runId]? with
  | none => registry.observeLog answers runId run
  | some active =>
    let run := { run with log := answers.sink runId }
    if active.plan.task.execution.isNone then
      registry.observeLog answers runId
        { run with steps := answers.readSteps runId active.plan.task.allSteps }
    else
      registry.observeLog answers runId run

/-- `list(None)`. -/
def list (answers : Answers) (registry : RunRegistry) : List RunInfo :=
  registry.runs.map fun run =>
    match registry.info answers run.runId with
    | .ok observed => observed
    | .error error =>
      { run with
        log.state := .partialLog
        error := some ("run details unavailable: " ++ error) }

def canRotate (registry : RunRegistry) (run : RunInfo) : Bool :=
  !run.pinned && !run.state.isLive && run.cleanupConfirmed &&
    !(registry.active[run.runId]?.any (·.finishing))

def unpinned (registry : RunRegistry) : Nat := registry.runs.countP (!·.pinned)

/-- The unconfirmed outcome of an earlier host. -/
def unresolved (run : RunInfo) : Bool := run.state == .unknown && !run.cleanupConfirmed

/-! ## Writing -/

def ledger (answers : Answers) (registry : RunRegistry) : RunLedger where
  schema := 2
  runs := registry.list answers
  retired := registry.retired

def stored (ledger : RunLedger) (registry : RunRegistry) : RunRegistry :=
  { registry with durable := ledger :: registry.durable }

/-- `run_mut(..)` followed by an assignment. -/
def revise (runId : String) (change : RunInfo → RunInfo) (registry : RunRegistry) : RunRegistry :=
  { registry with runs := updateFirst (·.runId == runId) change registry.runs }

/-- What dropping a lease that may be held does to the gate. -/
def released (lease : Option GateLease) (registry : RunRegistry) : RunRegistry :=
  { registry with gate := lease.elim registry.gate registry.gate.drop }

/-- `active.remove(..)`, with the lease the entry may hold. -/
def forget (runId : String) (registry : RunRegistry) : RunRegistry :=
  released (registry.active[runId]?.bind (·.lease))
    { registry with active := registry.active.erase runId }

def withoutPending (runId : String) (registry : RunRegistry) : RunRegistry :=
  { registry with pendingStarts := registry.pendingStarts.filter (·.runId != runId) }

end RunRegistry

open RunRegistry

variable (formats : Formats)

def persist : Op Unit := do
  let registry ← current
  let answers ← answer
  let ledger := registry.ledger answers
  ledger.validate formats
  answers.write
  update (stored ledger)

/-- A change in memory that stands only if it can be stored: `change`, `persist`, and
    on failure `undo` and the error.  What follows the write is `after`. -/
def saving (change undo after : RunRegistry → RunRegistry) : Op Unit := do
  update change
  match ← attempt (persist formats) with
  | .ok () => update after
  | .error error =>
    update undo
    fail error

def infoOf (runId : String) : Op RunInfo := do
  let registry ← current
  let answers ← answer
  registry.info answers runId

/-- `run_mut`, read. -/
def runMut (runId : String) : Op RunInfo := do
  let registry ← current
  context (registry.find runId) "run not found"

/-! ## Retention -/

/-- One round of `cleanup_retired`, for the first entry. -/
def cleanupFirst (retired : RetiredRun) : Op Unit := do
  let answers ← answer
  (retired.result.forM (answers.removeBody · false) : Result Unit)
  (retired.events.forM (answers.removeBody · true) : Result Unit)
  answers.removeLog retired
  answers.removeDirectory retired
  saving formats (fun registry => { registry with retired := registry.retired.tail })
    (fun registry => { registry with retired := retired :: registry.retired }) id

/-- Each round removes the first entry, so the rounds go through the list. -/
def cleanupRetired : Op Unit := do
  let registry ← current
  registry.retired.forM (cleanupFirst formats)

def retiredOf (old : RunInfo) (runtimeIdentity : Option (Nat × Nat)) : RetiredRun where
  runId := old.runId
  result := old.structuredResult.bind (·.body)
  events := old.events.bind (·.body)
  logIdentity := old.log.fileIdentity
  runtimeIdentity := runtimeIdentity

/-- The record at `index` becomes an entry of the cleanup journal, and back. -/
def RunRegistry.retire (index : Nat) (retired : RetiredRun) (registry : RunRegistry) :
    RunRegistry :=
  { registry with
    retired := registry.retired ++ [retired]
    runs := registry.runs.eraseIdx index }

def RunRegistry.unretire (index : Nat) (old : RunInfo) (registry : RunRegistry) : RunRegistry :=
  { registry with
    retired := registry.retired.dropLast
    runs := registry.runs.insertIdx index old }

def removeHistory (index : Nat) : Op Unit := do
  let registry ← current
  let old ← context registry.runs[index]? "index out of bounds"
  ensure (registry.canRotate old) "run retention cannot remove live, pinned or unconfirmed work"
  ensure (registry.retired.length < historyLimit)
    "retention cleanup journal full; inspect pending cleanup before continuing"
  let answers ← answer
  let runtimeIdentity ← answers.runtimeDirectory old.runId
  saving formats (retire index (retiredOf old runtimeIdentity)) (unretire index old)
    (forget old.runId)
  cleanupRetired formats

/-- One round of `expire_history`. -/
def expireFirst : Op Bool := do
  let answers ← answer
  let registry ← current
  match registry.runs.findIdx? fun run => registry.canRotate run &&
      run.finishedAtMs.any fun finished => retentionMs < answers.now - finished with
  | none => return false
  | some index =>
    removeHistory formats index
    return true

/-- Each round removes a run, so there are at most as many as runs. -/
def expireHistory : Op Unit := do
  let registry ← current
  iterate (expireFirst formats) (registry.runs.length + 1)

/-- One round of a rotation loop: `full` is its condition. -/
def rotateFirst (full : RunRegistry → Bool) (message : String) : Op Bool := do
  let registry ← current
  if full registry then
    let index ← context (registry.runs.findIdx? registry.canRotate) message
    removeHistory formats index
    return true
  else
    return false

/-- `while full { remove_history(position(can_rotate)) }`. -/
def rotateWhile (full : RunRegistry → Bool) (message : String) : Op Unit := do
  let registry ← current
  iterate (rotateFirst formats full message) (registry.runs.length + 1)

end Idk
