import Idk.Run.Registry

/-!
# The operations of the run registry

`run.rs`, in the order of the source: opening, source readiness, starting,
launching, cancelling, reconciling, finishing and pinning.
-/

namespace Idk

open Idk.Logic (Procedure)
open Idk.Logic.Procedure (current update answer fail attempt iterate)
open RunRegistry

variable (formats : Formats)

/-! ## Opening -/

def RunRegistry.activate (runId : String) (active : Active) (registry : RunRegistry) : RunRegistry :=
  { registry with active := registry.active.insert runId active }

/-- The registry before it has read anything: what the disk holds. -/
def RunRegistry.onDisk (gate : SourceGate) (durable : List RunLedger) : RunRegistry where
  gate := gate
  runs := []
  retired := []
  active := ∅
  pendingStarts := []
  durable := durable

def StructuredResult.isUnstored : StructuredResult → Bool
  | .limited .. | .storageFailed .. => true
  | _ => false

/-- A run that was live when the previous host ended has an unknown outcome. -/
def RunInfo.recovered (run : RunInfo) : RunInfo :=
  let run :=
    if run.state.isLive then
      { run with
        state := .unknown
        error := some ("previous host ended before confirmed cleanup; " ++
          "no automatic retry or process adoption") }
    else
      run
  if run.log.state = .recording then { run with log.state := .partialLog } else run

/-- One round of the loop of `open`. -/
def recoverRun (answers : Answers) (seen : List String) (run : RunInfo) : Result RunInfo := do
  let migrated := run.structuredResult.map (answers.migrate run.runId)
  ensure (!migrated.any (·.isUnstored))
    "cannot snapshot legacy result; original ledger preserved"
  formats.validId run.runId
  formats.validId run.operationId
  formats.validId run.projectId
  formats.validId run.taskId
  ensure (!seen.contains run.runId) "duplicate run ledger ID"
  validName run.name
  absolutePath run.cwd
  ensure (run.log.runId == run.runId && run.log.limitBytes ≤ logByteLimit &&
    run.log.bytes ≤ logByteLimit && 0 < run.log.generation)
    "invalid run log descriptor; ledger preserved"
  ensure (run.steps.length ≤ 64 && run.sourceRoots.length ≤ 128 && run.buildOutputs.length ≤ 32)
    "run ledger record exceeds definition bounds"
  (run.sourceRoots ++ run.buildOutputs).forM absolutePath
  return { run with structuredResult := migrated }.recovered

def recoverRuns (answers : Answers) (seen : List String) : List RunInfo → Result (List RunInfo)
  | [] => .ok []
  | run :: rest => do
    let recovered ← recoverRun formats answers seen run
    let others ← recoverRuns answers (run.runId :: seen) rest
    return recovered :: others

/-- `open` up to its first write, on a registry that is `onDisk`. -/
def loadLedger : Op Unit := do
  let answers ← answer
  let projects ← answers.load
  update fun registry =>
    { registry with
      gate := (projects.filterMap (·.repositoryBinding)).foldl
        (fun gate repository => gate.unavailable repository.identity) registry.gate }
  answers.read
  let registry ← current
  let ledger := registry.durable.head?.getD { schema := 2, runs := [], retired := [] }
  ledger.validate formats
  answers.prepareStore
  let runs ← recoverRuns formats answers [] ledger.runs
  update fun registry => { registry with runs := runs, retired := ledger.retired }

/-- `open`. -/
def openRegistry : Op Unit := do
  loadLedger formats
  persist formats
  cleanupRetired formats
  expireHistory formats

/-! ## Source readiness -/

def publishSource (identity : PathBuf) : Op Unit := do
  let registry ← current
  ensure (!registry.runs.any fun run => unresolved run && run.sourceStart.identity == some identity)
    "source-use unknown from previous run; inspect old processes before recovery"
  update fun registry => { registry with gate := registry.gate.ready identity }

/-- A registered source that cannot be published is left as it is. -/
def publishRegisteredSources : Op Unit := do
  let answers ← answer
  let projects ← answers.load
  (projects.flatMap fun project =>
      project.repositoryBinding.toList ++ project.relatedRepositories).forM fun repository => do
    let _ ← attempt (publishSource repository.identity)

/-! ## Starting -/

/-- Some output of one list lies under some output of the other. -/
def overlaps (outputs others : List PathBuf) : Bool :=
  outputs.any fun path => others.any fun other => path.startsWith other || other.startsWith path

def existing (runId : String) : Op BeginReservation := do
  let run ← infoOf runId
  return .existing { run, existing := true }

/-- The lease of a run that owns a repository. -/
def takeLease (plan : TaskLaunchPlan) (operationId : String) : Op (Option GateLease) :=
  match plan.repository with
  | none => pure none
  | some repository => do
    let answers ← answer
    answers.verify repository
    publishSource repository.identity
    let registry ← current
    let granted ← registry.gate.reserveRun repository.identity operationId plan.task.name
    update fun registry => { registry with gate := granted.1 }
    return some granted.2

/-- The end of `begin_reserve`: the lease and the pending record. -/
def takeStart (plan : TaskLaunchPlan) (operationId : String) (outputs : List PathBuf) :
    Op BeginReservation := do
  let answers ← answer
  let runId := answers.newId
  let lease ← takeLease plan operationId
  update fun registry =>
    { registry with
      pendingStarts := registry.pendingStarts ++
        [{ runId, projectId := plan.projectId, taskId := plan.task.id, operationId,
           buildOutputs := outputs }] }
  return .fresh { runId, plan, operationId, outputs, lease }

/-- History and pending starts together leave no room for another record. -/
def RunRegistry.isFull (registry : RunRegistry) : Bool :=
  historyLimit ≤ registry.unpinned + registry.pendingStarts.length

/-- `begin_reserve` from the check of recorded and pending work on. -/
def admitStart (plan : TaskLaunchPlan) (operationId : String) (parallel : Bool) :
    Op BeginReservation := do
  let registry ← current
  ensure (!registry.pendingStarts.any fun pending =>
      pending.projectId == plan.projectId && pending.taskId == plan.task.id && !parallel)
    "a start of this task is already being prepared; await its result"
  ensure (!registry.runs.any fun run =>
      run.projectId == plan.projectId && run.taskId == plan.task.id && unresolved run)
    "previous task cleanup is unknown; inspect old processes before another start"
  let answers ← answer
  let outputs ← (plan.task.buildOutputs.mapM answers.outputIdentity : Result (List PathBuf))
  ensure (!registry.runs.any fun run =>
      (run.state.isLive || unresolved run) && overlaps outputs run.buildOutputs)
    ("build output conflicts with active or unknown run; " ++
      "wait or register distinct output locations")
  ensure (!registry.pendingStarts.any fun pending => overlaps outputs pending.buildOutputs)
    ("build output conflicts with a start still being prepared; " ++
      "wait or register distinct output locations")
  cleanupRetired formats
  expireHistory formats
  rotateWhile formats isFull "run history full of active, unknown or unfinalized executions"
  takeStart plan operationId outputs

/-- `begin_reserve` for an operation id that no run carries. -/
def reserveNew (plan : TaskLaunchPlan) (operationId : String) (parallel : Bool) :
    Op BeginReservation := do
  let answers ← answer
  withContext answers.runUse "root reconnection is in progress; task was not reserved"
  let fresh ← answers.launchPlan plan.projectId plan.task.id plan.shell.env
  ensure (fresh.val.launchDigest == plan.launchDigest)
    "task definition changed before reservation; review the current task"
  let plan := fresh.val
  let registry ← current
  ensure (!registry.pendingStarts.any (·.operationId == operationId))
    "this execution is already being prepared; await its result"
  match registry.runs.reverse.find? fun run =>
      run.projectId == plan.projectId && run.taskId == plan.task.id && run.state.isLive with
  | some run =>
    if !parallel then existing run.runId else admitStart formats plan operationId parallel
  | none => admitStart formats plan operationId parallel

def beginReserve (plan : TaskLaunchPlan) (operationId : String) (parallel : Bool) :
    Op BeginReservation := do
  formats.validId operationId
  let registry ← current
  match registry.runs.find? (·.operationId == operationId) with
  | some run =>
    ensure (run.projectId == plan.projectId && run.taskId == plan.task.id &&
        run.launchDigest == plan.launchDigest)
      "operation ID already refers to a different execution intent"
    existing run.runId
  | none => reserveNew formats plan operationId parallel

/-- `begin_abandon`; the lease is dropped with the ticket. -/
def beginAbandon (ticket : BeginTicket) : Op Unit := do
  update (withoutPending ticket.runId)
  update (released ticket.lease)

def runEnvironment (directory runId : String) (env : BTreeMap String) : BTreeMap String :=
  ((env.insert "IDK_RUN_ID" runId).insert "IDK_RESULT_PATH" (directory ++ "/result.json")).insert
    "IDK_EVENTS_PATH" (directory ++ "/events.jsonl")

/-- The latest successful run of the task whose artifact this task takes. -/
def RunRegistry.predecessorOf (registry : RunRegistry) (plan : TaskLaunchPlan) : Option String := do
  let task ← plan.task.artifactFromTask
  let run ← registry.runs.reverse.find? fun run =>
    run.projectId == plan.projectId && run.taskId == task && run.state == .succeeded &&
      run.artifact.path == plan.task.artifact
  return run.runId

def initialLog (ticket : BeginTicket) : LogDescriptor where
  runId := ticket.runId
  generation := 1
  state := if ticket.plan.task.logging = .disabled then .disabled else .recording
  bytes := 0
  observedBytes := 0
  limitBytes := logByteLimit
  mergedPty := ticket.plan.task.execution.isNone || ticket.plan.task.interactive
  fileIdentity := none

/-- The record that `begin_commit` stores. -/
def newRun (registry : RunRegistry) (ticket : BeginTicket) (sourceStart : SourceObservation)
    (log : LogDescriptor) (now : Nat) : RunInfo where
  structuredResult := none
  pinned := false
  events := none
  runId := ticket.runId
  operationId := ticket.operationId
  projectId := ticket.plan.projectId
  taskId := ticket.plan.task.id
  name := ticket.plan.task.name
  sessionId := none
  state := .preparing
  definitionRevision := ticket.plan.definitionRevision
  launchDigest := ticket.plan.launchDigest
  initializationDigest := ticket.plan.initializationDigest
  cwd := ticket.plan.task.cwd
  sourceRoots := ticket.plan.sourceRoots
  buildOutputs := ticket.outputs
  startedAtMs := now
  finishedAtMs := none
  timeoutSeconds := ticket.plan.task.timeoutSeconds
  timeoutRequested := false
  cancelRequested := false
  cleanupConfirmed := false
  exitCode := none
  signal := none
  steps := ticket.plan.task.allSteps.mapIdx fun index step =>
    { index, name := step.name, exitCode := none }
  sourceStart := sourceStart
  sourceEnd := none
  sourceChanged := none
  artifact :=
    { path := ticket.plan.task.artifact
      fromTask := ticket.plan.task.artifactFromTask
      fromRun := registry.predecessorOf ticket.plan
      verifiedBytes := false
      snapshot := none
      snapshotError := none
      observedAtMs := none }
  log := log
  error := none

def RunRegistry.appended (run : RunInfo) (registry : RunRegistry) : RunRegistry :=
  { registry with runs := registry.runs ++ [run] }

/-- The part of `begin_commit` whose failure drops the lease. -/
def commitStart (ticket : BeginTicket) (sourceStart : SourceObservation) : Op RunStartReply := do
  let answers ← answer
  answers.createDirectory ticket.runId
  let shell ← answers.createSteps ticket.plan
  let log ← answers.openSink (initialLog ticket)
  let registry ← current
  let run := newRun registry ticket sourceStart log answers.now
  saving formats (appended run)
    (fun registry => { registry with runs := registry.runs.dropLast })
    (activate ticket.runId
      { plan := ticket.plan
        shell := { shell with
          env := runEnvironment (answers.directory ticket.runId) ticket.runId shell.env }
        lease := ticket.lease
        runUse := true
        finishing := false
        resultSnapshot := none
        eventsSnapshot := none })
  return { run, existing := false }

def beginCommit (ticket : BeginTicket) (sourceStart : SourceObservation) : Op RunStartReply := do
  update (withoutPending ticket.runId)
  match ← attempt (commitStart formats ticket sourceStart) with
  | .ok reply => pure reply
  | .error error =>
    update (released ticket.lease)
    fail error

/-! ## Launching -/

def shellPlan (runId : String) : Op ShellPlan := do
  let registry ← current
  let active ← context registry.active[runId]? "run is not owned by this host"
  let answers ← answer
  let fresh ← answers.launchPlan active.plan.projectId active.plan.task.id active.plan.shell.env
  ensure (fresh.val.launchDigest == active.plan.launchDigest)
    "task definition changed before spawn"
  let run ← infoOf runId
  ensure (run.state == .preparing) "run cancelled or already started"
  return active.shell

structure ProcessLaunch where
  program : PathBuf
  args : List String
  env : BTreeMap String
  cwd : PathBuf
  interactive : Bool

def processPlan (runId : String) : Op (Option ProcessLaunch) := do
  let _ ← shellPlan runId
  let registry ← current
  let active ← context registry.active[runId]? "run is not owned by this host"
  let answers ← answer
  let directory := answers.directory runId
  let launch (program : PathBuf) (args : List String) (overrides : List (String × String)) :=
    { program, args
      env := runEnvironment directory runId
        (overrides.foldl (fun env (name, value) => env.insert name value) active.plan.shell.env)
      cwd := active.plan.task.cwd
      interactive := active.plan.task.interactive : ProcessLaunch }
  match active.plan.task.execution with
  | none => return none
  | some (.process program args env) => return some (launch program args env)
  | some (.script interpreter args _ env) =>
    return some (launch interpreter (args ++ [directory ++ "/task.script"]) env)

def RunInfo.marked (sessionId : String) (run : RunInfo) : RunInfo :=
  { run with
    sessionId := some sessionId
    state := if run.state = .preparing then .running else run.state }

def markRunning (runId sessionId : String) : Op Unit := do
  formats.validId sessionId
  let run ← runMut runId
  ensure run.state.isLive "run is no longer live"
  update (revise runId (·.marked sessionId))
  persist formats

/-! ## Cancelling and reconciling -/

def RunInfo.cancelling (timeout : Bool) (run : RunInfo) : RunInfo :=
  { run with
    state := .cancelling
    cancelRequested := true
    timeoutRequested := run.timeoutRequested || timeout }

def RunInfo.acknowledged (run : RunInfo) : RunInfo :=
  { run with
    cleanupConfirmed := true
    error := some "user confirmed old process cleanup; execution outcome remains unknown" }

def cancel (runId : String) (timeout : Bool) : Op RunInfo := do
  let registry ← current
  ensure (!(registry.active[runId]?.any (·.finishing)))
    "run execution already ended; source observation or durable finalization is pending"
  let previous ← runMut runId
  ensure previous.state.isLive "run is not live; unknown outcomes require inspection"
  saving formats (revise runId (·.cancelling timeout)) (revise runId fun _ => previous) id
  infoOf runId

def acknowledgeUnknownCleanup (runId : String) : Op RunInfo := do
  let registry ← current
  ensure (!registry.active.contains runId)
    "use owned cleanup for runs still tracked by this host"
  let previous ← runMut runId
  ensure (previous.state == .unknown) "only a recovered unknown run needs reconciliation"
  saving formats (revise runId (·.acknowledged)) (revise runId fun _ => previous) id
  infoOf runId

/-! ## Finishing -/

/-- What `finish_probe` hands out to observe the source with. -/
structure SourceProbe where
  repository : Option Repository
  artifact : Option PathBuf

def finishProbe (runId : String) : Op SourceProbe := do
  let registry ← current
  let active ← context registry.active[runId]? "run not owned by this host"
  update (activate runId { active with finishing := true })
  return { repository := active.plan.repository, artifact := active.plan.task.artifact }

/-- `i32::try_from`. -/
def tryI32 (code : Nat) : Option Int := if code < 2 ^ 31 then some code else none

/-- The step results that `finish_observed` records. -/
def finalSteps (answers : Answers) (runId : String) (active : Active)
    (exit : Option TerminalExit) : List StepResult :=
  if active.plan.task.execution.isSome then
    [{ index := 0
       name := active.plan.task.name
       exitCode := (exit.filter (·.signal.isNone)).bind (tryI32 ·.code) }]
  else
    answers.readSteps runId active.plan.task.allSteps

/-- Confirmed cleanup captures the result and the events once. -/
def Active.captured (answers : Answers) (runId : String) (cleanupConfirmed : Bool)
    (active : Active) : Active :=
  if cleanupConfirmed && active.resultSnapshot.isNone then
    let result := answers.capture runId
    { active with
      eventsSnapshot := some
        (answers.captureEvents runId (result.summary.bind (·.producerRunId)))
      resultSnapshot := some result }
  else
    active

/-- The snapshot of the run whose artifact `run` took, if that one is settled. -/
def RunRegistry.predecessorSnapshot (registry : RunRegistry) (run : RunInfo) :
    Option ArtifactSnapshot := do
  let id ← run.artifact.fromRun
  let previous ← registry.runs.find? fun previous =>
    previous.runId == id && previous.projectId == run.projectId &&
      run.artifact.fromTask == some previous.taskId && previous.state == .succeeded &&
      previous.cleanupConfirmed && previous.artifact.path == run.artifact.path
  previous.artifact.snapshot

def ArtifactRelation.measured (measurement : Option ArtifactMeasurement) (verifiedBytes : Bool)
    (artifact : ArtifactRelation) : ArtifactRelation :=
  match measurement with
  | some measurement =>
    { artifact with
      snapshot := measurement.snapshot
      snapshotError := measurement.error
      observedAtMs := some measurement.observedAtMs
      verifiedBytes }
  | none =>
    { artifact with
      snapshotError := some
        "artifact measurement did not complete within the observation budget"
      verifiedBytes }

def RunInfo.finalState (run : RunInfo) (exit : Option TerminalExit) (cleanupConfirmed : Bool)
    (error : Option String) : RunState :=
  if !cleanupConfirmed then
    .unknown
  else if run.cancelRequested then
    .cancelled
  else if exit.any fun exit => exit.code == 0 && exit.signal.isNone then
    .succeeded
  else if exit.isSome || error.isSome then
    .failed
  else
    .unknown

def RunInfo.sourceDiffers (run : RunInfo) (sourceEnd : SourceObservation) : Option Bool :=
  if run.sourceStart.error.isNone && sourceEnd.error.isNone && run.sourceStart.identity.isSome then
    some (run.sourceStart.gitHead != sourceEnd.gitHead ||
      run.sourceStart.statusDigest != sourceEnd.statusDigest ||
      run.sourceStart.generation != sourceEnd.generation)
  else
    none

/-- What the host reports about the end of a run. -/
structure RunEnd where
  exit : Option TerminalExit
  cleanupConfirmed : Bool
  error : Option String
  sourceEnd : SourceObservation

/-- The record that `finish_observed` writes over a run's. -/
def RunInfo.finished (run : RunInfo) (ending : RunEnd) (active : Active)
    (steps : List StepResult) (log : LogDescriptor) (measurement : Option ArtifactMeasurement)
    (verifiedBytes : Bool) (now : Nat) : RunInfo :=
  { run with
    artifact :=
      if run.artifact.path.isSome && ending.cleanupConfirmed then
        run.artifact.measured measurement verifiedBytes
      else
        run.artifact
    structuredResult := active.resultSnapshot
    events := active.eventsSnapshot
    sourceChanged := run.sourceDiffers ending.sourceEnd
    sourceEnd := some ending.sourceEnd
    steps := steps
    log := log
    error := ending.error
    exitCode := ending.exit.map (·.code)
    signal := ending.exit.bind (·.signal)
    state := run.finalState ending.exit ending.cleanupConfirmed ending.error
    finishedAtMs := some now
    cleanupConfirmed := ending.cleanupConfirmed }

/-- After the outcome is durable: the finalization is over, and with confirmed
    cleanup the lease and the run-use lock are given up. -/
def RunRegistry.settle (runId : String) (cleanupConfirmed : Bool) (registry : RunRegistry) :
    RunRegistry :=
  match registry.active[runId]? with
  | none => registry
  | some active =>
    if cleanupConfirmed then
      released active.lease (activate runId
        { active with finishing := false, lease := none, runUse := false } registry)
    else
      activate runId { active with finishing := false } registry

def finishObserved (runId : String) (ending : RunEnd) : Op RunInfo := do
  let registry ← current
  let active ← context registry.active[runId]? "run not owned by this host"
  let answers ← answer
  let active := active.captured answers runId ending.cleanupConfirmed
  update (activate runId { active with finishing := true })
  let known ← infoOf runId
  let registry ← current
  let measurement := answers.measurement runId
  let verifiedBytes := ending.cleanupConfirmed &&
    match measurement.bind (·.snapshot), registry.predecessorSnapshot known with
    | some now, some previous => now.sha256 == previous.sha256 && now.size == previous.size
    | _, _ => false
  let _ ← runMut runId
  update (revise runId (·.finished ending active
    (finalSteps answers runId active ending.exit) (answers.sink runId) measurement verifiedBytes
    answers.now))
  persist formats
  update (settle runId ending.cleanupConfirmed)
  infoOf runId

/-! ## Pinning -/

def StructuredResult.isLost : StructuredResult → Bool
  | .expired .. | .tampered .. => true
  | _ => false

def EventState.isLost : EventState → Bool
  | .expired | .tampered => true
  | _ => false

/-- The checks of `pin_result` before a run is pinned. -/
def checkPin (run : RunInfo) : Op Unit := do
  let answers ← answer
  ensure (!(run.structuredResult.any fun result => (answers.verifyResult result).isLost))
    "cannot pin expired or tampered result"
  ensure (!(run.events.any fun events => (answers.retainedEvents events).state.isLost))
    "cannot pin expired or tampered events"
  let registry ← current
  let pinned := registry.runs.filter (·.pinned)
  ensure (pinned.length < pinnedRunLimit)
    "at most 16 pinned runs; unpin or export an existing baseline"
  ensure (saturatingAdd ((pinned.map (·.retainedBytes)).foldl saturatingAdd 0) run.retainedBytes ≤
    pinnedResultBytes) "pinned data exceeds 128 MiB; unpin or export an existing baseline"

/-- Unpinning makes room in the ordinary history first. -/
def RunRegistry.isHistoryFull (registry : RunRegistry) : Bool :=
  historyLimit ≤ registry.unpinned

/-- What must hold or be made room for before a run is pinned or unpinned. -/
def admitPin (known : RunInfo) (pinned : Bool) : Op Unit :=
  if pinned then
    checkPin known
  else
    rotateWhile formats isHistoryFull
      "ordinary history is full of active or unconfirmed work; cannot unpin yet"

def RunInfo.withPin (pinned : Bool) (run : RunInfo) : RunInfo := { run with pinned }

def pinResult (runId : String) (pinned : Bool) : Op RunInfo := do
  let known ← infoOf runId
  ensure (!known.state.isLive && known.cleanupConfirmed) "pin requires confirmed process cleanup"
  if known.pinned = pinned then
    return known
  else
    admitPin formats known pinned
    let _ ← runMut runId
    saving formats (revise runId (·.withPin pinned)) (revise runId (·.withPin known.pinned)) id
    infoOf runId

end Idk
