import Idk.Git.Bridge

/-!
# Starting the bridge and its ticks

`Bridge::new`, and the parts of `Bridge::tick` in their order: worker events, the two
sweeps after the death of a pool, the ticks of the operations, the screens that are
forgotten, and the dispatch of queued jobs.
-/

namespace Idk.Git

open Idk.Logic (Procedure)
open Idk.Logic.Procedure (current update answer fail attempt iterate)
open Bridge

variable (formats : GitFormats)

/-! ## Starting -/

/-- `Bridge` before it has read anything, on what the disk holds. -/
def Bridge.onDisk (instanceId : String) (workers : Workers) (durable : List GitLedger) :
    Bridge where
  instanceId := instanceId
  gate := .default
  repos := ∅
  contexts := ∅
  jobs := ∅
  queue := []
  plans := ∅
  operations := ∅
  workers := workers
  reading := 0
  readsDead := false
  executionsDead := false
  durable := durable

/-- `workers()`: two readers, four executors. -/
def Workers.new : Workers where
  reads := []
  executions := []
  events := []
  readAlive := 2
  executeAlive := 4

def historicalWarning (commit : Option String) : String :=
  match commit with
  | some oid => "Historical result; recorded commit " ++ oid ++
      ". Refresh the repository for current state."
  | none => "Historical result; refresh the repository for current state."

/-- The operation a record stands for in the next host. -/
def GitRecord.restored (record : GitRecord) (instanceId : String) (now : Nat) : Operation :=
  let complete := record.state == .complete
  let result := (record.outcome.filter fun _ => complete).map fun outcome =>
    { id := record.id, kind := record.kind, outcome := outcome, exitCode := record.exitCode,
      after := none, commit := none, warnings := [historicalWarning record.commit] }
  let operation := Operation.new {
    id := record.id
    contextId := record.contextId
    projectId := record.projectId
    repository := record.repository
    hostInstance := instanceId
    kind := record.kind
    state := if complete then .complete else .unknown
    cleanupAcknowledged := record.cleanupAcknowledged
    owner := none
    inputEpoch := 0
    generation := 0
    terminalAvailable := false
    result := result
    error := if complete then record.error else some ("previous host did not record a " ++
      "confirmed Git outcome; no command or PID was adopted/replayed; inspect repository and " ++
      "remote state") }
  { operation with finishedAt := some now }

/-- One round of the loop of `new`. -/
def restoreRecord (record : GitRecord) : Op Unit := do
  formats.validId record.id
  formats.validId record.contextId
  formats.validId record.projectId
  absolutePath record.repository.root
  absolutePath record.repository.gitDir
  absolutePath record.repository.commonDir
  let bridge ← current
  ensure (!bridge.operations.contains record.id) "duplicate Git operation ledger identity"
  let answers ← answer
  update (setOperation record.id (record.restored bridge.instanceId answers.now))

def restoreLedger : Op Unit := do
  let answers ← answer
  answers.read
  let bridge ← current
  match bridge.durable.head? with
  | none => pure ()
  | some ledger =>
    ledger.validate formats
    ledger.operations.forM (restoreRecord formats)

/-- `Bridge::new`, on a bridge that is `onDisk`. -/
def newBridge : Op Unit := do
  restoreLedger formats
  persist

/-- The source blocks of `Actor::new`. -/
def blockSources : Op Unit :=
  update fun bridge =>
    { bridge with
      gate := bridge.unresolvedSources.foldl (fun gate source =>
        gate.block source.1 source.2 "previous Git operation cleanup is unknown") bridge.gate }

/-! ## Events of the workers -/

/-- One round of the loop that makes room for a plan. -/
def evictPlan (bytes : Nat) : Op Bool := do
  let bridge ← current
  if 128 ≤ bridge.plans.size || cacheBytes < sumBytes (·.bytes) bridge.plans + bytes then
    let id ← context (oldest (fun _ _ => true) (·.created) bridge.plans.toList)
      "Git plan cache capacity reached"
    update fun bridge => { bridge with plans := bridge.plans.erase id }
    return true
  else
    return false

def publish (job : Job) : Payload → Op GitValue
  | .openContext => do
    let id ← context job.info.contextId "Git job context is missing"
    let bridge ← current
    let record ← context bridge.contexts[id]? "Git context expired while opening"
    update fun bridge => { bridge with
      contexts := bridge.contexts.insert id { record with ready := true } }
    return .openContext record.info
  | .plan plan => do
    let id ← context job.info.contextId "Git job context is missing"
    let answers ← answer
    let bytes ← bounded answers.size
    let bridge ← current
    iterate (evictPlan bytes) (bridge.plans.size + 1)
    update fun bridge =>
      { bridge with
        plans := bridge.plans.insert plan.preview.id {
          context := id
          client := job.client
          repository := job.repository
          generation := job.generation
          value := plan
          created := answers.now
          bytes := bytes } }
    return .plan plan.preview
  | .display content => do
    let _ ← context job.info.contextId "Git job context is missing"
    return .display content

/-- The job's slot, when it still is the one the job was accepted for. -/
def landIn (job : Job) (id : String) (service : Option String) (now : Nat) (bridge : Bridge) :
    Bridge :=
  { bridge with repos := bridge.repos.modify job.repository fun repo =>
    if repo.generation = job.generation then
      { repo with
        busy := if repo.busy = some id then none else repo.busy
        touched := now
        service := if service.isSome then service else repo.service }
    else repo }

def Job.ended (job : Job) (result : Result GitValue) (bytes : Nat) : Job :=
  match result with
  | .ok value =>
    { job with info.state := .ready, info.result := some value, bytes := bytes }
  | .error error =>
    { job with info.state := .failed, info.error := some (safeError error), bytes := bytes }

/-- One round of the loop that makes room for a result; `false` when it is over. -/
def evictResult (bytes : Nat) : Op (Option Bool) := do
  let bridge ← current
  if cacheBytes < sumBytes (·.bytes) bridge.jobs + bytes then
    match oldest (fun _ job => !job.info.state.isOpen) (·.created) bridge.jobs.toList with
    | some id =>
      update (removeJob id)
      return none
    | none => return some false
  else
    return some true

/-- Whether there is room for a result of this size, after at most `fuel` evictions. -/
def roomFor (bytes : Nat) : Nat → Op Bool
  | 0 => pure true
  | fuel + 1 => do
    match ← evictResult bytes with
    | none => roomFor bytes fuel
    | some room => return room

def Job.overflowed (job : Job) (bytes : Nat) : Job :=
  { job with
    info.state := .failed
    info.result := none
    info.error := some "Git result cache capacity reached; refresh explicitly"
    bytes := bytes }

/-- The payload is published while the job's slot is the one it was accepted for. -/
def publishIn (valid : Bool) (job : Job) (result : Result Payload) : Op GitValue := do
  ensure valid "Git context changed while the request ran; stale result discarded"
  let payload ← result
  let value ← publish job payload
  let answers ← answer
  let _ ← bounded answers.size
  return value

/-- The job comes back with what became of it. -/
def settleJob (id : String) (job : Job) (published : Result GitValue) : Op Unit := do
  let answers ← answer
  let job := job.ended published answers.size
  let bridge ← current
  if ← roomFor job.bytes (bridge.jobs.size + 1) then
    update (setJob id job)
  else
    let answers ← answer
    update (setJob id (job.overflowed answers.size))

/-- `Event::Read`. -/
def readEvent (id : String) (service : Option String) (result : Result Payload) : Op Unit := do
  update fun bridge => { bridge with reading := bridge.reading - 1 }
  let bridge ← current
  match bridge.jobs[id]? with
  | none => pure ()
  | some job =>
    let valid := bridge.repos[job.repository]?.any (·.generation == job.generation)
    let answers ← answer
    update (removeJob id)
    update (landIn job id service answers.now)
    let published ← attempt (publishIn valid job result)
    settleJob id job published

/-- `Event::Terminal`. -/
def terminalEvent (id : String) (pid : Host.Pid) : Op Unit := do
  let operation ← operationOf id
  let answers ← answer
  let operation := operation.install pid answers.terminal
  update (setOperation id operation)
  match ← attempt persist with
  | .ok () => pure ()
  | .error _ =>
    update (setOperation id (operation.noted ("Git process is owned, but its running state " ++
      "could not be recorded; inspect before restart")))

/-- `Event::Executed`. -/
def executedEvent (id : String) (result : Result OperationResult) : Op Unit := do
  let bridge ← current
  match bridge.operations[id]? with
  | none => pure ()
  | some operation =>
    let answers ← answer
    let operation := operation.finish answers.now (do
      let result ← result
      let _ ← bounded answers.size
      pure result)
    update (setOperation id operation)
    update (clearBusy operation.info.repository.gitDir id)
    match ← attempt persist with
    | .ok () => pure ()
    | .error _ =>
      update (setOperation id (operation.noted ("Git outcome observed, but durable history " ++
        "save failed; restart may report unknown")))

/-- One round of the loop over the events. -/
def nextEvent : Op Unit := do
  let bridge ← current
  match bridge.workers.events with
  | [] => pure ()
  | event :: rest =>
    update fun bridge => { bridge with workers.events := rest }
    match event with
    | .read id service result => readEvent id service result
    | .terminal id pid => terminalEvent id pid
    | .executed id result => executedEvent id result

/-! ## The death of a pool -/

def Job.failedWith (job : Job) (error : String) : Job :=
  { job with info.state := .failed, info.error := some error }

/-- The sweep after the death of the read pool, made once. -/
def sweepReads : Op Unit := do
  let bridge ← current
  if !bridge.readsDead && bridge.workers.readAlive == 0 then
    update fun bridge => { bridge with
      readsDead := true
      jobs := bridge.jobs.map fun _ job =>
        if job.info.state.isOpen then
          job.failedWith "Git read workers exited; the request did not complete"
        else job
      repos := bridge.repos.map fun _ repo =>
        if repo.busy.any (bridge.jobs.contains ·) then { repo with busy := none } else repo
      queue := []
      reading := 0 }

/-- What the death of the executors means for one operation. -/
def Operation.abandoned (operation : Operation) (now : Nat) : Operation :=
  if operation.unspawned then
    operation.finish now (.error "Git execution workers exited before its process started")
  else if operation.active && operation.reaped then
    operation.finish now (.error "Git execution workers exited before reporting an outcome")
  else operation -- a live terminal keeps reaping

/-- The sweep after the death of the execution pool, made once. -/
def sweepExecutions : Op Unit := do
  let bridge ← current
  if !bridge.executionsDead && bridge.workers.executeAlive == 0 then
    let answers ← answer
    let changed := bridge.operations.toList.any fun entry =>
      entry.2.active && (entry.2.unspawned || entry.2.reaped)
    update fun bridge => { bridge with
      executionsDead := true
      operations := bridge.operations.map fun _ operation => operation.abandoned answers.now }
    update fun bridge => { bridge with
      repos := bridge.repos.map fun _ repo =>
        if repo.busy.any (fun id => bridge.operations[id]?.any (!·.active)) then
          { repo with busy := none }
        else repo }
    if changed then
      let _ ← attempt persist

/-! ## Operations, screens and queued jobs -/

/-- The tick of one operation: what it sends to its executor. -/
def tickOperation (id : String) (answers : Operation.TickAnswers) (receiver : Bool) :
    Op (Option CommandOutcome) := do
  let operation ← operationOf id
  let (operation, outcome) := operation.tick answers receiver
  update (setOperation id operation)
  return outcome

/-- All but the eight operations that finished last forget their screens. -/
def forgetScreens : Op Unit := do
  let bridge ← current
  let complete := (bridge.operations.toList.filter (!·.2.active)).mergeSort fun left right =>
    (left.2.finishedAt.getD 0) < (right.2.finishedAt.getD 0) ||
      ((left.2.finishedAt.getD 0) == (right.2.finishedAt.getD 0) && left.1 ≤ right.1)
  let forgotten := (complete.take (complete.length - 8)).map (·.1)
  update fun bridge =>
    { bridge with
      operations := bridge.operations.map fun id operation =>
        if forgotten.contains id then operation.forgetScreen else operation }

/-- One round of the loop that hands queued jobs to the readers. -/
def dispatchRead : Op Unit := do
  let bridge ← current
  if bridge.reading < 2 then
    let next := bridge.queue.find? fun id => bridge.jobs[id]?.any fun job =>
      bridge.repos[job.repository]?.any (·.busy.isNone)
    if let some id := next then
      update fun bridge => { bridge with queue := bridge.queue.erase id }
      let job ← context bridge.jobs[id]? "queued Git job"
      let repo ← context bridge.repos[job.repository]? "repository of a queued Git job"
      let task ← context job.task "task of a queued Git job"
      if bridge.workers.acceptsRead then
        update fun bridge => { bridge with workers.reads := bridge.workers.reads ++
          [⟨id, repo.binding, repo.service, repo.environment, task⟩] }
        update (setBusy job.repository (some id))
        update (setJob id { job with task := none, info.state := .running })
        update fun bridge => { bridge with reading := bridge.reading + 1 }
      else
        update (setJob id
          { job.failedWith "Git preparation worker is unavailable" with task := none })

/-- A report of the descendants, for every operation. -/
def inventories (host : Host.Pid) (answer : Host.Pid → Host.ChildAnswer) (report : Host.Report) :
    Op Unit :=
  update fun bridge =>
    { bridge with
      operations := bridge.operations.map fun _ operation =>
        operation.inventory host answer report }

end Idk.Git
