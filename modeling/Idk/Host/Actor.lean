import Idk.Git.Requests
import Idk.Host.Session

/-!
# The host actor

The state of `Actor` (`host/actor.rs`) with the channels to its workers, and the requests
that start and close sessions.

A worker is its two channels: what it was given and has not answered yet, and what it has
answered.  `cancelled` are the tokens of the cells that store `true`.  The ids that
`new_id` draws are given from outside, in the order of `ids`.  What happened so far
(`Happening`, newest first) is kept with the actor: nothing the code does reads it.
-/

namespace Idk.Host

open Idk.Logic (Procedure)
open Idk.Logic.Procedure (current update answer fail attempt iterate)
open Model (TerminalDefinition)

/-! ## What is exchanged with the workers -/

/-- `launch::Job`. -/
structure LaunchJob where
  session : String
  project : String
  definition : TerminalDefinition
  cancelled : String
deriving DecidableEq, Repr

/-- `launch::Completed`. -/
structure Completed where
  session : String
  result : Result Runtime

/-- The requests to the run worker; `other` are those the actor does not tell apart. -/
inductive RunRequest where
  | start (projectId taskId operationId : String)
  | editorOpen (reviewId : String)
  | job (jobId : String)
  | cancelJob (jobId : String)
  | info (runId : String)
  | list (projectId : Option String)
  | log (runId : String)
  | cancel (runId : String) (force : Bool)
  | other (name : String)
deriving DecidableEq, Repr

/-- `run_jobs::Work`. -/
inductive Work where
  | request (id : String) (request : RunRequest) (session : Option String) (cancel : String)
  | cancel (runId : String) (signalLevel : Bool)
  | finish (session runId : String) (exit : Option TerminalExit) (error : Option String)
      (partialOutput : Bool)
deriving DecidableEq, Repr

/-- The results that the actor looks into. -/
inductive RunResult where
  | started (run : RunInfo) (existing : Bool)
  | editorReview (reviewId projectId : String)
  | other (content : String)
deriving DecidableEq, Repr

/-- `Ok(RunResult::Started(started)) if started.existing`. -/
def existingStart : Result RunResult → Bool
  | .ok (.started _ existing) => existing
  | _ => false

/-- `run_jobs::Event`. -/
structure RunEvent where
  jobId : Option String
  sessionId : Option String
  runtime : Option Runtime
  run : Option RunInfo
  result : Result RunResult
  cancel : Option (String × Bool)
  workDone : Bool

inductive RunJobState where
  | pending
  | complete
  | failed
  | cancelled
deriving DecidableEq, Repr

structure RunJob where
  jobId : String
  state : RunJobState
  result : Option RunResult
  error : Option String
  sessionId : Option String
deriving DecidableEq, Repr

structure JobRecord where
  owner : String
  info : RunJob
  cancel : String
  created : Nat
  bytes : Nat
deriving DecidableEq, Repr

/-! ## The state -/

inductive BatchState where
  | running
  | paused
  | complete
  | cancelled
deriving DecidableEq, Repr

def BatchState.isOpen : BatchState → Bool
  | .running | .paused => true
  | .complete | .cancelled => false

structure BatchInfo where
  batchId : String
  projectId : String
  state : BatchState
  sessions : List String
  remaining : List String
  waitingSession : Option String
  failures : BTreeMap String

structure Batch where
  info : BatchInfo
  waitingSince : Option Nat

/-- The shell preparation worker: its jobs, the one at work first, and its results. -/
structure Launching where
  jobs : List LaunchJob
  results : List Completed
  alive : Bool

/-- `run_jobs::Bridge`, with the work that its worker has not answered and its events. -/
structure RunBridge where
  jobs : BTreeMap JobRecord
  pending : Nat
  dead : Bool
  working : List Work
  events : List RunEvent
  alive : Bool

/-- The inventory worker: the scan it was asked for and its report. -/
structure Scanning where
  scans : List (List Anchor)
  reports : List Report
  alive : Bool

/-- What the properties of whole runs are about. -/
inductive Happening where
  /-- A ledger is about to be checked and written. -/
  | persisted (ledger : HostLedger)
  /-- The PTY host is asked to close a session, or one of its processes is signalled. -/
  | signalled (session : String) (runId : Option String) (durable runsDead : Bool)
  /-- The exit of a leader is observed. -/
  | exited (session : String) (pid : Option Nat)
  | scanned (anchors : List Anchor)
  | reported (report : Report)
  | reaped (session : String) (pid : Option Nat)
  | finishSent (session runId : String)
  | finishAnswered (session : String) (succeeded : Bool)
  | granted (session client : String) (epoch : Nat)
  | typed (session client : String) (epoch : Nat)
deriving DecidableEq, Repr

structure Actor where
  hostInstance : String
  pid : Pid
  slots : BTreeMap Slot
  batches : BTreeMap Batch
  git : Git.Bridge
  runs : RunBridge
  launching : Launching
  scanning : Scanning
  cancelled : List String
  runsDead : Bool
  launchDead : Bool
  quiescing : Bool
  lastBatchTick : Nat
  scanInflight : Bool
  lastScan : Nat
  ids : Nat → String
  nextId : Nat
  history : List Happening

/-- What the clock, the disk, the workers and a terminal answer at one moment. -/
structure HostAnswers where
  now : Nat
  /-- `write_state`. -/
  write : Result Unit
  /-- `store.load()`, of which only the projects are used. -/
  load : Result (List Model.Project)
  /-- A channel has room. -/
  sent : Bool
  /-- What the one terminal concerned answers. -/
  close : Result Unit
  input : Result Unit
  resize : Result Unit
  scroll : Result Unit
  search : Result String
  snapshotSince : Result (Option Git.TerminalSnapshot)
  /-- The log of the session's run is disabled. -/
  logDisabled : Bool
  /-- The terminals during a tick, by session, and the processes of a report. -/
  ticks : String → Slot.TickAnswers
  children : Pid → ChildAnswer
  /-- `serde_json::to_vec(&result)`: the length, if it can be encoded. -/
  resultLength : RunResult → Option Nat
  git : Git.Answers
  gitTicks : String → Git.Operation.TickAnswers
  gitReceives : String → Bool

abbrev Act (α : Type) := Procedure String HostAnswers Actor α

namespace Actor

def modifySlot (session : String) (change : Slot → Slot) (actor : Actor) : Actor :=
  { actor with slots := actor.slots.modify session change }

def setSlot (session : String) (slot : Slot) (actor : Actor) : Actor :=
  { actor with slots := actor.slots.insert session slot }

def removeSlot (session : String) (actor : Actor) : Actor :=
  { actor with slots := actor.slots.erase session }

def isCancelled (actor : Actor) (token : String) : Bool := actor.cancelled.contains token

/-- `cancel.store(true)`. -/
def storeCancel (token : String) (actor : Actor) : Actor :=
  { actor with cancelled := token :: actor.cancelled }

def record (happening : Happening) (actor : Actor) : Actor :=
  { actor with history := happening :: actor.history }

def liveCount (actor : Actor) : Nat := (actor.slots.toList.filter (·.2.isLive)).length

/-- The live sessions and Git operations together. -/
def occupied (actor : Actor) : Nat := actor.liveCount + actor.git.occupied

/-- The slot of a terminal of a project. -/
def slotOfTerminal (actor : Actor) (project terminal : String) : Option (String × Slot) :=
  actor.slots.toList.find? fun entry =>
    entry.2.info.projectId == project && entry.2.info.terminalId == terminal

/-- The session of a run. -/
def sessionOfRun (actor : Actor) (runId : String) : Option String :=
  (actor.slots.toList.find? fun entry => entry.2.purpose.runId == some runId).map (·.1)

def ledger (actor : Actor) : HostLedger where
  schema := 1
  sessions := actor.slots.toList.map fun entry => .fromSlot entry.2

/-- `targets`. -/
def targets (actor : Actor) (project : Option String) : List SessionInfo :=
  (actor.slots.toList.filter fun entry =>
    entry.2.isLive && project.all (· == entry.2.info.projectId)).map (·.2.info)

end Actor

open Actor

/-! ## Small steps -/

/-- `slot(session)?`. -/
def slotOf (session : String) : Act Slot := do
  let actor ← current
  context actor.slots[session]? "terminal session is unknown"

def now : Act Nat := do
  let answers ← answer
  return answers.now

/-- `new_id()`. -/
def newId : Act String := do
  let actor ← current
  update fun actor => { actor with nextId := actor.nextId + 1 }
  return actor.ids actor.nextId

/-- An operation of the Git bridge. -/
def onGit {α : Type} (op : Git.Op α) : Act α :=
  Procedure.zoom (·.git) (fun git actor => { actor with git := git }) (·.git) op

variable (isUuid : IsUuid)

def persist : Act Unit := do
  let actor ← current
  update (record (.persisted actor.ledger))
  actor.ledger.validate isUuid
  let answers ← answer
  answers.write

/-! ## The run worker -/

/-- `LIMIT_JOBS`. -/
def limitJobs : Nat := 128

/-- `LIMIT_CACHE`. -/
def limitCache : Nat := 16 * 1024 * 1024

/-- `TTL`, in milliseconds. -/
def jobTtl : Nat := 300 * 1000

def expired (created ttl now : Nat) : Bool := ttl ≤ now - created

namespace RunBridge

def ensureLive (runs : RunBridge) : Result Unit :=
  ensure (!runs.dead)
    "run worker exited; restart the host so its ledger reconciles outstanding runs"

def jobBytes (runs : RunBridge) : Nat := (runs.jobs.toList.map (·.2.bytes)).sum

def give (work : Work) (runs : RunBridge) : RunBridge :=
  { runs with working := runs.working ++ [work], pending := runs.pending + 1 }

def job (runs : RunBridge) (client id : String) : Result RunJob := do
  let job ← context runs.jobs[id]? "run job expired or not found"
  ensure (job.owner == client) "run job belongs to another client"
  return job.info

/-- `cancel_job`: the job, and the cell to set. -/
def cancelJob (runs : RunBridge) (client id : String) : Result (RunJob × String) := do
  let job ← context runs.jobs[id]? "run job expired or not found"
  ensure (job.owner == client) "run job belongs to another client"
  ensure (job.info.state == .pending) "run job already finished"
  return (job.info, job.cancel)

def reviewOf (reviewId : String) : Option RunResult → Option String
  | some (.editorReview id projectId) => if id = reviewId then some projectId else none
  | _ => none

def editorProject (runs : RunBridge) (client reviewId : String) (now : Nat) : Result String :=
  context
    ((runs.jobs.toList.filter fun entry =>
        entry.2.owner == client && !expired entry.2.created jobTtl now).findSome? fun entry =>
      reviewOf reviewId entry.2.info.result)
    "editor review expired or belongs to another client"

/-- `jobs.retain(..)` of `submit`. -/
def dropExpired (now : Nat) (runs : RunBridge) : RunBridge :=
  { runs with jobs := runs.jobs.filter fun _ job =>
    job.info.state == .pending || !expired job.created jobTtl now }

/-- `mark_dead`. -/
def markDead (runs : RunBridge) : RunBridge :=
  if runs.dead then runs
  else
    { runs with
      dead := true
      jobs := runs.jobs.map fun _ job =>
        if job.info.state = .pending then
          { job with
            info.state := .failed
            info.error := some "run worker exited before producing a result" }
        else job }

/-- `complete`; `length` is that of the encoded result and `cancelled` what the cell holds. -/
def complete (id : String) (result : Result RunResult) (length : RunResult → Option Nat)
    (cancelled : String → Bool) (runs : RunBridge) : RunBridge :=
  let retained := ((runs.jobs.toList.filter (·.1 != id)).map (·.2.bytes)).sum
  { runs with jobs := runs.jobs.modify id fun job =>
    match result with
    | .ok result =>
      let bytes := (length result).getD (2 ^ 64 - 1)
      if 3 * 1024 * 1024 < bytes ∨ limitCache < saturatingAdd retained bytes then
        { job with
          info.state := .failed
          info.error := some "run result exceeds display limit; inspect smaller log ranges" }
      else { job with info.state := .complete, bytes := bytes, info.result := some result }
    | .error error =>
      { job with
        info.state := if cancelled job.cancel then .cancelled else .failed
        info.error := some (safeError error) } }

end RunBridge

def updateRuns (change : RunBridge → RunBridge) : Act Unit :=
  update fun actor => { actor with runs := change actor.runs }

/-- `sender.try_send(work)`. -/
def sendWork (work : Work) (full : String) : Act Unit := do
  let actor ← current
  actor.runs.ensureLive
  let answers ← answer
  ensure (answers.sent && actor.runs.alive) full
  updateRuns (RunBridge.give work)

/-- `cancel_run`. -/
def cancelRun (runId : String) (force : Bool) : Act Unit :=
  sendWork (.cancel runId force) "run cancellation queue full; no process signalled"

/-- One round of the loop that makes room for a job. -/
def evictJob : Act Bool := do
  let actor ← current
  if limitJobs ≤ actor.runs.jobs.size || limitCache ≤ actor.runs.jobBytes then
    let oldest ← context
      (Git.oldest (fun _ job => job.info.state != .pending) (·.created) actor.runs.jobs.toList)
      "run job cache full of pending work; wait for completion"
    updateRuns fun runs => { runs with jobs := runs.jobs.erase oldest }
    return true
  else return false

/-- `submit`. -/
def submit (client : String) (request : RunRequest) (session : Option String)
    (cancel : String → String) : Act RunJob := do
  let actor ← current
  actor.runs.ensureLive
  let time ← now
  updateRuns (RunBridge.dropExpired time)
  let actor ← current
  iterate evictJob (actor.runs.jobs.size + 1)
  let id ← newId
  sendWork (.request id request session (cancel id)) "run worker queue full; no task accepted"
  let time ← now
  let info : RunJob := ⟨id, .pending, none, none, session⟩
  updateRuns fun runs =>
    { runs with jobs := runs.jobs.insert id ⟨client, info, cancel id, time, 0⟩ }
  return info

/-! ## Closing -/

/-- The request to close is noted in the slot and in its cell. -/
def noteRequest (session : String) (force : Bool) : Act Unit := do
  let slot ← slotOf session
  update (storeCancel slot.cancel)
  let time ← now
  update (modifySlot session (·.requested force time))

/-- `request_host_close`, with what the slot says of its run at that moment. -/
def hostClose (session : String) : Act (Result Unit) := do
  let slot ← slotOf session
  let actor ← current
  update (record (.signalled session slot.purpose.runId slot.runCancelDurable actor.runsDead))
  let answers ← answer
  return answers.close

/-- `request_close`. -/
def requestClose (session : String) (force : Bool) : Act Unit := do
  let slot ← slotOf session
  let actor ← current
  match slot.runToCancel actor.runsDead with
  | some runId =>
    if !slot.runCancelPending then
      cancelRun runId force
      update (modifySlot session fun slot => { slot with runCancelPending := true })
    noteRequest session force
  | none =>
    if slot.isLive then
      noteRequest session force
      if slot.runtime.isSome then
        match ← hostClose session with
        | .ok () => pure ()
        | .error error =>
          update (modifySlot session (·.withError (safeError error)))
          fail error

def unsavedClose : String := "terminal close requested but durable state could not be saved"

/-- `close_one`. -/
def closeOne (session : String) (force : Bool) : Act Unit := do
  let signalled ← attempt (requestClose session force)
  match ← attempt (persist isUuid) with
  | .ok () => signalled
  | .error _ =>
    let _ ← slotOf session
    update (modifySlot session (·.withError unsavedClose))
    fail "close requested; durable state save failed"

def cancelBatch (batch : Batch) : Batch :=
  { info := { batch.info with
      state := if batch.info.state.isOpen then .cancelled else batch.info.state
      remaining := []
      waitingSession := none }
    waitingSince := none }

structure CloseReply where
  sessions : List String
  pending : List String
  errors : BTreeMap String
  shuttingDown : Bool

/-- The loop over the reviewed sessions, with the errors so far. -/
def closeEach (force : Bool) (errors : BTreeMap String) : List String → Act (BTreeMap String)
  | [] => return errors
  | session :: rest => do
    match ← attempt (requestClose session force) with
    | .ok () => closeEach force errors rest
    | .error error => closeEach force (errors.insert session (safeError error)) rest

/-- The reviewed set is not saved: every session of it says so. -/
def noteUnsaved (sessions : List String) : Act Unit :=
  update fun actor =>
    { actor with slots := actor.slots.map fun session slot =>
      if sessions.contains session then slot.withError unsavedClose else slot }

/-- `close_many`; `None` for the whole host. -/
def closeMany (project : Option String) (sessions : List String) (force : Bool) :
    Act CloseReply := do
  let actor ← current
  actor.git.checkClose project
  let expected := ((actor.targets project).map (·.sessionId)).mergeSort
  ensure (expected == sessions.mergeSort)
    "close targets changed; review a fresh target preview before closing any terminal"
  update fun actor =>
    { actor with
      batches := actor.batches.map fun _ batch =>
        if project.all (· == batch.info.projectId) then cancelBatch batch else batch
      quiescing := actor.quiescing || project.isNone }
  let errors ← closeEach force ∅ expected
  let errors ←
    match ← attempt (persist isUuid) with
    | .ok () => pure errors
    | .error _ => do
      noteUnsaved expected
      pure (expected.foldl (fun errors session => errors.insertIfNew session unsavedClose) errors)
  let actor ← current
  return {
    sessions := expected
    pending := expected.filter fun session => actor.slots[session]?.any (·.isLive)
    errors := errors
    shuttingDown := actor.quiescing }

end Idk.Host
