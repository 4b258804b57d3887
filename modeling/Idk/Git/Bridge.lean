import Idk.Gate.SourceGate
import Idk.Git.Operation
import Idk.Logic.Procedure
import Idk.Text

/-!
# The Git bridge of the host

`Bridge` (`git_bridge.rs`): repositories with at most one piece of work in flight,
contexts, queued read jobs, reviewed plans and the operations that execute them, with
the ledger `git-operations.json` and the channels to the worker threads.

The caches of snapshots and reviews are read only by `resolve_task`, whose outcome is
an answer of the environment here.
-/

namespace Idk.Git

open Idk.Logic (Procedure)
open Idk.Logic.Procedure (current update answer fail attempt iterate)

/-- `BTreeMap<PathBuf, _>`. -/
abbrev PathMap (β : Type) := Std.TreeMap PathBuf β

def maxValue : Nat := 3 * 1024 * 1024

def cacheBytes : Nat := 16 * 1024 * 1024

/-- `TOKEN_TTL`, in milliseconds. -/
def tokenTtl : Nat := 300 * 1000

/-- `MAX_OPERATIONS`, which is `GIT_RECORD_LIMIT`. -/
def maxOperations : Nat := 128

/-- `MAX_TERMINALS`. -/
def maxTerminals : Nat := 64

/-! ## The ledger -/

structure GitRecord where
  id : String
  contextId : String
  projectId : String
  repository : Repository
  kind : OperationKind
  state : OperationState
  cleanupAcknowledged : Bool
  outcome : Option GitOutcome
  exitCode : Option Nat
  commit : Option String
  error : Option String
deriving DecidableEq, Repr

structure GitLedger where
  schema : Nat
  operations : List GitRecord
deriving DecidableEq, Repr

/-- `Uuid::parse_str(..).is_ok()` and the serialization that is hashed. -/
structure GitFormats where
  isUuid : String → Bool
  environmentDigest : List (String × String) → String

def GitFormats.validId (formats : GitFormats) (value : String) : Result Unit :=
  ensure (formats.isUuid value) "invalid object id"

/-- One round of `GitLedger::validate`, after the ids in `seen`. -/
def GitRecord.validate (formats : GitFormats) (seen : List String) (record : GitRecord) :
    Result Unit := do
  formats.validId record.id
  formats.validId record.contextId
  formats.validId record.projectId
  ensure (!seen.contains record.id) "duplicate Git operation identity; ledger preserved"
  absolutePath record.repository.root
  absolutePath record.repository.gitDir
  absolutePath record.repository.commonDir
  record.commit.forM objectId
  ensure (!record.cleanupAcknowledged || record.state == .unknown)
    "cleanup acknowledgment belongs only to an unknown Git outcome"

def validateRecords (formats : GitFormats) (seen : List String) : List GitRecord → Result Unit
  | [] => .ok ()
  | record :: rest => do
    record.validate formats seen
    validateRecords formats (record.id :: seen) rest

def GitLedger.validate (formats : GitFormats) (ledger : GitLedger) : Result Unit := do
  ensure (ledger.schema == 1 && ledger.operations.length ≤ maxOperations)
    "unsupported or oversized Git operation ledger; preserved"
  validateRecords formats [] ledger.operations

/-! ## Data -/

structure GitRepo where
  binding : Repository
  environment : List (String × String)
  environmentDigest : String
  generation : String
  service : Option String
  busy : Option String
  touched : Nat
deriving DecidableEq, Repr

structure GitContextInfo where
  id : String
  projectId : String
  repository : Repository
  primary : Bool
deriving DecidableEq, Repr

structure ContextRecord where
  info : GitContextInfo
  client : String
  repository : PathBuf
  generation : String
  ready : Bool
  touched : Nat
deriving DecidableEq, Repr

/-- What `execute_with` reads of a `GitOperationPreview`. -/
structure OperationPreview where
  id : String
  kind : OperationKind
  repository : Repository
  before : Revision
deriving DecidableEq, Repr

/-- `requires_source_lease`, as `plan` sets it. -/
def OperationPreview.requiresSourceLease (preview : OperationPreview) : Bool :=
  preview.kind == .switchBranch || preview.kind == .pullFastForward

/-- `GitOperationPlan` without the state that its clones share. -/
structure OperationPlan where
  preview : OperationPreview
  service : String
deriving DecidableEq, Repr

inductive Task where
  | openContext
  | other (name : String)
deriving DecidableEq, Repr

/-- What a read worker hands back; only plans are kept for later. -/
inductive Payload where
  | openContext
  | plan (plan : OperationPlan)
  | display (content : String)
deriving DecidableEq, Repr

inductive GitValue where
  | openContext (info : GitContextInfo)
  | plan (preview : OperationPreview)
  | display (content : String)
deriving DecidableEq, Repr

inductive JobState where
  | pending
  | running
  | ready
  | failed
deriving DecidableEq, Repr

def JobState.isOpen : JobState → Bool
  | .pending | .running => true
  | .ready | .failed => false

structure GitJobInfo where
  id : String
  contextId : Option String
  state : JobState
  result : Option GitValue
  error : Option String
deriving DecidableEq, Repr

structure Job where
  info : GitJobInfo
  client : String
  project : String
  repository : PathBuf
  generation : String
  task : Option Task
  created : Nat
  bytes : Nat
deriving DecidableEq, Repr

structure Plan where
  context : String
  client : String
  repository : PathBuf
  generation : String
  value : OperationPlan
  created : Nat
  bytes : Nat
deriving DecidableEq, Repr

inductive GitTask where
  | openContext (project : String) (repository : Option PathBuf) (env : List (String × String))
  | other (context : String)
deriving DecidableEq, Repr

/-! ## The workers' channels -/

structure ReadWork where
  id : String
  binding : Repository
  service : Option String
  environment : List (String × String)
  task : Task
deriving DecidableEq, Repr

structure ExecuteWork where
  id : String
  service : String
  plan : OperationPlan
  rows : Nat
  cols : Nat
deriving DecidableEq, Repr

inductive Event where
  | read (id : String) (service : Option String) (result : Result Payload)
  | terminal (id : String) (pid : Host.Pid)
  | executed (id : String) (result : Result OperationResult)

/-- The channels, each oldest first, and the live counts of the pools. -/
structure Workers where
  reads : List ReadWork
  executions : List ExecuteWork
  events : List Event
  readAlive : Nat
  executeAlive : Nat

/-- `sync_channel(8)`, whose receiver lives in the read pool. -/
def Workers.acceptsRead (workers : Workers) : Bool :=
  workers.reads.length < 8 && 0 < workers.readAlive

/-- `sync_channel(4)`. -/
def Workers.acceptsExecution (workers : Workers) : Bool :=
  workers.executions.length < 4 && 0 < workers.executeAlive

structure Bridge where
  instanceId : String
  gate : SourceGate
  repos : PathMap GitRepo
  contexts : BTreeMap ContextRecord
  jobs : BTreeMap Job
  queue : List String
  plans : BTreeMap Plan
  operations : BTreeMap Operation
  workers : Workers
  reading : Nat
  readsDead : Bool
  executionsDead : Bool
  /-- What the ledger file has held, newest first. -/
  durable : List GitLedger

/-- What the clock, the disk and the worker's data answer to one step. -/
structure Answers where
  now : Nat
  newId : String
  /-- `write_state`; when it fails, the new content may be in place. -/
  write : Result Unit
  replaced : Bool
  /-- `read_state`. -/
  read : Result Unit
  /-- `FileLock::acquire_shared` of `run-use.lock`. -/
  runUse : Result Unit
  /-- The binding of a project and selection, and whether it is the primary one. -/
  binding : Result (Repository × Bool)
  validate : Result Unit
  resolve : Result Task
  /-- The serialized length of the value at hand. -/
  size : Nat
  /-- `request_host_close`, `input` and `resize` of a terminal. -/
  terminal : Result Unit

abbrev Op (α : Type) := Procedure String Answers Bridge α

variable (formats : GitFormats)

/-- `iter().filter(eligible).min_by_key(age)`: the first of the smallest. -/
def oldest {κ α : Type} (eligible : κ → α → Bool) (age : α → Nat) (entries : List (κ × α)) :
    Option κ :=
  let older (best : Option (κ × α)) (entry : κ × α) : Option (κ × α) :=
    if eligible entry.1 entry.2 then
      match best with
      | none => some entry
      | some other => if age entry.2 < age other.2 then some entry else some other
    else best
  (entries.foldl older none).map (·.1)

def sumBytes {α : Type} (bytes : α → Nat) (entries : BTreeMap α) : Nat :=
  (entries.toList.map fun entry => bytes entry.2).sum

/-- `bounded(value)`. -/
def bounded (size : Nat) : Result Nat := do
  ensure (size ≤ maxValue)
    "Git result exceeds the 3 MiB display/cache limit; no full result is claimed"
  pure size

namespace Bridge

def occupied (bridge : Bridge) : Nat :=
  (bridge.operations.toList.filter (·.2.active)).length

/-- Some queued job is for the repository. -/
def queued (bridge : Bridge) (key : PathBuf) : Bool :=
  bridge.queue.any fun id => bridge.jobs[id]?.any (·.repository == key)

def record (operation : Operation) : GitRecord where
  id := operation.info.id
  contextId := operation.info.contextId
  projectId := operation.info.projectId
  repository := operation.info.repository
  kind := operation.info.kind
  state := operation.info.state
  cleanupAcknowledged := operation.info.cleanupAcknowledged
  outcome := operation.info.result.map (·.outcome)
  exitCode := operation.info.result.bind (·.exitCode)
  commit := operation.info.result.bind (·.commit)
  error := operation.info.error

def ledger (bridge : Bridge) : GitLedger where
  schema := 1
  operations := bridge.operations.toList.map fun entry => record entry.2

def unresolved (operation : Operation) : Bool :=
  operation.info.state == .unknown && !operation.info.cleanupAcknowledged

def unresolvedSources (bridge : Bridge) : List (PathBuf × String) :=
  (bridge.operations.toList.filter fun entry => unresolved entry.2).map fun entry =>
    (entry.2.info.repository.identity, entry.2.info.id)

/-! ### Changes of the state -/

def stored (bridge : Bridge) : Bridge := { bridge with durable := bridge.ledger :: bridge.durable }

def setOperation (id : String) (operation : Operation) (bridge : Bridge) : Bridge :=
  { bridge with operations := bridge.operations.insert id operation }

def modifyOperation (id : String) (change : Operation → Operation) (bridge : Bridge) : Bridge :=
  { bridge with operations := bridge.operations.modify id change }

def removeOperation (id : String) (bridge : Bridge) : Bridge :=
  { bridge with operations := bridge.operations.erase id }

def setJob (id : String) (job : Job) (bridge : Bridge) : Bridge :=
  { bridge with jobs := bridge.jobs.insert id job }

def removeJob (id : String) (bridge : Bridge) : Bridge :=
  { bridge with jobs := bridge.jobs.erase id }

def setRepo (key : PathBuf) (repo : GitRepo) (bridge : Bridge) : Bridge :=
  { bridge with repos := bridge.repos.insert key repo }

/-- `repos.get_mut(key).busy = busy`. -/
def setBusy (key : PathBuf) (busy : Option String) (bridge : Bridge) : Bridge :=
  { bridge with repos := bridge.repos.modify key fun repo => { repo with busy := busy } }

/-- `if repo.busy == Some(id) { repo.busy = None }`. -/
def clearBusy (key : PathBuf) (id : String) (bridge : Bridge) : Bridge :=
  { bridge with repos := bridge.repos.modify key fun repo =>
    if repo.busy = some id then { repo with busy := none } else repo }

/-- `invalidate_repo`. -/
def invalidateRepo (key : PathBuf) (bridge : Bridge) : Bridge :=
  { bridge with
    contexts := bridge.contexts.filter fun _ context => context.repository != key
    plans := bridge.plans.filter fun _ plan => plan.repository != key }

def removeRepo (key : PathBuf) (bridge : Bridge) : Bridge :=
  { bridge.invalidateRepo key with repos := bridge.repos.erase key }

/-- `prune`. -/
def prune (now : Nat) (bridge : Bridge) : Bridge :=
  let jobs := bridge.jobs.filter fun _ job => job.info.state.isOpen || now - job.created < tokenTtl
  { bridge with
    plans := bridge.plans.filter fun _ plan =>
      now - plan.created < tokenTtl && bridge.contexts.contains plan.context
    jobs := jobs
    contexts := bridge.contexts.filter fun id context =>
      now - context.touched < tokenTtl ||
        jobs.toList.any (fun entry =>
          entry.2.info.contextId == some id && entry.2.info.state.isOpen) ||
        bridge.operations.toList.any fun entry =>
          entry.2.active && entry.2.info.contextId == id }

end Bridge

open Bridge

/-! ## Writing -/

def persist : Op Unit := do
  let answers ← answer
  match answers.write with
  | .ok () => update stored
  | .error error =>
    if answers.replaced then update stored
    fail error

def operationOf (id : String) : Op Operation := do
  let bridge ← current
  context bridge.operations[id]? "Git operation is unknown or its completed history expired"

/-! ## Reading jobs -/

/-- `context`: the record, once its binding is found to be the saved one. -/
def contextOf (id client : String) : Op ContextRecord := do
  let bridge ← current
  let record ← context bridge.contexts[id]? ("Git context expired or its environment changed; " ++
    "reopen Git with the current frontend environment")
  ensure (record.client == client && record.ready)
    "Git context belongs to another client or is still opening"
  let repo ← context bridge.repos[record.repository]? "Git repository context expired"
  ensure (repo.generation == record.generation) "Git environment changed; review again"
  let answers ← answer
  let (binding, _) ← answers.binding
  ensure (binding == record.info.repository)
    "project Git binding changed; reopen its context before another operation"
  return record

/-- One round of the loop of `job_capacity`. -/
def evictJob : Op Bool := do
  let bridge ← current
  if 128 ≤ bridge.jobs.size || cacheBytes < sumBytes (·.bytes) bridge.jobs + maxValue then
    let id ← context (oldest (fun _ job => !job.info.state.isOpen) (·.created) bridge.jobs.toList)
      "Git job cache is full; no request accepted"
    update (removeJob id)
    return true
  else
    return false

def jobCapacity : Op Unit := do
  let answers ← answer
  update (prune answers.now)
  let bridge ← current
  iterate evictJob (bridge.jobs.size + 1)
  let bridge ← current
  ensure (bridge.queue.length + bridge.reading < 32)
    "Git preparation queue is full; no request accepted"

/-- A slot of the binding's repository with another binding or environment goes. -/
def replaceRepo (binding : Repository) (digest : String) : Op Unit := do
  let bridge ← current
  if let some repo := bridge.repos[binding.gitDir]? then
    if repo.environmentDigest != digest || repo.binding != binding then
      ensure (repo.busy.isNone && !bridge.queued binding.gitDir)
        ("Git repository is busy with its accepted environment; finish that work before " ++
          "opening with changed authentication/helper references")
      update (removeRepo binding.gitDir)

/-- Room for one more repository. -/
def repoCapacity : Op Unit := do
  let bridge ← current
  if 16 ≤ bridge.repos.size then
    let victim ← context
      (oldest (fun key repo => repo.busy.isNone && !bridge.queued key) (·.touched)
        bridge.repos.toList)
      "all Git repository slots are busy"
    update (removeRepo victim)

/-- The repository slot of an opened context. -/
def openRepo (binding : Repository) (env : List (String × String)) : Op Unit := do
  let digest := formats.environmentDigest env
  replaceRepo binding digest
  let bridge ← current
  if bridge.repos[binding.gitDir]?.isNone then
    repoCapacity
    let answers ← answer
    update (setRepo binding.gitDir {
      binding := binding
      environment := env
      environmentDigest := digest
      generation := answers.newId
      service := none
      busy := none
      touched := answers.now })

/-- Room for one more context. -/
def contextCapacity : Op Unit := do
  let bridge ← current
  if 256 ≤ bridge.contexts.size then
    let eligible (id : String) (_ : ContextRecord) : Bool :=
      !bridge.jobs.toList.any (fun entry =>
        entry.2.info.contextId == some id && entry.2.info.state.isOpen) &&
      !bridge.operations.toList.any fun entry =>
        entry.2.active && entry.2.info.contextId == id
    let victim ← context (oldest eligible (·.touched) bridge.contexts.toList)
      "Git context capacity reached"
    update fun bridge => { bridge with contexts := bridge.contexts.erase victim }

/-- Where a submitted task belongs: context, project, repository, generation and the task. -/
structure Target where
  context : String
  project : String
  repository : PathBuf
  generation : String
  task : Task

def targetOf (client : String) : GitTask → Op Target
  | .openContext project _ env => do
    let answers ← answer
    let (binding, primary) ← answers.binding
    openRepo formats binding env
    contextCapacity
    let answers ← answer
    let bridge ← current
    let repo ← context bridge.repos[binding.gitDir]? "Git repository context expired"
    update fun bridge => { bridge with contexts := bridge.contexts.insert answers.newId {
      info := ⟨answers.newId, project, binding, primary⟩
      client := client
      repository := binding.gitDir
      generation := repo.generation
      ready := false
      touched := answers.now } }
    return ⟨answers.newId, project, binding.gitDir, repo.generation, .openContext⟩
  | .other id => do
    let record ← contextOf id client
    let answers ← answer
    let task ← answers.resolve
    update fun bridge => { bridge with contexts := bridge.contexts.modify id fun record =>
      { record with touched := answers.now } }
    return ⟨id, record.info.projectId, record.repository, record.generation, task⟩

def submit (client : String) (task : GitTask) : Op GitJobInfo := do
  let answers ← answer
  answers.validate
  jobCapacity
  let target ← targetOf formats client task
  let answers ← answer
  let info : GitJobInfo := ⟨answers.newId, some target.context, .pending, none, none⟩
  update (setJob answers.newId {
    info := info
    client := client
    project := target.project
    repository := target.repository
    generation := target.generation
    task := some target.task
    created := answers.now
    bytes := 512 })
  update fun bridge => { bridge with queue := bridge.queue ++ [answers.newId] }
  return info

/-! ## Executing plans -/

/-- A finished operation whose record may make room for another one. -/
def evictable (operation : Operation) : Bool :=
  !operation.active && (operation.info.state == .complete ||
    operation.info.state == .unknown && operation.info.cleanupAcknowledged)

/-- Room for one more operation. -/
def operationCapacity : Op Unit := do
  let bridge ← current
  if maxOperations ≤ bridge.operations.size then
    let victim ← context
      (oldest (fun _ operation => evictable operation) (·.finishedAt.getD 0)
        bridge.operations.toList)
      ("Git history capacity is occupied by unresolved outcomes; " ++
        "inspect them before new operations")
    update (removeOperation victim)

def newOperation (bridge : Bridge) (id : String) (plan : Plan) (record : ContextRecord)
    (repo : GitRepo) : Operation :=
  .new {
    id := id
    contextId := plan.context
    projectId := record.info.projectId
    repository := repo.binding
    hostInstance := bridge.instanceId
    kind := plan.value.preview.kind
    state := .pending
    cleanupAcknowledged := false
    owner := none
    inputEpoch := 0
    generation := 0
    terminalAvailable := false
    result := none
    error := none }

/-- The checks of `execute`, in their order, up to the new operation. -/
def admission (client id : String) (shells : Nat) : Op (Plan × String × Operation) := do
  let answers ← answer
  update (prune answers.now)
  let bridge ← current
  ensure (bridge.occupied < 4 && bridge.occupied + shells < maxTerminals)
    "owned Git/terminal process capacity reached"
  operationCapacity
  let bridge ← current
  let plan ← context bridge.plans[id]?
    "Git plan expired or is unknown; review again; no command was replayed"
  ensure (plan.client == client && answers.now - plan.created < tokenTtl)
    "Git plan belongs to another client or expired"
  let record ← contextOf plan.context client
  ensure (record.generation == plan.generation) "Git environment changed since planning"
  let repo ← context bridge.repos[plan.repository]? "Git repository context expired"
  ensure (repo.busy.isNone && !bridge.queued plan.repository)
    "repository has another active/pending Git request; wait for its result"
  let service ← context repo.service "Git repository service is not ready"
  return (plan, service, newOperation bridge id plan record repo)

/-- The durable operation is handed to an executor. -/
def dispatch (id service : String) (plan : Plan) (rows cols : Nat) : Op Unit := do
  update fun bridge => { bridge with plans := bridge.plans.erase id }
  update (setBusy plan.repository (some id))
  let bridge ← current
  if bridge.workers.acceptsExecution then
    update fun bridge => { bridge with workers.executions :=
      bridge.workers.executions ++ [⟨id, service, plan.value, rows, cols⟩] }
  else
    let answers ← answer
    update (setBusy plan.repository none)
    update (modifyOperation id (·.finish answers.now
      (.error "Git execution worker is unavailable; no child was started")))
    let _ ← attempt persist

/-- `execute`; the run-use lock is held from the answer on, by the work once it is sent. -/
def execute (client id : String) (rows cols shells : Nat) : Op OperationInfo := do
  let bridge ← current
  if let some operation := bridge.operations[id]? then
    return operation.info
  let answers ← answer
  answers.runUse
  let (plan, service, operation) ← admission client id shells
  update (setOperation id operation)
  match ← attempt persist with
  | .error error =>
    update (removeOperation id)
    fail error
  | .ok () =>
    dispatch id service plan rows cols
    let operation ← operationOf id
    return operation.info

/-! ## Requests about an operation -/

inductive OperationRequest where
  | attach (takeover : Bool)
  | detach (epoch : Nat)
  | input (epoch bytes : Nat)
  | resize (epoch : Nat)
  | cancel (epoch : Nat) (force : Bool)
  | reconcile (repository : Repository)
deriving DecidableEq, Repr

/-- `MAX_INPUT_PACKET`. -/
def maxInputPacket : Nat := 64 * 1024

def reconciled (operation : Operation) : Operation :=
  { operation with
    info.cleanupAcknowledged := true
    info.error := some ("user confirmed old process cleanup; Git outcome remains unknown, " ++
      "inspect local and remote state") }

def reconcile (id : String) (repository : Repository) : Op Unit := do
  let saved ← operationOf id
  ensure (saved.info.state == .unknown && !saved.active && !saved.info.terminalAvailable)
    "only a recovered unknown Git operation can be reconciled"
  ensure (saved.info.repository == repository)
    "Git reconciliation target changed; review the exact operation and repository"
  update (setOperation id (reconciled saved))
  match ← attempt persist with
  | .error error =>
    update (setOperation id saved)
    fail error
  | .ok () =>
    update fun bridge => { bridge with gate := bridge.gate.unblock repository.identity id }

def cancelOperation (client id : String) (epoch : Nat) (force : Bool) : Op Unit := do
  let operation ← operationOf id
  let answers ← answer
  let (operation, result) := operation.cancel client epoch force answers.terminal
  update (setOperation id operation)
  result
  match ← attempt persist with
  | .ok () => pure ()
  | .error _ =>
    update (setOperation id (operation.noted
      "Git cancellation requested, but durable state could not be saved"))

/-- A request about an operation, by its client. -/
def operationRequest (client id : String) : OperationRequest → Op Unit
  | .attach takeover => do
    let operation ← operationOf id
    let operation ← operation.attach client takeover
    update (setOperation id operation)
  | .detach epoch => do
    let operation ← operationOf id
    let operation ← operation.detach client epoch
    update (setOperation id operation)
  | .input epoch bytes => do
    ensure (bytes ≤ maxInputPacket) "Git operation input exceeds 64 KiB"
    let operation ← operationOf id
    let _ ← operation.input client epoch
    let answers ← answer
    answers.terminal
  | .resize epoch => do
    let operation ← operationOf id
    match ← operation.resize client epoch with
    | none => pure ()
    | some _ =>
      let answers ← answer
      answers.terminal
  | .cancel epoch force => cancelOperation client id epoch force
  | .reconcile repository => reconcile id repository

end Idk.Git
