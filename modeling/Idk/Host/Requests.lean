import Idk.Host.Actor

/-!
# Requests to the host

`start`, `start_saved`, `start_defaults`, `run_request` and `execute` (`host/actor.rs`).  A
reply is what `execute` serializes.
-/

namespace Idk.Host

open Idk.Logic (Procedure)
open Idk.Logic.Procedure (current update answer fail attempt iterate)
open Model (TerminalDefinition)
open Actor

variable (isUuid : IsUuid)

/-! ## Starting a terminal -/

/-- The live session of a terminal that is asked for again, or room to reopen it. -/
def checkReopen (previous : Slot) (reopen : Bool) : Result (Option SessionInfo) :=
  if previous.isLive then do
    ensure (previous.info.state != .closing)
      "terminal is still closing; wait for confirmed exit"
    return some previous.info
  else do
    ensure reopen "terminal previously ended or has unknown state; explicit reopen required"
    return none

/-- The new slot is recorded and its preparation handed to the worker. -/
def schedule (job : LaunchJob) : Act Unit := do
  persist isUuid
  let actor ← current
  let answers ← answer
  ensure (answers.sent && actor.launching.alive)
    "shell preparation queue is full; no shell created"
  update fun actor =>
    { actor with launching.jobs := actor.launching.jobs ++ [job] }

/-- The second half of `start`: `previous` is the ended session that is replaced. -/
def startNew (project : String) (terminal : TerminalDefinition)
    (previous : Option (String × Slot)) : Act SessionInfo := do
  let actor ← current
  ensure (actor.occupied < maxTerminals) "host live terminal limit reached"
  ensure (previous.isSome || actor.slots.size < hostRecordLimit)
    "host tracked terminal capacity reached; existing tombstones preserved"
  let session ← newId
  let info := SessionInfo.new actor.hostInstance session project terminal.id terminal.name
    terminal.persistent
  if let some (id, _) := previous then
    update (removeSlot id)
  update (setSlot session (.new info (.terminal (some terminal)) session))
  match ← attempt (schedule isUuid ⟨session, project, terminal, session⟩) with
  | .ok () => return info
  | .error error =>
    update (removeSlot session)
    if let some (id, slot) := previous then
      update (setSlot id slot)
    let _ ← attempt (persist isUuid)
    fail error

/-- `start`. -/
def start (project : String) (terminal : TerminalDefinition) (reopen : Bool) :
    Act SessionInfo := do
  let actor ← current
  ensure (!actor.quiescing) "host shutdown is in progress; no new terminals accepted"
  ensure (!actor.launchDead)
    "shell preparation worker exited; restart the host for new terminals"
  validName terminal.name
  absolutePath terminal.cwd
  Model.validateSources terminal.sources
  match actor.slotOfTerminal project terminal.id with
  | none => startNew isUuid project terminal none
  | some (id, slot) =>
    match ← checkReopen slot reopen with
    | some info => return info
    | none =>
      ensure slot.runtime.isNone
        "terminal output is still draining; retry explicit reopen shortly"
      startNew isUuid project terminal (some (id, slot))

/-- `workspace.project(project)?`. -/
def projectOf (projects : List Model.Project) (project : String) : Result Model.Project :=
  context (projects.find? (·.id == project)) "project not found"

/-- `start_saved`. -/
def startSaved (project terminal : String) (reopen : Bool) : Act SessionInfo := do
  let actor ← current
  let alive ←
    match actor.slotOfTerminal project terminal with
    | none => pure none
    | some (_, slot) => checkReopen slot reopen
  match alive with
  | some info => return info
  | none =>
    let answers ← answer
    let projects ← answers.load
    let definition ← projectOf projects project
    let terminal ← context (definition.terminals.find? (·.id == terminal))
      "saved terminal definition is unavailable"
    start isUuid project terminal reopen

/-- `Request::StartTransient`. -/
def startTransient (project : String) (terminal : TerminalDefinition) (reopen : Bool) :
    Act SessionInfo := do
  let answers ← answer
  let projects ← answers.load
  ensure (!((projects.filter (·.id == project)).flatMap (·.terminals)).any (·.id == terminal.id))
    "transient ID is already registered; use the saved terminal start operation"
  start isUuid project terminal reopen

/-! ## Default-open batches -/

/-- `MAX_BATCHES`, a literal of `start_defaults`. -/
def maxBatches : Nat := 16

/-- The saved terminals of a project, the default one first. -/
def defaultsOf (project : Model.Project) : List String :=
  let saved := (project.terminals.filter (·.persistent)).map (·.id)
  match project.defaultTerminal with
  | some default => if saved.contains default then default :: saved.erase default else saved
  | none => saved

/-- A finished batch makes room. -/
def evictBatch (batches : BTreeMap Batch) : BTreeMap Batch :=
  if maxBatches ≤ batches.size then
    match batches.toList.find? fun entry => !entry.2.info.state.isOpen with
    | some (id, _) => batches.erase id
    | none => batches
  else batches

/-- `start_defaults`. -/
def startDefaults (project : String) : Act BatchInfo := do
  let actor ← current
  ensure (!actor.quiescing) "host shutdown is in progress"
  match actor.batches.toList.find? fun entry =>
      entry.2.info.projectId == project && entry.2.info.state.isOpen with
  | some (_, batch) => return batch.info
  | none =>
    update fun actor => { actor with batches := evictBatch actor.batches }
    let actor ← current
    ensure (actor.batches.size < maxBatches) "too many active default-open batches"
    let answers ← answer
    let projects ← answers.load
    let definition ← projectOf projects project
    let id ← newId
    let info : BatchInfo := ⟨id, project, .running, [], defaultsOf definition, none, ∅⟩
    update fun actor => { actor with batches := actor.batches.insert id ⟨info, none⟩ }
    return info

def batchOf (id : String) : Act Batch := do
  let actor ← current
  context actor.batches[id]? "default-open batch is unknown"

def setBatch (id : String) (batch : Batch) : Act Unit :=
  update fun actor => { actor with batches := actor.batches.insert id batch }

/-- `Request::ContinueDefaults`. -/
def continueDefaults (id : String) : Act BatchInfo := do
  let batch ← batchOf id
  ensure (batch.info.state == .paused) "default-open batch is not paused"
  let info := { batch.info with waitingSession := none, state := .running }
  setBatch id ⟨info, none⟩
  return info

/-! ## Runs and editors -/

/-- The project and the purpose of the session that a request needs, and its name. -/
def launchOf (client : String) : RunRequest → Act (Option (String × SlotPurpose × String))
  | .start project _ _ => return some (project, .run none, "Task starting")
  | .editorOpen review => do
    let actor ← current
    let time ← now
    let project ← actor.runs.editorProject client review time
    return some (project, .editor, "Editor")
  | _ => return none

/-- The requests that a host in shutdown still accepts. -/
def RunRequest.winding : RunRequest → Bool
  | .info _ | .list _ | .log _ | .cancel .. => true
  | _ => false

/-- The session of a run or an editor is recorded before its work is accepted. -/
def reserveSession (project : String) (purpose : SlotPurpose) (name : String) : Act String := do
  let actor ← current
  ensure (actor.occupied < maxTerminals) "host live terminal limit reached"
  ensure (actor.slots.size < hostRecordLimit) "host tracked terminal limit reached"
  let session ← newId
  let terminal ← newId
  let info := SessionInfo.new actor.hostInstance session project terminal name false
  update (setSlot session (.new info purpose session))
  match ← attempt (persist isUuid) with
  | .ok () => return session
  | .error error =>
    update (removeSlot session)
    fail error

/-- The work of a request, with the session it was given. -/
def submitFor (client : String) (request : RunRequest) (session : Option String) :
    Act RunJob := do
  match ← attempt (submit client request session (session.getD ·)) with
  | .ok job => return job
  | .error error =>
    if let some session := session then
      update (removeSlot session)
      let _ ← attempt (persist isUuid)
    fail error

/-- `RunRequest::CancelJob`. -/
def cancelJob (client id : String) : Act RunJob := do
  let actor ← current
  let (job, cell) ← actor.runs.cancelJob client id
  update (storeCancel cell)
  if let some session := job.sessionId then
    if actor.slots.contains session then
      requestClose session false
  return job

/-- `run_request`. -/
def runRequest (client : String) : RunRequest → Act RunJob
  | .job id => do
    let actor ← current
    actor.runs.job client id
  | .cancelJob id => cancelJob client id
  | request => do
    let actor ← current
    ensure (!actor.quiescing || request.winding)
      "host shutdown in progress; no new run jobs accepted"
    match ← launchOf client request with
    | none => submitFor isUuid client request none
    | some (project, purpose, name) => do
      let session ← reserveSession isUuid project purpose name
      submitFor isUuid client request (some session)

/-! ## Requests -/

/-- The requests of `protocol.rs`, without what is only passed on to a worker. -/
inductive Request where
  | hello
  | list (project : Option String)
  | definition (session : String)
  | start (project terminal : String) (reopen : Bool)
  | startTransient (project : String) (terminal : TerminalDefinition) (reopen : Bool)
  | startDefaults (project : String)
  | batch (id : String)
  | continueDefaults (id : String)
  | cancelDefaults (id : String)
  | attach (session : String) (takeover : Bool)
  | detach (session : String) (epoch : Nat)
  | snapshot (session : String) (since : Option Nat)
  | input (session : String) (data : Option (List UInt8)) (epoch : Nat)
  | resize (session : String) (epoch : Nat)
  | scroll (session : String) (epoch : Nat)
  | search (session : String) (epoch : Nat)
  | close (session : String) (epoch : Nat) (force : Bool)
  | previewClose (project : Option String)
  | closeProject (project : String) (sessions : List String) (force : Bool)
  | shutdown (sessions : List String) (force : Bool)
  | run (request : RunRequest)
  | git (request : Git.GitRequest)

/-- What a request is answered with. -/
inductive Reply where
  | hello
  | sessions (infos : List SessionInfo)
  | definition (terminal : TerminalDefinition)
  | session (info : SessionInfo)
  | batch (info : BatchInfo)
  | snapshot (info : SessionInfo) (screen : Option Git.TerminalSnapshot)
  | done
  | found (reply : String)
  | preview (project : Option String) (targets : List SessionInfo)
      (runs : List (String × Option String))
  | closed (reply : CloseReply)
  | job (job : RunJob)
  | git (reply : Git.GitReply)

/-- The sessions that a reply shows. -/
def Reply.shown : Reply → List SessionInfo
  | .sessions infos => infos
  | .session info | .snapshot info _ => [info]
  | .preview _ targets _ => targets
  | _ => []

/-- Whether `serde` can write a directory: a text in UTF-8. -/
def OsPath.isUtf8 (path : OsPath) : Bool := ByteArray.validateUTF8 ⟨path.toArray⟩

def SessionInfo.writable (info : SessionInfo) : Bool := info.cwd.all OsPath.isUtf8

/-- `value`. -/
def value (reply : Reply) : Act Reply := do
  ensure (reply.shown.all (·.writable)) "path contains invalid UTF-8 characters"
  return reply

/-- `Request::Snapshot`, of the slot's terminal or of its last screen. -/
def snapshotOf (slot : Slot) (since : Option Nat)
    (terminal : Result (Option Git.TerminalSnapshot)) : Result Reply := do
  let screen ←
    match slot.frozen with
    | some screen => pure (if since = some screen.generation then none else some screen)
    | none => if slot.runtime.isSome then terminal else pure none
  let generation :=
    match screen, since with
    | some screen, _ => screen.generation
    | none, some since => since
    | none, none => slot.info.generation
  return .snapshot { slot.info with generation := generation } screen

/-- A request about the terminal of a session, by its owner. -/
def onTerminal (client session : String) (epoch : Nat) : Act HostAnswers := do
  let slot ← slotOf session
  slot.owner client epoch
  ensure slot.runtime.isSome "terminal has no live PTY"
  answer

/-- `Request::Attach`. -/
def attachTo (client session : String) (takeover : Bool) : Act Reply := do
  let before ← slotOf session
  let slot ← before.attach client takeover
  update (setSlot session slot)
  if slot.info.inputEpoch != before.info.inputEpoch then
    update (record (.granted session client slot.info.inputEpoch))
  value (.session slot.info)

/-- `Request::Input`; the data is what its encoding decodes to. -/
def inputTo (client session : String) (data : Option (List UInt8)) (epoch : Nat) : Act Reply := do
  let bytes ← context data "invalid terminal input encoding"
  ensure (bytes.length ≤ Git.maxInputPacket) "terminal input exceeds 64 KiB"
  let slot ← slotOf session
  let answers ← answer
  slot.acceptsInput client epoch answers.logDisabled
  answers.input
  update (record (.typed session client epoch))
  return .done

/-- `Request::Close`. -/
def closeSession (client session : String) (epoch : Nat) (force : Bool) : Act Reply := do
  let slot ← slotOf session
  if slot.isLive then
    slot.owner client epoch
    closeOne isUuid session force
  let slot ← slotOf session
  value (.session slot.info)

/-- `Request::PreviewClose`. -/
def previewClose (project : Option String) : Act Reply := do
  let actor ← current
  actor.git.checkClose project
  let runs := actor.slots.toList.filterMap fun entry =>
    match entry.2.purpose with
    | .run runId =>
      if entry.2.isLive && project.all (· == entry.2.info.projectId) then
        some (entry.2.info.sessionId, runId)
      else none
    | _ => none
  value (.preview project (actor.targets project) runs)

/-- The ordinary terminals of the scope. -/
def Actor.listed (actor : Actor) (project : Option String) : List SessionInfo :=
  (actor.slots.toList.filter fun entry =>
    entry.2.purpose.isTerminal && project.all (· == entry.2.info.projectId)).map (·.2.info)

variable (formats : Git.GitFormats)

/-- `execute`. -/
def execute (client : String) : Request → Act Reply
  | .hello => return .hello
  | .list project => do
    let actor ← current
    value (.sessions (actor.listed project))
  | .definition session => do
    let slot ← slotOf session
    match slot.purpose with
    | .terminal definition => do
      let terminal ← context definition
        "original terminal definition is no longer retained for this ended session"
      return .definition terminal
    | _ => fail "run/editor session has no ordinary shell definition"
  | .start project terminal reopen => do
    let info ← startSaved isUuid project terminal reopen
    value (.session info)
  | .startTransient project terminal reopen => do
    let info ← startTransient isUuid project terminal reopen
    value (.session info)
  | .startDefaults project => do
    let info ← startDefaults project
    return .batch info
  | .batch id => do
    let batch ← batchOf id
    return .batch batch.info
  | .continueDefaults id => do
    let info ← continueDefaults id
    return .batch info
  | .cancelDefaults id => do
    let batch ← batchOf id
    setBatch id (cancelBatch batch)
    return .batch (cancelBatch batch).info
  | .attach session takeover => attachTo client session takeover
  | .detach session epoch => do
    let slot ← slotOf session
    let slot ← slot.detach client epoch
    update (setSlot session slot)
    value (.session slot.info)
  | .snapshot session since => do
    let slot ← slotOf session
    let answers ← answer
    let reply ← snapshotOf slot since answers.snapshotSince
    value reply
  | .input session data epoch => inputTo client session data epoch
  | .resize session epoch => do
    let answers ← onTerminal client session epoch
    answers.resize
    return .done
  | .scroll session epoch => do
    let answers ← onTerminal client session epoch
    answers.scroll
    return .done
  | .search session epoch => do
    let answers ← onTerminal client session epoch
    let found ← answers.search
    return .found found
  | .close session epoch force => closeSession isUuid client session epoch force
  | .previewClose project => previewClose project
  | .closeProject project sessions force => do
    let reply ← closeMany isUuid (some project) sessions force
    return .closed reply
  | .shutdown sessions force => do
    let reply ← closeMany isUuid none sessions force
    return .closed reply
  | .run request => do
    let job ← runRequest isUuid client request
    return .job job
  | .git request => do
    let actor ← current
    let answers ← answer
    let reply ← onGit
      (Git.request formats client actor.liveCount actor.quiescing answers.snapshotSince request)
    return .git reply

end Idk.Host
