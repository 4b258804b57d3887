import Idk.Git.Lives
import Idk.Host.Events
import Idk.Logic.Transition

/-!
# The host among its clients and workers

A host is opened on a stored session ledger.  Requests, ticks and what the workers do
follow in any order; a procedure of the actor is one step, since what a worker does
meanwhile is not looked at before the next one.

A run is begun by the run worker for the session of a start: `begun` is the id it has drawn
for that session.
-/

namespace Idk.Host

open Idk.Logic (System)
open Model (TerminalDefinition)

variable (isUuid : IsUuid)

/-! ## What a request may contain -/

def validateTargets (sessions : List String) : Result Unit := do
  ensure (sessions.length ≤ maxTerminals) "too many close targets"
  sessions.forM (validId isUuid)
  ensure sessions.Nodup "duplicate close target"

def RunRequest.validate : RunRequest → Result Unit
  | .start project task operation => do
    validId isUuid project
    validId isUuid task
    validId isUuid operation
  | .editorOpen review => validId isUuid review
  | .job id | .cancelJob id => validId isUuid id
  | .info run | .log run | .cancel run _ => validId isUuid run
  | .list project => project.forM (validId isUuid)
  | .other _ => .ok ()

/-- `Request::validate`, as far as the fields are modelled. -/
def Request.validate : Request → Result Unit
  | .hello | .git _ => .ok ()
  | .list project | .previewClose project => project.forM (validId isUuid)
  | .start project terminal _ => do
    validId isUuid project
    validId isUuid terminal
  | .startTransient project terminal _ => do
    validId isUuid project
    validId isUuid terminal.id
    ensure (!terminal.persistent) "transient terminal must not be persistent"
  | .startDefaults project => validId isUuid project
  | .batch id | .continueDefaults id | .cancelDefaults id => validId isUuid id
  | .definition session | .attach session _ | .detach session _ | .snapshot session _
  | .input session _ _ | .resize session _ | .scroll session _ | .search session _
  | .close session _ _ => validId isUuid session
  | .closeProject project sessions _ => do
    validId isUuid project
    validateTargets isUuid sessions
  | .shutdown sessions _ => validateTargets isUuid sessions
  | .run request => request.validate isUuid

/-- The terminal that a request names. -/
def Request.terminal? : Request → Option String
  | .start _ terminal _ => some terminal
  | .startTransient _ terminal _ => some terminal.id
  | _ => none

/-! ## Opening -/

/-- One record of the loop of `Actor::new`. -/
def restoreSlot (hostInstance : String) (slots : BTreeMap Slot) (record : HostRecord) :
    Result (BTreeMap Slot) := do
  let purpose ← record.slotPurpose
  let info ← record.restore isUuid hostInstance
  ensure (!slots.toList.any (fun entry => entry.2.info.projectId == info.projectId &&
      entry.2.info.terminalId == info.terminalId) && !slots.contains info.sessionId)
    "duplicate session identity in host ledger; preserved"
  return slots.insert info.sessionId (.restored info purpose info.sessionId)

/-- The slots that `Actor::new` makes of the stored ledger, if there is one. -/
def restoreSlots (hostInstance : String) (ledger : Option HostLedger) : Result (BTreeMap Slot) := do
  match ledger with
  | none => return ∅
  | some ledger => do
    ledger.validate isUuid
    ledger.sessions.foldlM (restoreSlot isUuid hostInstance) ∅

/-- A new host with these sessions; the clock shows `now`. -/
def Actor.new (hostInstance : String) (pid : Pid) (slots : BTreeMap Slot) (git : Git.Bridge)
    (ids : Nat → String) (now : Nat) : Actor where
  hostInstance := hostInstance
  pid := pid
  slots := slots
  batches := ∅
  git := git
  runs := ⟨∅, 0, false, [], [], true⟩
  launching := ⟨[], [], true⟩
  scanning := ⟨[], [], true⟩
  cancelled := []
  runsDead := false
  launchDead := false
  quiescing := false
  lastBatchTick := now
  scanInflight := false
  lastScan := now
  ids := ids
  nextId := 0
  history := []

/-! ## The workers -/

/-- What the run worker may say of a run. -/
structure ReportedRun (run : RunInfo) : Prop where
  runId : isUuid run.runId = true
  name : validName run.name = .ok ()

/-- The digest of a prepared launch, which only an editor has not. -/
def Runtime.Prepared (runtime : Runtime) : Prop :=
  runtime.digest.isEmpty = true ∨ Idk.digest runtime.digest = .ok ()

/-- The events that answer a piece of work; `begun` is the run of a session. -/
inductive RunEvent.Answers (begun : String → Option String) : Work → RunEvent → Prop where
  /-- Nothing was begun, or it was given up. -/
  | refused {id cancel error : String} {request : RunRequest} {session : Option String} :
      Answers begun (.request id request session cancel)
        ⟨some id, session, none, none, .error error, none, true⟩
  /-- The run of an earlier start, also to a start that was attached to it. -/
  | existing {id project task operation cancel : String} {session : Option String}
      {run : RunInfo} {shown : Option RunInfo} :
      Answers begun (.request id (.start project task operation) session cancel)
        ⟨some id, session, none, shown, .ok (.started run true), none, true⟩
  | started {id project task operation session cancel : String} {runtime : Runtime}
      {run : RunInfo} {stopped : Option (String × Bool)} (named : begun session = some run.runId)
      (reported : ReportedRun isUuid run) (prepared : runtime.Prepared)
      (cancels : ∀ request, stopped = some request → request = (run.runId, false)) :
      Answers begun (.request id (.start project task operation) (some session) cancel)
        ⟨some id, some session, some runtime, some run, .ok (.started run false), stopped, true⟩
  /-- A process exists, but it could not be marked as running or cancelled. -/
  | unmarked {id project task operation session cancel error : String} {runtime : Runtime}
      {run : RunInfo} (named : begun session = some run.runId) (reported : ReportedRun isUuid run)
      (prepared : runtime.Prepared) :
      Answers begun (.request id (.start project task operation) (some session) cancel)
        ⟨some id, some session, some runtime, some run, .error error, none, true⟩
  /-- The run was begun, but there is no process. -/
  | unstarted {id project task operation session cancel error : String} {run : RunInfo}
      (named : begun session = some run.runId) (reported : ReportedRun isUuid run) :
      Answers begun (.request id (.start project task operation) (some session) cancel)
        ⟨some id, some session, none, some run, .error error, none, true⟩
  | opened {id review session cancel content : String} {runtime : Runtime}
      (plain : runtime.digest.isEmpty = true) :
      Answers begun (.request id (.editorOpen review) (some session) cancel)
        ⟨some id, some session, some runtime, none, .ok (.other content), none, true⟩
  /-- Every other request, which has no session.  An editor is reviewed for the project of a
      run. -/
  | answered {id cancel : String} {request : RunRequest} {run : Option RunInfo}
      {result : RunResult} {stopped : Option (String × Bool)}
      (plain : existingStart (.ok result) = false)
      (reviewed : ∀ review project, result = .editorReview review project → isUuid project = true)
      (cancels : ∀ target, stopped = some target → request = .cancel target.1 target.2) :
      Answers begun (.request id request none cancel)
        ⟨some id, none, none, run, .ok result, stopped, true⟩
  | cancelled {runId : String} {level : Bool} {session : Option String} {run : Option RunInfo}
      {result : Result RunResult} (of : ∀ name, session = some name → begun name = some runId)
      (plain : existingStart result = false) :
      Answers begun (.cancel runId level)
        ⟨none, session, none, run, result, some (runId, level), true⟩
  | finished {session runId : String} {exit : Option TerminalExit} {error : Option String}
      {partialOutput : Bool} {run : Option RunInfo} {result : Result RunResult}
      (plain : existingStart result = false) :
      Answers begun (.finish session runId exit error partialOutput)
        ⟨none, some session, none, run, result, none, true⟩

/-- The cancellation of a run whose time is over. -/
inductive RunEvent.TimesOut (begun : String → Option String) : RunEvent → Prop where
  | cancelled {runId : String} {session : Option String} {run : Option RunInfo}
      {result : Result RunResult} (of : ∀ name, session = some name → begun name = some runId)
      (plain : existingStart result = false) :
      TimesOut begun ⟨none, session, none, run, result, some (runId, false), false⟩

/-! ## The world -/

structure World where
  actor : Actor
  begun : String → Option String

/-- What the actor and the outside do. -/
inductive HostEvent where
  | requested (client : String) (request : Request) (answers : Nat → HostAnswers)
  | ticked (answers : Nat → HostAnswers)
  | launched (result : Result Runtime)
  | launchDied
  | began (session : String)
  | worked (work : Work) (event : RunEvent)
  | timedOut (event : RunEvent)
  /-- The worker sets the cell of a run that it could not mark as running. -/
  | cellSet (token : String)
  | runsDied
  | scanned (report : Report)
  | scanDied
  /-- The threads of the Git bridge, and the other users of the gate. -/
  | gitMoved (git : Git.Bridge)

namespace Actor

/-- No id that is drawn from now on. -/
def Foreign (actor : Actor) (id : String) : Prop := ∀ index, actor.nextId ≤ index → actor.ids index ≠ id

/-- The workspace that is loaded has passed `Workspace::validate`, and no id in it is drawn
    later. -/
def Loads (actor : Actor) (answers : Nat → HostAnswers) : Prop :=
  ∀ asked projects, (answers asked).load = .ok projects → ∀ project ∈ projects,
    project.validate isUuid = .ok () ∧ ∀ terminal ∈ project.terminals, actor.Foreign terminal.id

/-- The actor after a procedure, whatever it returned. -/
def after {α : Type} (actor : Actor) (op : Act α) (answers : Nat → HostAnswers) : Actor :=
  (op answers 0 actor).state

end Actor

variable (formats : Git.GitFormats)

inductive World.Step : World → HostEvent → World → Prop where
  | requested {world : World} {client : String} {request : Request} {answers : Nat → HostAnswers}
      (valid : request.validate isUuid = .ok ()) (loads : world.actor.Loads isUuid answers)
      (foreign : ∀ terminal, request.terminal? = some terminal → world.actor.Foreign terminal) :
      Step world (.requested client request answers)
        { world with actor := world.actor.after (execute isUuid formats client request) answers }
  | ticked {world : World} {answers : Nat → HostAnswers} (loads : world.actor.Loads isUuid answers) :
      Step world (.ticked answers)
        { world with actor := world.actor.after (tick isUuid) answers }
  | launched {world : World} {job : LaunchJob} {rest : List LaunchJob} {result : Result Runtime}
      (next : world.actor.launching.jobs = job :: rest)
      (prepared : ∀ runtime, result = .ok runtime → runtime.Prepared) :
      Step world (.launched result)
        { world with
          actor.launching.jobs := rest
          actor.launching.results := world.actor.launching.results ++ [⟨job.session, result⟩] }
  | launchDied {world : World} :
      Step world .launchDied
        { world with actor.launching.jobs := [], actor.launching.alive := false }
  | began {world : World} {id project task operation session cancel : String}
      (asked : .request id (.start project task operation) (some session) cancel ∈
        world.actor.runs.working) (new : world.begun session = none) :
      Step world (.began session)
        { actor := { world.actor with nextId := world.actor.nextId + 1 }
          begun := Function.update world.begun session
            (some (world.actor.ids world.actor.nextId)) }
  | worked {world : World} {work : Work} {event : RunEvent}
      (taken : work ∈ world.actor.runs.working) (answers : event.Answers isUuid world.begun work) :
      Step world (.worked work event)
        { world with
          actor.runs.working := world.actor.runs.working.erase work
          actor.runs.events := world.actor.runs.events ++ [event] }
  | timedOut {world : World} {event : RunEvent} (alive : world.actor.runs.alive = true)
      (times : event.TimesOut world.begun) :
      Step world (.timedOut event)
        { world with actor.runs.events := world.actor.runs.events ++ [event] }
  | cellSet {world : World} {token id project task operation session : String}
      (asked : .request id (.start project task operation) (some session) token ∈
        world.actor.runs.working) :
      Step world (.cellSet token) { world with actor := world.actor.storeCancel token }
  | runsDied {world : World} :
      Step world .runsDied { world with actor.runs.working := [], actor.runs.alive := false }
  | scanned {world : World} {anchors : List Anchor} {rest : List (List Anchor)} {report : Report}
      (next : world.actor.scanning.scans = anchors :: rest) (about : report.anchors = anchors) :
      Step world (.scanned report)
        { world with
          actor.scanning.scans := rest
          actor.scanning.reports := world.actor.scanning.reports ++ [report] }
  | scanDied {world : World} :
      Step world .scanDied
        { world with actor.scanning.scans := [], actor.scanning.alive := false }
  | gitMoved {world : World} {git : Git.Bridge}
      (beside : git = { world.actor.git with gate := git.gate, workers := git.workers }) :
      Step world (.gitMoved git) { world with actor.git := git }

/-- A host that has just been opened on a stored ledger, or on none. -/
structure World.Initial (world : World) : Prop where
  begun : ∀ session, world.begun session =
    world.actor.slots[session]?.bind (·.purpose.runId)
  distinct : Function.Injective world.actor.ids
  uuids : ∀ index, isUuid (world.actor.ids index) = true
  opened : ∃ hostInstance pid ledger slots instanceId disk answers ids now,
    restoreSlots isUuid hostInstance ledger = .ok slots ∧
    (Git.openDisk formats instanceId disk answers).result = .ok () ∧
    world.actor = .new hostInstance pid slots (Git.openDisk formats instanceId disk answers).state
      ids now
  /-- No id that is drawn is in the ledger. -/
  foreign : ∀ (key : String) (slot : Slot), world.actor.slots[key]? = some slot →
    world.actor.Foreign key ∧ world.actor.Foreign slot.info.terminalId

/-- All runs of one host. -/
def hostSystem : System World HostEvent where
  init := World.Initial isUuid formats
  step := World.Step isUuid formats

end Idk.Host
