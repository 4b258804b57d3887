import Idk.Host.World
import Idk.Logic.Tables
import Idk.Verified.Git.Admission

/-!
# What the actor can do

`Slot.Step` says once what can happen to one session, `Change` what can happen to the
actor between two points of a procedure; the loops and branches of the source are gone.
Every invariant of the host is derived from them, and the procedures of the actor are
shown to be sequences of changes in `Idk.Verified.Host.Moves`.

What is made and taken back before anything else happens is one change: the session that
could not be recorded, or whose work was not accepted.
-/

namespace Idk.Host

open Idk.Logic
open Model (TerminalDefinition)
open Relation (ReflTransGen)
open Actor

/-! ## One session -/

/-- What is known of the procedure that runs. -/
structure Scope where
  /-- The runs that were begun for sessions. -/
  begun : String → Option String
  /-- The terminals it may start, by project. -/
  starts : String → String → Prop
  /-- It serves a client. -/
  asked : Prop
  /-- The sessions whose bootstrap text may fail to be written. -/
  unwritten : String → Prop
  /-- The sessions whose leader may be reaped. -/
  reaps : String → Prop
  /-- The runs and editors that the death of the preparation worker may strike. -/
  sweeps : String → Prop
  /-- A process may be accepted for a session that no longer waits for one. -/
  revives : Prop

/-- The session that a piece of work has to answer for. -/
def Work.session : Work → Option String
  | .request _ _ session _ => session
  | _ => none

/-- The session that the answer to a request is about. -/
def RunEvent.answered (event : RunEvent) : Option String :=
  if event.jobId.isSome then event.sessionId else none

/-- The sessions whose preparation has not been heard of. -/
def Actor.outstanding (actor : Actor) : List String :=
  (actor.launching.jobs.map (·.session) ++ actor.launching.results.map (·.session)) ++
    (actor.runs.working.filterMap Work.session ++ actor.runs.events.filterMap RunEvent.answered)

/-- The session waits for its process, and what has just been heard was the last of it. -/
def Slot.Awaited (scope : Scope) (actor : Actor) (session : String) (slot : Slot) : Prop :=
  scope.revives ∨ slot.preparing = true ∧ session ∉ actor.outstanding

variable (isUuid : IsUuid) (scope : Scope)

namespace Slot

/-- One change of the slot of `session` while the actor is `actor`. -/
inductive Step (actor : Actor) (session : String) : Slot → Slot → Prop where
  /-- Only what is shown of the session, and the force of a close that was asked for. -/
  | noted {slot : Slot} {generation : Nat} {error : Option String}
      {initialization : Option InitializationState} {cwd : Option OsPath}
      {frozen : Option Git.TerminalSnapshot} {force : Bool} :
      Step actor session slot
        { slot with
          info.generation := generation
          info.error := error
          info.initialization := initialization
          info.cwd := cwd
          frozen := frozen
          cleanup.force := force }
  | inventoried {slot : Slot} {host : Pid} {answer : Pid → ChildAnswer} {report : Report}
      {anchor : Anchor} (heard : .reported report ∈ actor.history) (member : anchor ∈ report.anchors)
      (named : anchor.session = session) (about : slot.answers anchor = true) :
      Step actor session slot (slot.inventory actor.runsDead host answer report anchor).1
  | detached {slot after : Slot} {client : String} {epoch : Nat}
      (done : slot.detach client epoch = .ok after) : Step actor session slot after
  | requested {slot : Slot} {force : Bool} {now : Nat} (live : slot.isLive = true) :
      Step actor session slot (slot.requested force now)
  | cancelAsked {slot : Slot} : Step actor session slot { slot with runCancelPending := true }
  | unprepared {slot : Slot} {cancelled : Bool} {error : String} {now : Nat}
      (kind : slot.purpose.isTerminal = true) (awaited : slot.Awaited scope actor session) :
      Step actor session slot (slot.unprepared cancelled error now)
  | accepted {slot : Slot} {runtime : Runtime} (prepared : runtime.Prepared)
      (awaited : slot.Awaited scope actor session) :
      Step actor session slot
        (slot.accepted runtime (actor.isCancelled slot.cancel || actor.quiescing))
  | uninitialized {slot : Slot} {cancelled : Bool} {now : Nat}
      (running : slot.runtime.isSome = true) :
      Step actor session slot (slot.uninitialized cancelled now)
  | bootstrapTaken {slot : Slot} : Step actor session slot slot.bootstrapTaken
  | unbootstrapped {slot : Slot} {error : String} {now : Nat}
      (running : slot.runtime.isSome = true) :
      Step actor session slot (slot.unbootstrapped error now)
  | named {slot : Slot} {run : RunInfo} (of : scope.begun session = some run.runId)
      (reported : ReportedRun isUuid run) (kind : slot.purpose.isRun = true) :
      Step actor session slot (slot.nameRun run)
  | placeholder {slot : Slot} {now : Nat} (kind : slot.purpose.isTerminal = false)
      (awaited : slot.Awaited scope actor session) :
      Step actor session slot (slot.placeholder now)
  | unstarted {slot : Slot} {cancelled : Bool} {run : Option RunInfo} {error : Option String}
      {now : Nat} (preparing : slot.preparing = true) (kind : slot.purpose.isTerminal = false)
      (awaited : slot.Awaited scope actor session)
      (of : ∀ found, run = some found → scope.begun session = some found.runId ∧
        ReportedRun isUuid found ∧ slot.purpose.isRun = true) :
      Step actor session slot (slot.unstarted cancelled run error now)
  | cancelConfirmed {slot : Slot} : Step actor session slot slot.cancelConfirmed
  | retried {slot : Slot} {cancel : Bool} {error : String} {now : Nat} :
      Step actor session slot (slot.retried cancel error now)
  | exited {slot : Slot} {exit : TerminalExit} {now : Nat} (running : slot.runtime.isSome = true)
      (seen : slot.info.exit = none →
        .exited session (slot.runtime.bind (·.childPid)) ∈ actor.history) :
      Step actor session slot (slot.observeExit exit now)
  | reaped {slot : Slot} {exit : TerminalExit} (observed : slot.info.exit.isSome = true)
      (clean : slot.cleanup.done = true) (running : slot.runtime.isSome = true)
      (allowed : scope.reaps session) : Step actor session slot (slot.reaped exit)
  | forgotten {slot : Slot} (ended : slot.isLive = false) (transient : slot.transient = true) :
      Step actor session slot { slot with purpose := .terminal none }

/-- What one change of the actor does to the slot of `session`. -/
inductive Moved (actor : Actor) (session : String) (slot : Slot) : Slot → Prop where
  | steps {after : Slot} (moves : ReflTransGen (Step isUuid scope actor session) slot after) :
      Moved actor session slot after
  | attached {client : String} {takeover : Bool} {after : Slot}
      (done : slot.attach client takeover = .ok after) : Moved actor session slot after
  | finishing {runId : String} {now : Nat} (owed : slot.toFinish now = some runId) :
      Moved actor session slot { slot with runFinalization := .inFlight }
  | finishAnswered {succeeded : Bool} (kind : slot.purpose.isRun = true) :
      Moved actor session slot (slot.finishAnswered succeeded)
  | runsDied {now : Nat} : Moved actor session slot (slot.runsDied now)
  | launchDied {now : Nat}
      (hits : slot.preparing = true → slot.purpose.isTerminal = true ∨ scope.sweeps session) :
      Moved actor session slot (slot.launchDied now)

end Slot

/-- The sessions are the same, each after some steps. -/
def SlotsMove (actor : Actor) (slots : BTreeMap Slot) : Prop :=
  ∀ key : String, Option.Rel (ReflTransGen (Slot.Step isUuid scope actor key))
    actor.slots[key]? slots[key]?

/-! ## Starting a terminal -/

/-- What becomes of a batch while terminals are started. -/
structure Batch.Follows (before after : Batch) (quiescing : Bool) : Prop where
  project : after.info.projectId = before.info.projectId
  remaining : after.info.remaining ⊆ before.info.remaining
  sessions : after.info.sessions = before.info.sessions ∨ quiescing = false

namespace Actor

/-- A terminal is started, in the place of the ended session `previous` if there is one. -/
structure Starts (actor : Actor) (project : String) (terminal : TerminalDefinition)
    (previous : Option String) : Prop where
  serving : actor.quiescing = false
  alive : actor.launchDead = false
  room : actor.occupied < maxTerminals
  tracked : previous.isSome = true ∨ actor.slots.size < hostRecordLimit
  alone : previous = none → ∀ (key : String) (slot : Slot), actor.slots[key]? = some slot →
    slot.info.projectId = project → slot.info.terminalId ≠ terminal.id
  ended : ∀ key, previous = some key → ∃ slot, actor.slots[key]? = some slot ∧
    slot.info.projectId = project ∧ slot.info.terminalId = terminal.id ∧
    slot.isLive = false ∧ slot.runtime = none
  projectId : isUuid project = true
  terminalId : isUuid terminal.id = true
  named : validName terminal.name = .ok ()
  foreign : actor.Foreign terminal.id
  allowed : scope.starts project terminal.id

/-- The new session of a terminal is there, and about to be recorded. -/
def opened (actor : Actor) (project : String) (terminal : TerminalDefinition)
    (previous : Option String) : Actor :=
  let session := actor.ids actor.nextId
  let info := SessionInfo.new actor.hostInstance session project terminal.id terminal.name
    terminal.persistent
  let opened := { actor with
    slots := (previous.elim actor.slots actor.slots.erase).insert session
      (.new info (.terminal (some terminal)) session)
    nextId := actor.nextId + 1 }
  record (.persisted opened.ledger) opened

end Actor

/-- Starting a terminal for a client or for a batch. -/
inductive Opening (actor : Actor) : Actor → Prop where
  | drew : Opening actor { actor with nextId := actor.nextId + 1 }
  | saved : Opening actor (actor.record (.persisted actor.ledger))
  | started {project : String} {terminal : TerminalDefinition} {previous : Option String}
      (starts : actor.Starts isUuid scope project terminal previous)
      (worked : actor.launching.alive = true) :
      Opening actor { actor.opened project terminal previous with
        launching.jobs := actor.launching.jobs ++
          [⟨actor.ids actor.nextId, project, terminal, actor.ids actor.nextId⟩] }
  /-- The record could not be saved, or nobody takes the work. -/
  | startFailed {project : String} {terminal : TerminalDefinition} {previous : Option String}
      {slots : BTreeMap Slot} (starts : actor.Starts isUuid scope project terminal previous)
      (same : ∀ key : String, slots[key]? = actor.slots[key]?) :
      Opening actor { actor.opened project terminal previous with slots := slots }
  | batched {batches : BTreeMap Batch} {lastBatchTick : Nat}
      (follow : ∀ (id : String) (batch : Batch), batches[id]? = some batch →
        (∃ before, actor.batches[id]? = some before ∧ before.Follows batch actor.quiescing) ∨
          scope.asked ∧ actor.quiescing = false ∧ isUuid batch.info.projectId = true) :
      Opening actor { actor with batches := batches, lastBatchTick := lastBatchTick }

/-! ## The actor -/

namespace Actor

/-- A run or an editor is asked for. -/
structure Admits (actor : Actor) (project : String) (purpose : SlotPurpose) (name : String)
    (request : RunRequest) : Prop where
  asked : scope.asked
  serving : actor.quiescing = false
  room : actor.occupied < maxTerminals
  tracked : actor.slots.size < hostRecordLimit
  projectId : isUuid project = true
  named : validName name = .ok ()
  kind : (purpose = .run none ∧ ∃ task operation, request = .start project task operation) ∨
    purpose = .editor ∧ ∃ review, request = .editorOpen review

/-- The session of a run or an editor is there, and about to be recorded. -/
def reserved (actor : Actor) (project : String) (purpose : SlotPurpose) (name : String) : Actor :=
  let session := actor.ids actor.nextId
  let info := SessionInfo.new actor.hostInstance session project (actor.ids (actor.nextId + 1))
    name false
  let reserved := setSlot session (.new info purpose session)
    { actor with nextId := actor.nextId + 1 + 1 }
  record (.persisted reserved.ledger) reserved

/-- The results of editor reviews are those there were, or name projects. -/
def Reviews (actor : Actor) (jobs : BTreeMap JobRecord) : Prop :=
  ∀ (id : String) (job : JobRecord) (review project : String), jobs[id]? = some job →
    job.info.result = some (.editorReview review project) → isUuid project = true ∨
      ∃ (other : String) (before : JobRecord), actor.runs.jobs[other]? = some before ∧
        before.info.result = some (.editorReview review project)

/-- What is given to the run worker and belongs to no session. -/
inductive Gives (actor : Actor) : Work → Prop where
  | request {id cancel : String} {request : RunRequest}
      (kind : ∀ project task operation, request ≠ .start project task operation)
      (other : ∀ review, request ≠ .editorOpen review) :
      Gives actor (.request id request none cancel)
  | cancel {runId : String} {level : Bool} : Gives actor (.cancel runId level)

end Actor

inductive Change (actor : Actor) : Actor → Prop where
  | opening {after : Actor} (opening : Opening isUuid scope actor after) : Change actor after
  | slots {slots : BTreeMap Slot} (moves : SlotsMove isUuid scope actor slots) :
      Change actor { actor with slots := slots }
  | cells {cancelled : List String} (kept : actor.cancelled ⊆ cancelled) :
      Change actor { actor with cancelled := cancelled }
  | signalled {session : String} {slot : Slot} (found : actor.slots[session]? = some slot)
      (may : slot.mayClose actor.runsDead = true ∨ slot.purpose.runId = none ∨
        scope.unwritten session) :
      Change actor (actor.record
        (.signalled session slot.purpose.runId slot.runCancelDurable actor.runsDead))
  | leaderExited {session : String} {slot : Slot} (found : actor.slots[session]? = some slot)
      (unseen : slot.info.exit = none) (running : slot.runtime.isSome = true) :
      Change actor (actor.record (.exited session (slot.runtime.bind (·.childPid))))
  | leaderReaped {session : String} {slot : Slot} (found : actor.slots[session]? = some slot)
      (clean : slot.cleanup.done = true) (running : slot.runtime.isSome = true) :
      Change actor (actor.record (.reaped session (slot.runtime.bind (·.childPid))))
  | attached {session client : String} {takeover : Bool} {slot after : Slot}
      (found : actor.slots[session]? = some slot) (done : slot.attach client takeover = .ok after) :
      Change actor (if after.info.inputEpoch != slot.info.inputEpoch then
        record (.granted session client after.info.inputEpoch) (setSlot session after actor)
      else setSlot session after actor)
  | typed {session client : String} {epoch : Nat} {disabled : Bool} {slot : Slot}
      (found : actor.slots[session]? = some slot)
      (accepted : slot.acceptsInput client epoch disabled = .ok ()) :
      Change actor (actor.record (.typed session client epoch))
  | jobs {jobs : BTreeMap JobRecord} (reviews : actor.Reviews isUuid jobs) :
      Change actor { actor with runs.jobs := jobs }
  | gave {work : Work} (gives : actor.Gives work) (worked : actor.runs.alive = true) :
      Change actor { actor with runs := actor.runs.give work }
  | finishSent {session runId : String} {now : Nat} {slot : Slot} {partialOutput : Bool}
      (found : actor.slots[session]? = some slot) (owed : slot.toFinish now = some runId)
      (worked : actor.runs.alive = true) :
      Change actor (record (.finishSent session runId)
        (modifySlot session (fun slot => { slot with runFinalization := .inFlight })
          { actor with
            runs := actor.runs.give
              (.finish session runId slot.info.exit slot.info.error partialOutput) }))
  /-- The answer to `Finish` is taken, for the session if it is still there. -/
  | finishHeard {session : String} {event : RunEvent} {rest : List RunEvent} {pending : Nat}
      (next : actor.runs.events = event :: rest) (of : event.sessionId = some session)
      (finish : event.jobId = none ∧ event.cancel = none)
      (kind : ∀ slot, actor.slots[session]? = some slot → slot.purpose.isRun = true) :
      Change actor (record (.finishAnswered session event.result.toOption.isSome)
        (modifySlot session (·.finishAnswered event.result.toOption.isSome)
          { actor with runs.events := rest, runs.pending := pending }))
  | eventTaken {event : RunEvent} {rest : List RunEvent} {pending : Nat}
      (next : actor.runs.events = event :: rest)
      (other : event.jobId.isSome = true ∨ event.cancel.isSome = true) :
      Change actor { actor with runs.events := rest, runs.pending := pending }
  | runsMarked (lost : actor.runs.alive = false ∧ actor.runs.events = []) :
      Change actor { actor with runs := actor.runs.markDead }
  | runsDied {now : Nat} (dead : actor.runs.dead = true) :
      Change actor { actor with
        runsDead := true
        slots := actor.slots.map fun _ slot => slot.runsDied now }
  | launchTaken {completed : Completed} {rest : List Completed}
      (next : actor.launching.results = completed :: rest) :
      Change actor { actor with launching.results := rest }
  | launchDied {now : Nat} (lost : actor.launching.alive = false ∧ actor.launching.results = [])
      (hits : ∀ (key : String) (slot : Slot), actor.slots[key]? = some slot →
        slot.preparing = true → slot.purpose.isTerminal = true ∨ scope.sweeps key) :
      Change actor { actor with
        launchDead := true
        slots := actor.slots.map fun _ slot => slot.launchDied now }
  | scanned {anchors : List Anchor} {now : Nat}
      (asks : ∀ anchor ∈ anchors, (∃ (key : String) (slot : Slot),
        actor.slots[key]? = some slot ∧ slot.anchor = some anchor) ∨ anchor ∈ actor.git.anchors) :
      Change actor (record (.scanned anchors)
        { actor with
          scanning.scans := actor.scanning.scans ++ [anchors]
          scanInflight := true
          lastScan := now })
  | reported {report : Report} {rest : List Report}
      (next : actor.scanning.reports = report :: rest) :
      Change actor (record (.reported report)
        { actor with scanning.reports := rest, scanInflight := false })
  | scanLost : Change actor { actor with scanInflight := false }
  | git {git : Git.Bridge} (within : actor.quiescing = true → Git.Within actor.git.docket git)
      (grows : actor.git.Grows actor.liveCount git) : Change actor { actor with git := git }
  /-- `close_many`. -/
  | closing {batches : BTreeMap Batch} {quiescing : Bool}
      (follow : ∀ (id : String) (batch : Batch), batches[id]? = some batch →
        ∃ before, actor.batches[id]? = some before ∧ before.Follows batch true)
      (stays : actor.quiescing = true → quiescing = true) :
      Change actor { actor with batches := batches, quiescing := quiescing }
  | admitted {project name : String} {purpose : SlotPurpose} {request : RunRequest}
      (admits : actor.Admits isUuid scope project purpose name request)
      (worked : actor.runs.alive = true) :
      Change actor { actor.reserved project purpose name with
        nextId := actor.nextId + 1 + 1 + 1
        runs :=
          actor.runs.give (.request (actor.ids (actor.nextId + 1 + 1)) request
            (some (actor.ids actor.nextId)) (actor.ids actor.nextId)) }
  /-- The record could not be saved, or nobody takes the work. -/
  | declined {project name : String} {purpose : SlotPurpose} {request : RunRequest}
      {slots : BTreeMap Slot} {nextId : Nat}
      (admits : actor.Admits isUuid scope project purpose name request)
      (same : ∀ key : String, slots[key]? = actor.slots[key]?) (later : actor.nextId ≤ nextId) :
      Change actor { actor.reserved project purpose name with slots := slots, nextId := nextId }
  | retired {session : String}
      (ended : ∀ slot, actor.slots[session]? = some slot → slot.retirable = true) :
      Change actor (actor.removeSlot session)

end Idk.Host
