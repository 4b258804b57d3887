import Idk.Host.World
import Idk.Logic.Frames

/-!
# What leaves the default-open batches alone

Only five requests and the end of a tick touch the batches, and only a close begins the
shutdown; everything else the actor does is beside them.
-/

namespace Idk.Host

open Idk.Logic
open Idk.Logic.Procedure (Stays)
open Actor

/-- The batches are the same, and the ids are drawn on. -/
structure Beside (before after : Actor) : Prop where
  batches : after.batches = before.batches
  quiescing : after.quiescing = before.quiescing
  ids : after.ids = before.ids
  nextId : before.nextId ≤ after.nextId

instance : IsPreorder Actor Beside where
  refl _ := ⟨rfl, rfl, rfl, Nat.le_refl _⟩
  trans _ _ _ one two := ⟨two.batches.trans one.batches, two.quiescing.trans one.quiescing,
    two.ids.trans one.ids, one.nextId.trans two.nextId⟩

variable {isUuid : IsUuid}

/-- What only the batches, a shutdown and new ids change. -/
def Actor.shared (actor : Actor) : BTreeMap Batch × Bool × (Nat → String) × Nat :=
  (actor.batches, actor.quiescing, actor.ids, actor.nextId)

theorem Beside.of_shared {actor after : Actor} (same : after.shared = actor.shared) :
    Beside actor after := by
  simp only [Actor.shared, Prod.mk.injEq] at same
  exact ⟨same.1, same.2.1, same.2.2.1, same.2.2.2.ge⟩

/-- Whatever else of the actor changes. -/
theorem besides {change : Actor → Actor} (same : ∀ actor, (change actor).shared = actor.shared) :
    Stays Beside (Procedure.update change : Act Unit) :=
  .update fun actor => .of_shared (same actor)

theorem updating {α : Type} {change : Actor → Actor} {next : Unit → Act α}
    (same : ∀ actor, (change actor).shared = actor.shared) (rest : Stays Beside (next ())) :
    Stays Beside (Procedure.update change >>= next) :=
  (besides same).bind fun _ => rest

/-! ## Small steps -/

theorem slotOf_beside (session : String) : Stays Beside (slotOf session) :=
  .bind .current fun _ => .lift

theorem now_beside : Stays Beside now := .bind .answer fun _ => .value

theorem newId_beside : Stays Beside newId :=
  .bind .current fun _ => .bind (.update fun _ => ⟨rfl, rfl, rfl, Nat.le_succ _⟩) fun _ => .value

theorem persist_beside : Stays Beside (persist isUuid) :=
  .bind .current fun _ => updating (fun _ => rfl) <|
    .bind .lift fun _ => .bind .answer fun _ => .lift

theorem onGit_beside {α : Type} (op : Git.Op α) : Stays Beside (onGit op) :=
  .zoom fun _ _ => .of_shared rfl

theorem updateRuns_beside (change : RunBridge → RunBridge) : Stays Beside (updateRuns change) :=
  besides fun _ => rfl

theorem updateSlot_beside (session : String) (change : Slot → Slot) :
    Stays Beside (updateSlot session change) :=
  besides fun _ => rfl

theorem updateSlots_beside (condition : Slot → Bool) (change : Slot → Slot) :
    Stays Beside (updateSlots condition change) :=
  besides fun _ => rfl

theorem sendWork_beside (work : Work) (full : String) : Stays Beside (sendWork work full) :=
  .bind .current fun _ => .bind .lift fun _ => .bind .answer fun _ => .bind .lift fun _ =>
    updateRuns_beside _

theorem cancelRun_beside (runId : String) (force : Bool) : Stays Beside (cancelRun runId force) :=
  sendWork_beside _ _

theorem rounds_beside {op : Act Unit} (beside : Stays Beside op) (count : Nat) :
    Stays Beside (rounds op count) := by
  induction count with
  | zero => exact .value
  | succ count inductionHypothesis => exact beside.bind fun _ => inductionHypothesis

/-! ## Starting a terminal -/

theorem schedule_beside (job : LaunchJob) : Stays Beside (schedule isUuid job) :=
  persist_beside.bind fun _ => .bind .current fun _ => .bind .answer fun _ => .bind .lift fun _ =>
    besides fun _ => rfl

theorem startNew_beside (project : String) (terminal : Model.TerminalDefinition)
    (previous : Option (String × Slot)) :
    Stays Beside (startNew isUuid project terminal previous) := by
  refine .bind .current fun _ => .bind .lift fun _ => .bind .lift fun _ => ?_
  refine newId_beside.bind fun session => ?_
  have removes (id : String) : Stays Beside (Procedure.update (removeSlot id) : Act Unit) :=
    besides fun _ => rfl
  have sets (id : String) (slot : Slot) :
      Stays Beside (Procedure.update (setSlot id slot) : Act Unit) :=
    besides fun _ => rfl
  have scheduled := (@schedule_beside isUuid ⟨session, project, terminal, session⟩).attempt
  cases previous with
  | none =>
    refine (sets _ _).bind fun _ => scheduled.bind fun outcome => ?_
    cases outcome with
    | ok done => exact .value
    | error error =>
      exact (removes _).bind fun _ => persist_beside.attempt.bind fun _ => .fail
  | some previous =>
    refine (removes _).bind fun _ => (sets _ _).bind fun _ => scheduled.bind fun outcome => ?_
    cases outcome with
    | ok done => exact .value
    | error error =>
      exact (removes _).bind fun _ => (sets _ _).bind fun _ => persist_beside.attempt.bind fun _ =>
        .fail

theorem start_beside (project : String) (terminal : Model.TerminalDefinition) (reopen : Bool) :
    Stays Beside (start isUuid project terminal reopen) := by
  refine .bind .current fun actor => .bind .lift fun _ => .bind .lift fun _ => ?_
  refine .bind .lift fun _ => .bind .lift fun _ => .bind .lift fun _ => ?_
  cases actor.slotOfTerminal project terminal.id with
  | none => exact startNew_beside _ _ _
  | some previous =>
    refine .bind .lift fun current => ?_
    cases current with
    | some info => exact .value
    | none => exact .bind .lift fun _ => startNew_beside _ _ _

theorem startSaved_beside (project terminal : String) (reopen : Bool) :
    Stays Beside (startSaved isUuid project terminal reopen) := by
  have loaded : Stays Beside (do
      let answers ← Procedure.answer
      let projects ← answers.load
      let definition ← projectOf projects project
      let terminal ← context (definition.terminals.find? (·.id == terminal))
        "saved terminal definition is unavailable"
      start isUuid project terminal reopen : Act SessionInfo) :=
    .bind .answer fun _ => .bind .lift fun _ => .bind .lift fun _ => .bind .lift fun _ =>
      start_beside _ _ _
  refine .bind .current fun actor => ?_
  cases actor.slotOfTerminal project terminal with
  | none =>
    refine .bind .value fun alive => ?_
    cases alive with
    | none => exact loaded
    | some info => exact .value
  | some previous =>
    refine .bind .lift fun alive => ?_
    cases alive with
    | none => exact loaded
    | some info => exact .value

theorem startTransient_beside (project : String) (terminal : Model.TerminalDefinition)
    (reopen : Bool) : Stays Beside (startTransient isUuid project terminal reopen) :=
  .bind .answer fun _ => .bind .lift fun _ => .bind .lift fun _ => start_beside _ _ _

/-! ## Requests -/

theorem noteRequest_beside (session : String) (force : Bool) :
    Stays Beside (noteRequest session force) :=
  (slotOf_beside session).bind fun _ => updating (fun _ => rfl) <| now_beside.bind fun _ =>
    besides fun _ => rfl

theorem hostClose_beside (session : String) : Stays Beside (hostClose session) :=
  (slotOf_beside session).bind fun _ => .bind .current fun _ => updating (fun _ => rfl) <|
    .bind .answer fun _ => .value

theorem requestClose_beside (session : String) (force : Bool) :
    Stays Beside (requestClose session force) := by
  refine (slotOf_beside session).bind fun slot => .bind .current fun actor => ?_
  cases slot.runToCancel actor.runsDead with
  | some runId =>
    exact .branch ((cancelRun_beside _ _).bind fun _ => updating (fun _ => rfl) <|
      noteRequest_beside _ _) (noteRequest_beside _ _)
  | none =>
    refine .branch ((noteRequest_beside _ _).bind fun _ => .branch ?_ .value) .value
    refine (hostClose_beside _).bind fun closed => ?_
    cases closed with
    | ok done => exact .value
    | error error => exact updating (fun _ => rfl) <| .fail

theorem closeOne_beside (session : String) (force : Bool) :
    Stays Beside (closeOne isUuid session force) := by
  refine (requestClose_beside session force).attempt.bind fun signalled => ?_
  refine persist_beside.attempt.bind fun saved => ?_
  cases saved with
  | ok done => exact .lift
  | error error => exact (slotOf_beside _).bind fun _ => updating (fun _ => rfl) <| .fail

theorem closeEach_beside (force : Bool) (errors : BTreeMap String) (sessions : List String) :
    Stays Beside (closeEach force errors sessions) := by
  induction sessions generalizing errors with
  | nil => exact .value
  | cons session rest inductionHypothesis =>
    refine (requestClose_beside session force).attempt.bind fun outcome => ?_
    cases outcome with
    | ok done => exact inductionHypothesis _
    | error error => exact inductionHypothesis _

theorem value_beside (reply : Reply) : Stays Beside (value reply) :=
  .bind .lift fun _ => .value

theorem attachTo_beside (client session : String) (takeover : Bool) :
    Stays Beside (attachTo client session takeover) :=
  (slotOf_beside session).bind fun _ => .bind .lift fun _ => updating (fun _ => rfl) <|
    .branch (updating (fun _ => rfl) <| value_beside _) (value_beside _)

theorem inputTo_beside (client session : String) (data : Option (List UInt8)) (epoch : Nat) :
    Stays Beside (inputTo client session data epoch) :=
  .bind .lift fun _ => .bind .lift fun _ => (slotOf_beside session).bind fun _ =>
    .bind .answer fun _ => .bind .lift fun _ => .bind .lift fun _ => updating (fun _ => rfl) <|
      .value

theorem onTerminal_beside (client session : String) (epoch : Nat) :
    Stays Beside (onTerminal client session epoch) :=
  (slotOf_beside session).bind fun _ => .bind .lift fun _ => .bind .lift fun _ => .answer

theorem closeSession_beside (client session : String) (epoch : Nat) (force : Bool) :
    Stays Beside (closeSession isUuid client session epoch force) := by
  have shows : Stays Beside (do
      let slot ← slotOf session
      value (.session slot.info) : Act Reply) :=
    (slotOf_beside session).bind fun _ => value_beside _
  exact (slotOf_beside session).bind fun slot => .branch
    (.bind .lift fun _ => (closeOne_beside _ _).bind fun _ => shows) shows

theorem previewClose_beside (project : Option String) : Stays Beside (previewClose project) :=
  .bind .current fun _ => .bind .lift fun _ => value_beside _

theorem evictJob_beside : Stays Beside evictJob :=
  .bind .current fun _ => .branch
    (.bind .lift fun _ => (updateRuns_beside _).bind fun _ => .value) .value

theorem submit_beside (client : String) (request : RunRequest) (session : Option String)
    (cancel : String → String) : Stays Beside (submit client request session cancel) :=
  .bind .current fun _ => .bind .lift fun _ => now_beside.bind fun _ =>
    (updateRuns_beside _).bind fun _ => .bind .current fun _ =>
      (Stays.iterate evictJob_beside _).bind fun _ => newId_beside.bind fun _ =>
        (sendWork_beside _ _).bind fun _ => now_beside.bind fun _ =>
          (updateRuns_beside _).bind fun _ => .value

theorem submitFor_beside (client : String) (request : RunRequest) (session : Option String) :
    Stays Beside (submitFor isUuid client request session) := by
  refine (submit_beside _ _ _ _).attempt.bind fun outcome => ?_
  cases outcome with
  | ok job => exact .value
  | error error =>
    cases session with
    | none => exact .fail
    | some session => exact updating (fun _ => rfl) <| persist_beside.attempt.bind fun _ => .fail

theorem reserveSession_beside (project : String) (purpose : SlotPurpose) (name : String) :
    Stays Beside (reserveSession isUuid project purpose name) := by
  refine .bind .current fun _ => .bind .lift fun _ => .bind .lift fun _ => ?_
  refine newId_beside.bind fun _ => newId_beside.bind fun _ => updating (fun _ => rfl) <| ?_
  refine persist_beside.attempt.bind fun saved => ?_
  cases saved with
  | ok done => exact .value
  | error error => exact updating (fun _ => rfl) <| .fail

theorem cancelJob_beside (client id : String) : Stays Beside (cancelJob client id) := by
  refine .bind .current fun _ => .bind .lift fun found => updating (fun _ => rfl) <| ?_
  cases found.1.sessionId with
  | none => exact .value
  | some session =>
    exact .bind .current fun _ => .branch ((requestClose_beside _ _).bind fun _ => .value) .value

theorem launchOf_beside (client : String) (request : RunRequest) :
    Stays Beside (launchOf client request) := by
  cases request with
  | editorOpen review =>
    exact .bind .current fun _ => now_beside.bind fun _ => .bind .lift fun _ => .value
  | _ => exact .value

/-- The request that is not about a job already there. -/
theorem launches_beside (client : String) (request : RunRequest) : Stays Beside (do
    let actor ← Procedure.current
    ensure (!actor.quiescing || request.winding)
      "host shutdown in progress; no new run jobs accepted"
    match ← launchOf client request with
    | none => submitFor isUuid client request none
    | some (project, purpose, name) => do
      let session ← reserveSession isUuid project purpose name
      submitFor isUuid client request (some session) : Act RunJob) := by
  refine .bind .current fun _ => .bind .lift fun _ => (launchOf_beside client request).bind ?_
  intro launch
  cases launch with
  | none => exact submitFor_beside _ _ _
  | some launch =>
    exact (reserveSession_beside _ _ _).bind fun _ => submitFor_beside _ _ _

theorem runRequest_beside (client : String) (request : RunRequest) :
    Stays Beside (runRequest isUuid client request) := by
  cases request with
  | job id => exact .bind .current fun _ => .lift
  | cancelJob id => exact cancelJob_beside _ _
  | _ => exact launches_beside client _

/-! ## Between two requests -/

theorem declineRuntime_beside (session : String) (cancelled : Bool) :
    Stays Beside (declineRuntime session cancelled) := by
  refine now_beside.bind fun _ => (updateSlot_beside _ _).bind fun _ => ?_
  refine (slotOf_beside session).bind fun slot => ?_
  cases slot.purpose.runId with
  | none => exact (hostClose_beside _).bind fun _ => .value
  | some runId =>
    exact .branch ((hostClose_beside _).bind fun _ => .value)
      ((cancelRun_beside _ _).attempt.bind fun _ => .value)

theorem writeBootstrap_beside (session : String) (runtime : Runtime) :
    Stays Beside (writeBootstrap session runtime) := by
  refine (updateSlot_beside _ _).bind fun _ => .branch (.bind .answer fun answers => ?_) .value
  cases answers.input with
  | ok done => exact .value
  | error error =>
    exact now_beside.bind fun _ => (updateSlot_beside _ _).bind fun _ =>
      (hostClose_beside _).bind fun _ => .value

theorem acceptRuntime_beside (session : String) (runtime : Runtime) :
    Stays Beside (acceptRuntime isUuid session runtime) := by
  refine (slotOf_beside session).bind fun slot => .bind .current fun actor => ?_
  refine (updateSlot_beside _ _).bind fun _ => persist_beside.attempt.bind fun saved => ?_
  cases saved with
  | ok done => exact .branch (declineRuntime_beside _ _) (writeBootstrap_beside _ _)
  | error error => exact declineRuntime_beside _ _

/-- The record of a prepared session is saved, or its slot says that it is not. -/
theorem savePrepared_beside (session : String) : Stays Beside (do
    if let .error _ ← Procedure.attempt (persist isUuid) then
      updateSlot session
        (·.withError "durable session record failed; inspect current host before restart")
    : Act Unit) := by
  refine persist_beside.attempt.bind fun saved => ?_
  cases saved with
  | ok done => exact .value
  | error error => exact updateSlot_beside _ _

theorem acceptPrepared_beside (completed : Completed) :
    Stays Beside (acceptPrepared isUuid completed) := by
  refine .bind .current fun actor => ?_
  cases actor.slots[completed.session]? with
  | none => exact .value
  | some slot =>
    dsimp only
    cases completed.result with
    | error error =>
      exact now_beside.bind fun _ => (updateSlot_beside _ _).bind fun _ => savePrepared_beside _
    | ok runtime => exact (acceptRuntime_beside _ _).bind fun _ => savePrepared_beside _

/-- A runtime is accepted, into closing when the start has failed. -/
theorem acceptResult_beside (session : String) (runtime : Runtime) (event : RunEvent) :
    Stays Beside (do
      let actor ← Procedure.current
      if let some slot := actor.slots[session]? then
        if let .error _ := event.result then
          Procedure.update (storeCancel slot.cancel)
      acceptPrepared isUuid ⟨session, .ok runtime⟩ : Act Unit) := by
  refine .bind .current fun actor => ?_
  cases actor.slots[session]? with
  | none => exact acceptPrepared_beside _
  | some slot =>
    dsimp only
    cases event.result with
    | ok result => exact acceptPrepared_beside _
    | error error => exact updating (fun _ => rfl) <| acceptPrepared_beside _

theorem acceptStarted_beside (session : String) (runtime : Runtime) (event : RunEvent) :
    Stays Beside (acceptStarted isUuid session runtime event) := by
  unfold acceptStarted
  cases event.run with
  | none => exact acceptResult_beside session runtime event
  | some run =>
    exact (updateSlot_beside _ _).bind fun _ => acceptResult_beside session runtime event

theorem acceptUnstarted_beside (session : String) (event : RunEvent) :
    Stays Beside (acceptUnstarted isUuid session event) := by
  have saves : Stays Beside (do let _ ← Procedure.attempt (persist isUuid) : Act Unit) :=
    persist_beside.attempt.bind fun _ => .value
  refine .bind .current fun actor => now_beside.bind fun time => ?_
  cases actor.slots[session]? with
  | none => exact saves
  | some slot =>
    exact .branch ((updateSlot_beside _ _).bind fun _ => saves)
      (.branch ((updateSlot_beside _ _).bind fun _ => saves) saves)

theorem confirmCancel_beside (runId : String) (force : Bool) :
    Stays Beside (confirmCancel isUuid runId force) := by
  refine .bind .current fun actor => ?_
  cases actor.sessionOfRun runId with
  | none => exact .value
  | some session =>
    exact (updateSlot_beside _ _).bind fun _ => (requestClose_beside _ _).attempt.bind fun _ =>
      persist_beside.attempt.bind fun _ => .value

theorem acceptOutcome_beside (event : RunEvent) : Stays Beside (acceptOutcome isUuid event) := by
  unfold acceptOutcome
  cases event.sessionId with
  | none => exact .value
  | some session =>
    dsimp only
    cases event.runtime with
    | some runtime => exact acceptStarted_beside _ _ _
    | none => exact .branch (acceptUnstarted_beside _ _) .value

/-- A failed finish is tried again later. -/
theorem retryFinish_beside (event : RunEvent) (session : String) : Stays Beside (do
    if let .error error := event.result then
      let time ← now
      updateSlot session (·.retried event.cancel.isSome error time) : Act Unit) := by
  cases event.result with
  | ok result => exact .value
  | error error => exact now_beside.bind fun _ => updateSlot_beside _ _

theorem acceptFinish_beside (event : RunEvent) : Stays Beside (acceptFinish event) := by
  unfold acceptFinish
  cases event.sessionId with
  | none => exact .value
  | some session =>
    have retries := retryFinish_beside event session
    exact .branch ((updateSlot_beside _ _).bind fun _ => updating (fun _ => rfl) <| retries)
      retries

/-- What an event ends: a job, or the finalization of a run. -/
theorem endJob_beside (event : RunEvent) : Stays Beside (match event.jobId with
    | none => acceptFinish event
    | some id => do
      let actor ← Procedure.current
      let answers ← Procedure.answer
      updateRuns (RunBridge.complete id event.result answers.resultLength actor.isCancelled)
    : Act Unit) := by
  cases event.jobId with
  | none => exact acceptFinish_beside _
  | some id => exact .bind .current fun _ => .bind .answer fun _ => updateRuns_beside _

theorem acceptRunEvent_beside (event : RunEvent) : Stays Beside (acceptRunEvent isUuid event) := by
  have ends := endJob_beside event
  refine (acceptOutcome_beside event).bind fun _ => ?_
  cases event.cancel with
  | none => exact ends
  | some target =>
    exact .branch ((confirmCancel_beside _ _).bind fun _ => ends) ends

theorem pollRun_beside : Stays Beside (pollRun isUuid) := by
  refine .bind .current fun actor => ?_
  cases actor.runs.events with
  | nil => exact .branch (updateRuns_beside _) .value
  | cons event rest =>
    exact (updateRuns_beside _).bind fun _ => acceptRunEvent_beside _

theorem markRunsDead_beside : Stays Beside (markRunsDead isUuid) :=
  .bind .current fun _ => .branch (now_beside.bind fun _ => updating (fun _ => rfl) <|
    persist_beside.attempt.bind fun _ => .value) .value

theorem retryCancels_beside : Stays Beside retryCancels := by
  refine .bind .current fun actor => now_beside.bind fun time => .forM (fun entry => ?_) _
  cases entry.2.toRetryCancel actor.runsDead time with
  | none => exact .value
  | some runId =>
    refine (cancelRun_beside _ _).attempt.bind fun sent => ?_
    cases sent with
    | ok done => exact updateSlot_beside _ _
    | error error => exact .value

theorem failPendingPrepares_beside : Stays Beside (failPendingPrepares isUuid) :=
  .bind .current fun _ => .branch (now_beside.bind fun _ => updating (fun _ => rfl) <|
    .branch (persist_beside.attempt.bind fun _ => .value) .value) .value

theorem pollLaunch_beside : Stays Beside (pollLaunch isUuid) := by
  refine .bind .current fun actor => ?_
  cases actor.launching.results with
  | nil => exact .branch failPendingPrepares_beside .value
  | cons completed rest => exact updating (fun _ => rfl) <| acceptPrepared_beside _

theorem acceptAnchor_beside (report : Report) (anchor : Anchor) :
    Stays Beside (acceptAnchor report anchor) := by
  refine .bind .current fun actor => ?_
  cases actor.slots[anchor.session]? with
  | none => exact .value
  | some slot =>
    exact .branch (.bind .answer fun answers =>
      .branch (updating (fun _ => rfl) <| (besides fun _ => rfl)) (besides fun _ => rfl)) .value

theorem pollChildInventory_beside : Stays Beside pollChildInventory := by
  refine .bind .current fun actor => ?_
  cases actor.scanning.reports with
  | nil => exact .branch (updating (fun _ => rfl) <| updateSlots_beside _ _) .value
  | cons report rest =>
    exact updating (fun _ => rfl) <| updating (fun _ => rfl) <| .bind .answer fun _ =>
      (onGit_beside _).bind fun _ => .forM (fun anchor => acceptAnchor_beside report anchor) _

theorem scheduleChildInventory_beside : Stays Beside scheduleChildInventory :=
  .bind .current fun _ => now_beside.bind fun _ => .branch (.branch (.bind .answer fun _ =>
    .branch (updating (fun _ => rfl) <| besides fun _ => rfl) (updateSlots_beside _ _)) .value)
      .value

theorem tickSlot_beside (session : String) : Stays Beside (tickSlot session) := by
  refine (slotOf_beside session).bind fun slot => .bind .current fun _ => .bind .answer fun _ => ?_
  have sets (ticked : Slot.Ticked) : Stays Beside (do
      Procedure.update (setSlot session ticked.slot)
      return ticked.changed : Act Bool) := updating (fun _ => rfl) <| .value
  have reaps (pid : Option Nat) (ticked : Slot.Ticked) : Stays Beside (do
      if ticked.reaped then
        Procedure.update (record (.reaped session pid))
      Procedure.update (setSlot session ticked.slot)
      return ticked.changed : Act Bool) := .branch (updating (fun _ => rfl) <| sets _) (sets _)
  have exits (pid : Option Nat) (ticked : Slot.Ticked) : Stays Beside (do
      if ticked.exited then
        Procedure.update (record (.exited session pid))
      if ticked.reaped then
        Procedure.update (record (.reaped session pid))
      Procedure.update (setSlot session ticked.slot)
      return ticked.changed : Act Bool) :=
    .branch (updating (fun _ => rfl) <| reaps _ _) (reaps _ _)
  exact .branch (updating (fun _ => rfl) <| exits _ _) (exits _ _)

theorem tickEach_beside (changed : Bool) (sessions : List String) :
    Stays Beside (tickEach changed sessions) := by
  induction sessions generalizing changed with
  | nil => exact .value
  | cons session rest inductionHypothesis =>
    exact (tickSlot_beside session).bind fun _ => inductionHypothesis _

theorem tickSlots_beside : Stays Beside tickSlots :=
  .bind .current fun _ => tickEach_beside _ _

theorem finishRun_beside (session runId : String) (slot : Slot) :
    Stays Beside (finishRun session runId slot) := by
  refine (sendWork_beside _ _).attempt.bind fun sent => ?_
  cases sent with
  | ok done => exact (updateSlot_beside _ _).bind fun _ => besides fun _ => rfl
  | error error => exact .value

theorem finishRuns_beside : Stays Beside finishRuns := by
  refine .bind .current fun actor => now_beside.bind fun time => .forM (fun entry => ?_) _
  cases entry.2.toFinish time with
  | none => exact .value
  | some runId => exact finishRun_beside _ _ _

theorem evictScreens_beside : Stays Beside evictScreens :=
  .bind .current fun _ => .forM (fun _ => updateSlot_beside _ _) _

theorem retireRuns_beside : Stays Beside retireRuns :=
  .bind .current fun _ =>
    (Stays.forM (fun session => @besides (removeSlot session) fun _ => rfl) _).bind fun _ =>
      .value

theorem forgetDefinitions_beside : Stays Beside forgetDefinitions :=
  .bind .current fun _ => .forM (fun _ => updateSlot_beside _ _) _

theorem saveTick_beside (changed : Bool) : Stays Beside (saveTick isUuid changed) := by
  refine .branch (persist_beside.attempt.bind fun saved => ?_) .value
  cases saved with
  | ok done => exact .value
  | error error => exact updateSlots_beside _ _

theorem pollWorkers_beside : Stays Beside (pollWorkers isUuid) := by
  have runs : Stays Beside (pollRuns isUuid) :=
    (rounds_beside pollRun_beside 16).bind fun _ => markRunsDead_beside.bind fun _ =>
      retryCancels_beside
  exact runs.bind fun _ => (rounds_beside pollLaunch_beside 8).bind fun _ => .bind .answer fun _ =>
    (onGit_beside _).bind fun _ => pollChildInventory_beside

end Idk.Host
