import Idk.Host.Requests

/-!
# What the actor does between two requests

`accept_prepared`, `accept_run_event` and `tick` (`host/actor.rs`) with the parts they
consist of.  The loops over the sessions follow the order of their ids.
-/

namespace Idk.Host

open Idk.Logic (Procedure)
open Idk.Logic.Procedure (current update answer fail attempt iterate)
open Actor

variable (isUuid : IsUuid)

def updateSlot (session : String) (change : Slot → Slot) : Act Unit :=
  update (modifySlot session change)

/-- Every session for which `condition` holds. -/
def updateSlots (condition : Slot → Bool) (change : Slot → Slot) : Act Unit :=
  update fun actor =>
    { actor with slots := actor.slots.map fun _ slot =>
      if condition slot then change slot else slot }

/-- At most `count` times. -/
def rounds (op : Act Unit) : Nat → Act Unit
  | 0 => return
  | count + 1 => do
    op
    rounds op count

/-! ## A process has been prepared -/

/-- The accepted process is not initialized but closed. -/
def declineRuntime (session : String) (cancelled : Bool) : Act Unit := do
  let time ← now
  updateSlot session (·.uninitialized cancelled time)
  let slot ← slotOf session
  match slot.purpose.runId with
  | some runId =>
    if slot.runCancelDurable then
      let _ ← hostClose session
    else
      let _ ← attempt (cancelRun runId false)
  | none =>
    let _ ← hostClose session

/-- The sole write of the bootstrap text. -/
def writeBootstrap (session : String) (runtime : Runtime) : Act Unit := do
  updateSlot session Slot.bootstrapTaken
  if !runtime.bootstrap.isEmpty then
    let answers ← answer
    if let .error error := answers.input then
      let time ← now
      updateSlot session (·.unbootstrapped error time)
      let _ ← hostClose session

/-- `Ok(runtime)` of `accept_prepared`: the process is recorded before it is initialized. -/
def acceptRuntime (session : String) (runtime : Runtime) : Act Unit := do
  let slot ← slotOf session
  let actor ← current
  let cancelled := actor.isCancelled slot.cancel || actor.quiescing
  updateSlot session (·.accepted runtime cancelled)
  match ← attempt (persist isUuid) with
  | .ok () =>
    if cancelled then declineRuntime session cancelled
    else writeBootstrap session runtime
  | .error _ => declineRuntime session cancelled

/-- `accept_prepared`. -/
def acceptPrepared (completed : Completed) : Act Unit := do
  let session := completed.session
  let actor ← current
  if let some slot := actor.slots[session]? then
    match completed.result with
    | .error error =>
      let time ← now
      updateSlot session (·.unprepared (actor.isCancelled slot.cancel) error time)
    | .ok runtime => acceptRuntime isUuid session runtime
    if let .error _ ← attempt (persist isUuid) then
      updateSlot session
        (·.withError "durable session record failed; inspect current host before restart")

/-! ## Events of the run worker -/

/-- The session is the one of this run. -/
def Slot.nameRun (slot : Slot) (run : RunInfo) : Slot :=
  { slot.named run with runCancelDurable := run.cancelRequested }

/-- An event with a process. -/
def acceptStarted (session : String) (runtime : Runtime) (event : RunEvent) : Act Unit := do
  if let some run := event.run then
    updateSlot session (·.nameRun run)
  let actor ← current
  if let some slot := actor.slots[session]? then
    if let .error _ := event.result then
      update (storeCancel slot.cancel)
  acceptPrepared isUuid ⟨session, .ok runtime⟩

/-- An event of a job without a process. -/
def acceptUnstarted (session : String) (event : RunEvent) : Act Unit := do
  let actor ← current
  let time ← now
  if let some slot := actor.slots[session]? then
    if existingStart event.result then
      updateSlot session (·.placeholder time)
    else if slot.preparing then
      let error := match event.result with
        | .ok _ => none
        | .error error => some error
      updateSlot session (·.unstarted (actor.isCancelled slot.cancel) event.run error time)
  let _ ← attempt (persist isUuid)

/-- The cancellation of the run is durable. -/
def Slot.cancelConfirmed (slot : Slot) : Slot :=
  { slot with runCancelDurable := true, runCancelPending := false }

/-- A successful event of a cancellation. -/
def confirmCancel (runId : String) (force : Bool) : Act Unit := do
  let actor ← current
  if let some session := actor.sessionOfRun runId then
    updateSlot session Slot.cancelConfirmed
    let _ ← attempt (requestClose session force)
    let _ ← attempt (persist isUuid)

/-- The part that is about the process of a session. -/
def acceptOutcome (event : RunEvent) : Act Unit := do
  if let some session := event.sessionId then
    match event.runtime with
    | some runtime => acceptStarted isUuid session runtime event
    | none => if event.jobId.isSome then acceptUnstarted isUuid session event

/-- The answer to `Finish`, and what is to be tried again. -/
def acceptFinish (event : RunEvent) : Act Unit := do
  if let some session := event.sessionId then
    let succeeded := event.result.toOption.isSome
    if event.cancel.isNone then
      updateSlot session (·.finishAnswered succeeded)
      update (record (.finishAnswered session succeeded))
    if let .error error := event.result then
      let time ← now
      updateSlot session (·.retried event.cancel.isSome error time)

/-- `accept_run_event`. -/
def acceptRunEvent (event : RunEvent) : Act Unit := do
  acceptOutcome isUuid event
  if let some (runId, force) := event.cancel then
    if event.result.toOption.isSome then
      confirmCancel isUuid runId force
  match event.jobId with
  | none => acceptFinish event
  | some id =>
    let actor ← current
    let answers ← answer
    updateRuns (RunBridge.complete id event.result answers.resultLength actor.isCancelled)

/-! ## The workers -/

/-- `poll`, and what the actor does with the event. -/
def pollRun : Act Unit := do
  let actor ← current
  match actor.runs.events with
  | event :: rest =>
    updateRuns fun runs =>
      { runs with events := rest, pending := if event.workDone then runs.pending - 1 else runs.pending }
    acceptRunEvent isUuid event
  | [] => if !actor.runs.alive then updateRuns RunBridge.markDead

/-- `mark_runs_dead`. -/
def markRunsDead : Act Unit := do
  let actor ← current
  if actor.runs.dead && !actor.runsDead then
    let time ← now
    update fun actor => { actor with
      runsDead := true
      slots := actor.slots.map fun _ slot => slot.runsDied time }
    let _ ← attempt (persist isUuid)

/-- The run whose cancellation is to be asked for again. -/
def Slot.toRetryCancel (slot : Slot) (runsDead : Bool) (now : Nat) : Option String :=
  if slot.cleanup.requested && !slot.runCancelDurable && !slot.runCancelPending && !runsDead &&
      slot.isLive && slot.retryDue now then
    slot.purpose.runId
  else none

def retryCancels : Act Unit := do
  let actor ← current
  let time ← now
  actor.slots.toList.forM fun entry => do
    if let some runId := entry.2.toRetryCancel actor.runsDead time then
      if let .ok () ← attempt (cancelRun runId entry.2.cleanup.force) then
        updateSlot entry.1 fun slot => { slot with runCancelPending := true }

/-- `fail_pending_prepares`. -/
def failPendingPrepares : Act Unit := do
  let actor ← current
  if !actor.launchDead then
    let time ← now
    update fun actor => { actor with
      launchDead := true
      slots := actor.slots.map fun _ slot => slot.launchDied time }
    if actor.slots.toList.any (·.2.preparing) then
      let _ ← attempt (persist isUuid)

/-- One result of the preparation worker. -/
def pollLaunch : Act Unit := do
  let actor ← current
  match actor.launching.results with
  | completed :: rest =>
    update fun actor => { actor with launching.results := rest }
    acceptPrepared isUuid completed
  | [] => if !actor.launching.alive then failPendingPrepares isUuid

/-! ## Descendants -/

/-- The exit of the session's process is known, and its leader is kept. -/
def Slot.exiting (slot : Slot) : Bool := slot.info.exit.isSome && slot.runtime.isSome

def inventoryUnavailable : Act Unit :=
  updateSlots Slot.exiting
    (·.cleanupNotice "inventory worker unavailable; exit is not confirmed")

/-- A report about one anchor. -/
def acceptAnchor (report : Report) (anchor : Anchor) : Act Unit := do
  let actor ← current
  if let some slot := actor.slots[anchor.session]? then
    if slot.answers anchor then
      let answers ← answer
      let (after, signals) :=
        slot.inventory actor.runsDead actor.pid answers.children report anchor
      if signals then
        update (record (.signalled anchor.session slot.purpose.runId slot.runCancelDurable
          actor.runsDead))
      update (setSlot anchor.session after)

/-- `poll_child_inventory`. -/
def pollChildInventory : Act Unit := do
  let actor ← current
  match actor.scanning.reports with
  | report :: rest =>
    update fun actor => { actor with scanning.reports := rest, scanInflight := false }
    update (record (.reported report))
    let answers ← answer
    onGit (Git.inventories actor.pid answers.children report)
    report.anchors.forM (acceptAnchor report)
  | [] =>
    if !actor.scanning.alive then
      update fun actor => { actor with scanInflight := false }
      inventoryUnavailable

/-- `schedule_child_inventory`. -/
def scheduleChildInventory : Act Unit := do
  let actor ← current
  let time ← now
  if !actor.scanInflight && 100 ≤ time - actor.lastScan then
    let anchors := actor.slots.toList.filterMap (·.2.anchor) ++ actor.git.anchors
    if !anchors.isEmpty then
      let answers ← answer
      if answers.sent && actor.scanning.alive then
        update fun actor => { actor with
          scanning.scans := actor.scanning.scans ++ [anchors]
          scanInflight := true
          lastScan := time }
        update (record (.scanned anchors))
      else inventoryUnavailable

/-! ## Processes -/

/-- One round of the loop over the sessions, and whether its record changed. -/
def tickSlot (session : String) : Act Bool := do
  let slot ← slotOf session
  let actor ← current
  let answers ← answer
  let ticked := slot.tick (answers.ticks session) actor.runsDead answers.now
  let pid := slot.runtime.bind (·.childPid)
  if ticked.escalated then
    update (record (.signalled session slot.purpose.runId slot.runCancelDurable actor.runsDead))
  if ticked.exited then
    update (record (.exited session pid))
  if ticked.reaped then
    update (record (.reaped session pid))
  update (setSlot session ticked.slot)
  return ticked.changed

/-- The loop over the sessions, with what it found changed so far. -/
def tickEach (changed : Bool) : List String → Act Bool
  | [] => return changed
  | session :: rest => do
    let one ← tickSlot session
    tickEach (changed || one) rest

def tickSlots : Act Bool := do
  let actor ← current
  tickEach false actor.slots.keys

/-- An ended run is handed to the run worker. -/
def finishRun (session runId : String) (slot : Slot) : Act Unit := do
  let partialOutput := slot.frozen.any (·.outputLimited)
  let work := Work.finish session runId slot.info.exit slot.info.error partialOutput
  if let .ok () ← attempt (sendWork work "run finalization queue full; source lease retained") then
    updateSlot session fun slot => { slot with runFinalization := .inFlight }
    update (record (.finishSent session runId))

def finishRuns : Act Unit := do
  let actor ← current
  let time ← now
  actor.slots.toList.forM fun entry => do
    if let some runId := entry.2.toFinish time then
      finishRun entry.1 runId entry.2

/-! ## What is kept of ended sessions -/

/-- The order of `(Option<Instant>, String)`. -/
def endedBefore (left right : Option Nat × String) : Bool :=
  match left.1, right.1 with
  | none, some _ => true
  | some _, none => false
  | none, none => left.2 ≤ right.2
  | some one, some two => one < two || (one == two && left.2 ≤ right.2)

/-- The sessions that satisfy `condition`, those first whose process ended first. -/
def Actor.endedFirst (actor : Actor) (condition : Slot → Bool) : List String :=
  (((actor.slots.toList.filter fun entry => condition entry.2).map fun entry =>
    (entry.2.exitedAt, entry.1)).mergeSort endedBefore).map (·.2)

/-- All but the last `kept` of them. -/
def allBut (kept : Nat) (sessions : List String) : List String :=
  sessions.take (sessions.length - kept)

/-- The literal limits of `tick`. -/
def maxFrozen : Nat := 16

def maxRetired : Nat := 64

def evictScreens : Act Unit := do
  let actor ← current
  let ended := actor.endedFirst fun slot => slot.frozen.isSome && !slot.isLive
  (allBut maxFrozen ended).forM fun session =>
    updateSlot session fun slot => { slot with frozen := none }

/-- The oldest ended runs and editors are forgotten; whether there were any. -/
def retireRuns : Act Bool := do
  let actor ← current
  let retired := allBut maxRetired (actor.endedFirst Slot.retirable)
  retired.forM fun session => update (removeSlot session)
  return !retired.isEmpty

/-- A terminal that is not saved and whose definition is kept. -/
def Slot.transient (slot : Slot) : Bool :=
  !slot.info.persistent &&
    match slot.purpose with
    | .terminal (some _) => true
    | _ => false

def forgetDefinitions : Act Unit := do
  let actor ← current
  let transient := (actor.slots.toList.filter (·.2.transient)).length
  let ended := actor.endedFirst fun slot => slot.transient && !slot.isLive
  (ended.take (transient - maxTerminals)).forM fun session =>
    updateSlot session fun slot => { slot with purpose := .terminal none }

/-! ## Default-open batches -/

/-- Where a batch stands with the session it waits for. -/
inductive Waiting where
  | ready
  | longer
  | failed (terminal error : String)

/-- The session that is waited for, if it is still there. -/
def waitingFor (session : String) (slot : Option Slot) : Waiting :=
  match slot with
  | none => .failed session "waiting terminal is unavailable"
  | some slot =>
    if !slot.isLive || slot.info.initialization = some .failed then
      .failed slot.info.terminalId
        (slot.info.error.getD "terminal initialization did not complete successfully")
    else if slot.info.initialization = some .ready ∨
        slot.info.initialization = some .unobserved then .ready
    else .longer

def Batch.note (batch : Batch) (terminal error : String) : Batch :=
  { batch with info.failures := batch.info.failures.insert terminal error }

/-- The next terminal of a batch that waits for nothing. -/
def Batch.next (batch : Batch) : Act Batch := do
  let batch := { batch with info.waitingSession := none, waitingSince := none }
  match batch.info.remaining with
  | [] => return { batch with info.state := .complete }
  | terminal :: remaining =>
    let batch := { batch with info.remaining := remaining }
    match ← attempt (startSaved isUuid batch.info.projectId terminal false) with
    | .ok info =>
      let time ← now
      return {
        info := { batch.info with
          sessions := batch.info.sessions ++ [info.sessionId]
          waitingSession := some info.sessionId }
        waitingSince := some time }
    | .error error => return batch.note terminal (safeError error)

/-- One batch of `tick_batches`. -/
def Batch.tick (batch : Batch) : Act Batch := do
  if batch.info.state ≠ .running then return batch
  else
    match batch.info.waitingSession with
    | none => batch.next isUuid
    | some session =>
      let actor ← current
      match waitingFor session actor.slots[session]? with
      | .ready => batch.next isUuid
      | .failed terminal error => (batch.note terminal error).next isUuid
      | .longer =>
        let time ← now
        if batch.waitingSince.any (5000 ≤ time - ·) then
          return { batch with info.state := .paused }
        else return batch

/-- `tick_batches`. -/
def tickBatches : Act Unit := do
  let actor ← current
  actor.batches.toList.forM fun entry => do
    let batch ← entry.2.tick isUuid
    setBatch entry.1 batch

/-! ## One tick -/

/-- What a tick says of the exits that it could not record. -/
def saveTick (changed : Bool) : Act Unit := do
  if changed then
    if let .error _ ← attempt (persist isUuid) then
      updateSlots (·.info.exit.isSome)
        (·.withError "exit observed but durable state save failed; restart may report unknown")

def startBatches : Act Unit := do
  let actor ← current
  let time ← now
  if !actor.quiescing && 100 ≤ time - actor.lastBatchTick then
    update fun actor => { actor with lastBatchTick := time }
    tickBatches isUuid

/-- The run worker is heard. -/
def pollRuns : Act Unit := do
  rounds (pollRun isUuid) 16
  markRunsDead isUuid
  retryCancels

/-- The first half: the workers are heard. -/
def pollWorkers : Act Unit := do
  pollRuns isUuid
  rounds (pollLaunch isUuid) 8
  let answers ← answer
  onGit (Git.tick answers.gitTicks answers.gitReceives)
  pollChildInventory

/-- `tick`.  A further round of its loops over the workers finds nothing. -/
def tick : Act Unit := do
  pollWorkers isUuid
  let exited ← tickSlots
  finishRuns
  scheduleChildInventory
  evictScreens
  let retired ← retireRuns
  forgetDefinitions
  saveTick isUuid (exited || retired)
  startBatches isUuid

end Idk.Host
