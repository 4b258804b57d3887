import Idk.Git.Operation
import Idk.Host.Ledger
import Idk.Model.Project
import Idk.Protocol.Envelope

/-!
# Sessions of the host

`Slot` (`host/actor.rs`): one terminal, run or editor with its PTY, its input ownership and
the cleanup of its processes.  What the terminal, the clock and the system answer is given
from outside; the clock counts milliseconds.

An `Arc<AtomicBool>` that a slot shares with its job and its worker is named by a token.
-/

namespace Idk.Host

open Git (TerminalStatus TerminalSnapshot checkedSucc twoSecondsSince)
open Model (TerminalDefinition)

inductive InitializationState where
  | initializing
  | unobserved
  | ready
  | failed
deriving DecidableEq, Repr

/-- A path as the system has it, in bytes. -/
abbrev OsPath := List UInt8

/-- An owner is the id of its client. -/
structure SessionInfo where
  sessionId : String
  projectId : String
  terminalId : String
  name : String
  hostInstance : String
  persistent : Bool
  state : SessionState
  initialization : Option InitializationState
  inputEpoch : Nat
  owner : Option String
  generation : Nat
  childPid : Option Nat
  cwd : Option OsPath
  definitionRevision : Nat
  launchDigest : Option String
  exit : Option TerminalExit
  error : Option String
deriving DecidableEq, Repr

inductive SlotPurpose where
  | terminal (definition : Option TerminalDefinition)
  | run (runId : Option String)
  | editor
deriving DecidableEq, Repr

namespace SlotPurpose

def isTerminal : SlotPurpose → Bool
  | .terminal _ => true
  | _ => false

def isRun : SlotPurpose → Bool
  | .run _ => true
  | _ => false

/-- The run of a session, once it is known. -/
def runId : SlotPurpose → Option String
  | .run runId => runId
  | _ => none

end SlotPurpose

inductive RunFinalization where
  | pending
  | inFlight
  | done
deriving DecidableEq, Repr

structure Cleanup where
  requested : Bool
  force : Bool
  done : Bool
  /-- The processes signalled so far, with the force they were signalled with. -/
  signalled : List (Pid × Bool)
deriving DecidableEq, Repr

/-- `Cleanup::default`. -/
def Cleanup.none : Cleanup := ⟨false, false, false, []⟩

/-- `launch::Runtime`: the spawned process with its terminal.  `terminates` says that it is
    asked to close with `SIGTERM`, `logged` that its output goes to the log of a run. -/
structure Runtime where
  childPid : Option Nat
  terminates : Bool
  bootstrap : List UInt8
  revision : Nat
  digest : String
  logged : Bool
deriving DecidableEq, Repr

structure Slot where
  info : SessionInfo
  purpose : SlotPurpose
  runtime : Option Runtime
  frozen : Option TerminalSnapshot
  cancel : String
  preparing : Bool
  closingAt : Option Nat
  exitedAt : Option Nat
  cleanup : Cleanup
  runCancelDurable : Bool
  runFinalization : RunFinalization
  runCancelPending : Bool
  runRetryAfter : Option Nat
deriving DecidableEq, Repr

/-- What `start` and `run_request` record before anything is prepared. -/
def SessionInfo.new (hostInstance session project terminal name : String) (persistent : Bool) :
    SessionInfo where
  sessionId := session
  projectId := project
  terminalId := terminal
  name := name
  hostInstance := hostInstance
  persistent := persistent
  state := .preparing
  initialization := some .initializing
  inputEpoch := 0
  owner := none
  generation := 0
  childPid := none
  cwd := none
  definitionRevision := 0
  launchDigest := none
  exit := none
  error := none

namespace Slot

/-- A slot whose process is still to be prepared. -/
def new (info : SessionInfo) (purpose : SlotPurpose) (cancel : String) : Slot where
  info := info
  purpose := purpose
  runtime := none
  frozen := none
  cancel := cancel
  preparing := true
  closingAt := none
  exitedAt := none
  cleanup := .none
  runCancelDurable := false
  runFinalization := .pending
  runCancelPending := false
  runRetryAfter := none

/-- A slot of an earlier host, `Actor::new`. -/
def restored (info : SessionInfo) (purpose : SlotPurpose) (cancel : String) : Slot :=
  { new info purpose cancel with preparing := false, runFinalization := .done }

def isLive (slot : Slot) : Bool := slot.info.state.isLive

def withError (slot : Slot) (error : String) : Slot := { slot with info.error := some error }

/-! ### Input ownership -/

def owner (slot : Slot) (client : String) (epoch : Nat) : Result Unit :=
  ensure (slot.info.owner == some client && slot.info.inputEpoch == epoch)
    "terminal input ownership changed; attach or explicitly take over before retrying"

def advanceEpoch (slot : Slot) : Result Slot := do
  let epoch ← context (checkedSucc slot.info.inputEpoch) "terminal ownership epoch exhausted"
  pure { slot with info.inputEpoch := epoch }

/-- `Request::Attach`. -/
def attach (slot : Slot) (client : String) (takeover : Bool) : Result Slot :=
  if slot.isLive then do
    ensure (slot.info.owner.all (· == client) || takeover)
      "terminal is owned by another client; explicit takeover required"
    if slot.info.owner = some client then
      pure slot
    else do
      let slot ← slot.advanceEpoch
      pure { slot with info.owner := some client }
  else pure slot

/-- `Request::Detach`. -/
def detach (slot : Slot) (client : String) (epoch : Nat) : Result Slot :=
  if slot.isLive then do
    slot.owner client epoch
    let slot ← slot.advanceEpoch
    pure { slot with info.owner := none }
  else pure slot

/-- The checks of `Request::Input`; `disabled` says that the log of its run is. -/
def acceptsInput (slot : Slot) (client : String) (epoch : Nat) (disabled : Bool) :
    Result Unit := do
  slot.owner client epoch
  ensure (slot.info.state == .running) "terminal is not accepting input"
  ensure (!slot.purpose.isRun || (slot.runtime.any (·.logged) && disabled))
    ("captured Run is read-only; use Run Cancel or register an interactive task with " ++
      "logging disabled")
  ensure slot.runtime.isSome "terminal has no live PTY"

/-! ### Closing -/

/-- What `request_close` notes before anything is signalled. -/
def requested (slot : Slot) (force : Bool) (now : Nat) : Slot :=
  { slot with
    info.state := .closing
    cleanup.requested := true
    cleanup.force := slot.cleanup.force || force
    closingAt := some (slot.closingAt.getD now) }

/-- The run whose cancellation has to be durable before the session is signalled. -/
def runToCancel (slot : Slot) (runsDead : Bool) : Option String :=
  if !slot.runCancelDurable && !runsDead && slot.isLive then slot.purpose.runId else none

/-- A signal needs the durable cancellation of the run, unless nobody is left to record it. -/
def mayClose (slot : Slot) (runsDead : Bool) : Bool :=
  !slot.purpose.isRun || slot.runCancelDurable || runsDead

def cleanupPrefix : String := "background cleanup:"

/-- No error, or one of `cleanup_notice`. -/
def replaceable (slot : Slot) : Bool := slot.info.error.all (cleanupPrefix.isPrefixOf ·)

/-- `cleanup_notice`. -/
def cleanupNotice (slot : Slot) (message : String) : Slot :=
  if slot.replaceable then slot.withError (safeError (cleanupPrefix ++ " " ++ message)) else slot

/-! ### Preparation -/

/-- A saved terminal that ended forgets its definition. -/
def forgetSaved (slot : Slot) : Slot :=
  if slot.info.persistent then { slot with purpose := .terminal none } else slot

/-- `accept_prepared` of an error; `cancelled` is what the slot's cell holds. -/
def unprepared (slot : Slot) (cancelled : Bool) (error : String) (now : Nat) : Slot :=
  forgetSaved
    { slot with
      preparing := false
      info.state := if cancelled then .closed else .failed
      info.initialization := some .failed
      info.error := some (safeError error)
      info.owner := none
      info.childPid := none
      info.cwd := none
      exitedAt := some now }

/-- `accept_prepared` of a process, up to its first record. -/
def accepted (slot : Slot) (runtime : Runtime) (cancelled : Bool) : Slot :=
  { slot with
    preparing := false
    info.childPid := runtime.childPid
    info.definitionRevision := runtime.revision
    info.launchDigest := if runtime.digest.isEmpty then none else some runtime.digest
    info.state := if cancelled then .closing else .running
    runtime := some runtime }

/-- The process will not be initialized: it was cancelled, or its record was not saved. -/
def uninitialized (slot : Slot) (cancelled : Bool) (now : Nat) : Slot :=
  { slot with
    info.state := .closing
    cleanup.requested := true
    closingAt := some now
    info.error := some (if cancelled then "terminal creation cancelled before initialization"
      else "durable session record failed; initialization was not executed")
    runtime := slot.runtime.map fun runtime => { runtime with bootstrap := [] } }

/-- `take(&mut runtime.bootstrap)`. -/
def bootstrapTaken (slot : Slot) : Slot :=
  { slot with runtime := slot.runtime.map fun runtime => { runtime with bootstrap := [] } }

/-- The bootstrap text could not be written. -/
def unbootstrapped (slot : Slot) (error : String) (now : Nat) : Slot :=
  { slot with
    info.state := .closing
    cleanup.requested := true
    closingAt := some now
    info.error := some (safeError error) }

/-! ### Events of the run worker -/

/-- The session is the one of this run. -/
def named (slot : Slot) (run : RunInfo) : Slot :=
  { slot with
    purpose := .run (some run.runId)
    info.terminalId := run.runId
    info.name := run.name }

/-- A second start returned the execution that exists; this session stays empty. -/
def placeholder (slot : Slot) (now : Nat) : Slot :=
  { slot with
    preparing := false
    info.state := .closed
    info.owner := none
    runFinalization := .done
    exitedAt := some now }

/-- The preparation failed before there was a process. -/
def unstarted (slot : Slot) (cancelled : Bool) (run : Option RunInfo) (error : Option String)
    (now : Nat) : Slot :=
  let slot := { slot with
    preparing := false
    info.state := if cancelled then .closed else .failed
    -- a run that was begun durably is owed its Finish
    runFinalization := if run.any (!·.cleanupConfirmed) then .pending else .done
    info.initialization := some .failed
    info.error := error.map safeError
    exitedAt := some now }
  run.elim slot slot.named

/-- The worker's answer to `Finish`. -/
def finishAnswered (slot : Slot) (succeeded : Bool) : Slot :=
  { slot with runFinalization := if succeeded then .done else .pending }

/-- A failed `Finish` or cancellation is tried again later. -/
def retried (slot : Slot) (cancel : Bool) (error : String) (now : Nat) : Slot :=
  let preparationFailure := !cancel && slot.runtime.isNone && slot.info.exit.isNone &&
    slot.info.error.isSome
  { slot with
    info.error := if preparationFailure then slot.info.error else some (safeError error)
    runCancelPending := !cancel && slot.runCancelPending
    runRetryAfter := some (now + 250) }

def retryDue (slot : Slot) (now : Nat) : Bool := slot.runRetryAfter.all (· ≤ now)

/-! ### The death of a worker -/

/-- A preparation that will never be answered. -/
def abandoned (slot : Slot) (error : String) (now : Nat) : Slot :=
  { slot with
    preparing := false
    info.state := .failed
    info.initialization := some .failed
    info.owner := none
    info.childPid := none
    info.error := some error
    exitedAt := some now }

/-- One slot of `mark_runs_dead`. -/
def runsDied (slot : Slot) (now : Nat) : Slot :=
  match slot.purpose with
  | .run (some _) =>
    let slot :=
      if slot.isLive then
        { slot with
          info.error := some ("run registry worker exited; the run ledger records this " ++
            "execution as unknown on restart")
          runCancelPending := false
          runRetryAfter := none }
      else slot
    { slot with runFinalization := .done }
  | .run none =>
    if slot.preparing then
      { slot.abandoned "run registry worker exited before the task was prepared" now with
        runFinalization := .done }
    else slot
  | .editor =>
    if slot.preparing then
      { slot.abandoned "run registry worker exited before the editor was prepared" now with
        runFinalization := .done }
    else slot
  | .terminal _ => slot

/-- One slot of `fail_pending_prepares`. -/
def launchDied (slot : Slot) (now : Nat) : Slot :=
  if slot.preparing then
    (slot.abandoned "shell preparation worker exited; no reviewed launch ran" now).forgetSaved
  else slot

/-! ### The process and its descendants -/

/-- The leader of the session, once its exit has been seen and while it is not reaped. -/
def anchor (slot : Slot) : Option Anchor :=
  if slot.info.exit.isSome && !slot.cleanup.done then
    (slot.runtime.bind (·.childPid)).map fun pid => ⟨slot.info.sessionId, pid⟩
  else none

/-- What the loop over the processes has counted, the failure it found last, the signals of
    the session so far, and whether one was asked for. -/
structure Visit where
  found : Nat
  failure : Option String
  signalled : List (Pid × Bool)
  signals : Bool

/-- One process of the anchor's session. -/
def visit (slot : Slot) (runsDead : Bool) (host : Pid) (answer : Pid → ChildAnswer)
    (visit : Visit) (process : Process) : Visit :=
  let visit := { visit with found := visit.found + 1 }
  if process.parent ≠ host then visit
  else
    let answer := answer process.pid
    match answer.verify with
    | .error error => { visit with failure := some (safeError error) }
    | .ok .exited =>
      match answer.reap with
      | .ok () => { visit with signalled := visit.signalled.filter (·.1 != process.pid) }
      | .error error => { visit with failure := some (safeError error) }
    | .ok .running =>
      if slot.cleanup.requested && slot.mayClose runsDead &&
          visit.signalled.lookup process.pid != some slot.cleanup.force then
        match answer.signal with
        | .ok () =>
          { visit with
            signalled := (process.pid, slot.cleanup.force) ::
              visit.signalled.filter (·.1 != process.pid)
            signals := true }
        | .error error => { visit with failure := some (safeError error), signals := true }
      else visit

/-- A report is about the leader of this session. -/
def answers (slot : Slot) (anchor : Anchor) : Bool :=
  slot.info.exit.isSome && (slot.runtime.bind (·.childPid)).map Int.ofNat == some anchor.pid

/-- What `poll_child_inventory` does for one anchor, and whether it signals a process. -/
def inventory (slot : Slot) (runsDead : Bool) (host : Pid) (answer : Pid → ChildAnswer)
    (report : Report) (anchor : Anchor) : Slot × Bool :=
  let visited := (report.processes.filter (·.session == anchor.pid)).foldl
    (slot.visit runsDead host answer) ⟨0, report.error, slot.cleanup.signalled, false⟩
  let slot := { slot with
    cleanup.signalled := visited.signalled
    cleanup.done := report.complete && visited.failure.isNone && visited.found == 0 }
  let slot :=
    match visited.failure with
    | some error => slot.cleanupNotice
        ("ownership inventory is incomplete: " ++ error ++ "; exit is not confirmed")
    | none =>
      if 0 < visited.found then
        let action :=
          if slot.cleanup.force then "force requested; waiting for observed exits"
          else if slot.cleanup.requested then
            "hangup requested; explicit force close is available"
          else "shell exited; explicit close or force close is available"
        slot.cleanupNotice
          (toString visited.found ++ " same-session processes remain; " ++ action)
      else slot
  (slot, visited.signals)

/-! ### One tick -/

/-- What the terminal of a session answers during one tick.  The reader's status is asked
    for again once the exit has been observed. -/
structure TickAnswers where
  status : Result TerminalStatus
  initialization : Result InitializationState
  close : Result Unit
  waited : Result (Option TerminalExit)
  closed : Result TerminalStatus
  closedAgain : Result TerminalStatus
  endCollection : Result Unit
  snapshot : Result TerminalSnapshot
  reapExit : Result TerminalExit
  cwd : Option OsPath

/-- The generation and the error of the terminal. -/
def refresh (slot : Slot) (status : Result TerminalStatus) : Slot :=
  if slot.frozen.isNone then
    match status with
    | .ok status =>
      { slot with
        info.generation := status.generation
        info.error := match status.error with
          | some error => some (safeError error)
          | none => slot.info.error }
    | .error _ => slot
  else slot

def observeInitialization (slot : Slot) (state : Result InitializationState) : Slot :=
  if slot.info.state = .running then
    match state with
    | .ok state => { slot with info.initialization := some state }
    | .error error =>
      { slot with info.error := some (safeError error), info.initialization := none }
  else slot

/-- The grace of a cancelled run is over. -/
def escalates (slot : Slot) (runtime : Runtime) (runsDead : Bool) (now : Nat) : Bool :=
  slot.cleanup.requested && !slot.cleanup.force && runtime.terminates &&
    slot.closingAt.any (twoSecondsSince now) && slot.mayClose runsDead

def escalated (slot : Slot) (close : Result Unit) : Slot :=
  let slot := { slot with cleanup.force := true }
  match close with
  | .ok () => slot
  | .error error => slot.withError (safeError error)

/-- The exit is seen for the first time. -/
def observeExit (slot : Slot) (exit : TerminalExit) (now : Nat) : Slot :=
  if slot.info.exit.isNone then
    cleanupNotice
      { slot with
        info.exit := some exit
        info.state := .closing
        info.childPid := none
        info.cwd := none
        exitedAt := some now }
      "shell exited; checking same-session descendants"
  else slot

def overdue (slot : Slot) (now : Nat) : Bool := slot.exitedAt.any (twoSecondsSince now)

/-- The output is cut off before its end. -/
def cutOff (slot : Slot) (endCollection : Result Unit) : Slot :=
  let slot :=
    match endCollection with
    | .ok () => slot
    | .error error => slot.withError (safeError error)
  if slot.replaceable then
    slot.withError ("final output collection ended before PTY EOF; later descendant output " ++
      "may be missing")
  else slot

/-- The last screen is kept once the reader has closed or two seconds have passed. -/
def freeze (slot : Slot) (answers : TickAnswers) (now : Nat) : Slot :=
  if slot.frozen.isNone && (Git.Operation.readerClosed answers.closed || slot.overdue now) then
    let slot :=
      if Git.Operation.readerClosed answers.closedAgain then slot
      else slot.cutOff answers.endCollection
    match answers.snapshot with
    | .ok screen =>
      { slot with frozen := some screen, info.generation := screen.generation }
    | .error _ =>
      slot.withError (slot.info.error.getD "final terminal screen could not be collected")
  else slot

/-- The leader may be reaped. -/
def reapable (slot : Slot) (now : Nat) : Bool :=
  slot.cleanup.done && (slot.frozen.isSome || slot.overdue now)

/-- The leader has been reaped. -/
def reaped (slot : Slot) (exit : TerminalExit) : Slot :=
  forgetSaved
    { slot with
      info.exit := some exit
      info.state := if slot.cleanup.requested then .closed else .exited
      info.owner := none
      info.error := slot.info.error.filter (!cleanupPrefix.isPrefixOf ·)
      runtime := none
      cleanup.signalled := [] }

/-- What a tick has done with one slot: the slot, whether its record changed, and what the
    terminal was asked. -/
structure Ticked where
  slot : Slot
  changed : Bool
  escalated : Bool
  exited : Bool
  reaped : Bool

/-- The first half of the loop's body, up to `try_wait`. -/
def prepareTick (slot : Slot) (runtime : Runtime) (answers : TickAnswers) (runsDead : Bool)
    (now : Nat) : Ticked :=
  let slot := (slot.refresh answers.status).observeInitialization answers.initialization
  if slot.escalates runtime runsDead now then
    ⟨slot.escalated answers.close, true, true, false, false⟩
  else ⟨slot, false, false, false, false⟩

/-- `Ok(Some(exit))` of `try_wait`. -/
def settleExit (slot : Slot) (exit : TerminalExit) (answers : TickAnswers) (now : Nat) :
    Slot × Bool :=
  let slot := (slot.observeExit exit now).freeze answers now
  if slot.reapable now then
    match answers.reapExit with
    | .ok exit => (slot.reaped exit, true)
    | .error error => (slot.withError (safeError error), false)
  else (slot, false)

/-- `Ok(None)` of `try_wait`. -/
def stillRunning (slot : Slot) (answers : TickAnswers) (now : Nat) : Slot :=
  let slot := { slot with info.cwd := answers.cwd }
  if slot.closingAt.any (twoSecondsSince now) then
    slot.cleanupNotice
      (if slot.cleanup.force then "force requested; terminal leader exit is not yet observed"
      else "terminal has not exited after hangup; explicit force close is available")
  else slot

/-- One round of the loop over the slots. -/
def tick (slot : Slot) (answers : TickAnswers) (runsDead : Bool) (now : Nat) : Ticked :=
  match slot.runtime with
  | none => ⟨slot, false, false, false, false⟩
  | some runtime =>
    let ticked := slot.prepareTick runtime answers runsDead now
    match answers.waited with
    | .error error => { ticked with slot := ticked.slot.withError (safeError error) }
    | .ok none => { ticked with slot := ticked.slot.stillRunning answers now }
    | .ok (some exit) =>
      let first := ticked.slot.info.exit.isNone
      let (slot, reaped) := ticked.slot.settleExit exit answers now
      { slot := slot
        changed := ticked.changed || first || reaped
        escalated := ticked.escalated
        exited := first
        reaped := reaped }

/-! ### Ends -/

/-- The run of an ended session that is owed its `Finish`. -/
def toFinish (slot : Slot) (now : Nat) : Option String :=
  if !slot.isLive && !slot.preparing && slot.runtime.isNone &&
      slot.runFinalization == .pending && slot.retryDue now then
    slot.purpose.runId
  else none

/-- An ended run or editor that nothing is owed. -/
def retirable (slot : Slot) : Bool :=
  !slot.purpose.isTerminal && !slot.isLive && !slot.preparing && slot.runtime.isNone &&
    slot.runFinalization == .done

end Slot

/-! ## Records -/

/-- `Tombstone::from_slot`. -/
def HostRecord.fromSlot (slot : Slot) : HostRecord where
  sessionId := slot.info.sessionId
  projectId := slot.info.projectId
  terminalId := slot.info.terminalId
  name := slot.info.name
  persistent := slot.info.persistent
  state := slot.info.state
  definitionRevision := slot.info.definitionRevision
  launchDigest := slot.info.launchDigest
  exit := slot.info.exit
  purpose :=
    match slot.purpose with
    | .terminal _ => none
    | .run _ => some "run"
    | .editor => some "editor"
  runId := slot.purpose.runId

/-- `Tombstone::restore`. -/
def HostRecord.restore (isUuid : IsUuid) (hostInstance : String) (record : HostRecord) :
    Result SessionInfo := do
  validId isUuid record.sessionId
  validId isUuid record.projectId
  validId isUuid record.terminalId
  validName record.name
  ensure (record.launchDigest.all fun digest =>
    digest.utf8ByteSize == 64 && digest.toList.all isAsciiHexdigit)
    "invalid launch digest in ledger"
  let unknown := record.state.isLive || record.state == .unknown
  pure
    { sessionId := record.sessionId
      projectId := record.projectId
      terminalId := record.terminalId
      name := record.name
      hostInstance := hostInstance
      persistent := record.persistent
      state := if unknown then .unknown else record.state
      initialization := none
      inputEpoch := 0
      owner := none
      generation := 0
      childPid := none
      cwd := none
      definitionRevision := record.definitionRevision
      launchDigest := record.launchDigest
      exit := record.exit
      error :=
        if unknown then
          some ("previous host ended without a confirmed terminal exit; " ++
            "old processes were not adopted or signalled")
        else none }

/-- The purpose that `Actor::new` gives to the slot of a record. -/
def HostRecord.slotPurpose (record : HostRecord) : Result SlotPurpose :=
  match record.purpose with
  | some "run" => .ok (.run record.runId)
  | some "editor" => .ok .editor
  | none => .ok (.terminal none)
  | some _ => .error "unsupported session purpose; ledger preserved"

end Idk.Host
