import Idk.Host.Children
import Idk.Protocol.Envelope
import Idk.Run.Records

/-!
# Git operations

`Operation` (`git_operation.rs`): one reviewed Git command with its own terminal, its
own input ownership and a completion channel to the executor that waits for it.  What
the terminal, the clock and the system answer is given from outside.
-/

namespace Idk.Git

open Idk.Host

inductive OperationKind where
  | stage
  | unstage
  | commit
  | createBranch
  | switchBranch
  | fetch
  | pullFastForward
  | push
deriving DecidableEq, Repr

inductive OperationState where
  | pending
  | running
  | cancelling
  | complete
  | unknown
deriving DecidableEq, Repr

inductive GitOutcome where
  | succeeded
  | failed
  | cancelled
  | unknown
  | changedAfterExecution
deriving DecidableEq, Repr

inductive Head where
  | unborn (reference : String)
  | branch (reference oid : String)
  | detached (oid : String)
deriving DecidableEq, Repr

structure Revision where
  repository : Repository
  head : Head
  indexDigest : String
deriving DecidableEq, Repr

/-- `CommandOutcome`: of a process that has been reaped. -/
structure CommandOutcome where
  exitCode : Option Nat
  cancelled : Bool
  outputLimited : Bool
deriving DecidableEq, Repr

/-- `GitOperationResult`; of the snapshot afterwards only its revision, of a commit its oid. -/
structure OperationResult where
  id : String
  kind : OperationKind
  outcome : GitOutcome
  exitCode : Option Nat
  after : Option Revision
  commit : Option String
  warnings : List String
deriving DecidableEq, Repr

/-- `GitOperationInfo`; an owner is the id of its client. -/
structure OperationInfo where
  id : String
  contextId : String
  projectId : String
  repository : Repository
  hostInstance : String
  kind : OperationKind
  state : OperationState
  cleanupAcknowledged : Bool
  owner : Option String
  inputEpoch : Nat
  generation : Nat
  terminalAvailable : Bool
  result : Option OperationResult
  error : Option String
deriving DecidableEq, Repr

/-- `TerminalStatus`. -/
structure TerminalStatus where
  generation : Nat
  readerClosed : Bool
  error : Option String
deriving DecidableEq, Repr

/-- What `tick` reads of a `TerminalSnapshot`. -/
structure TerminalSnapshot where
  generation : Nat
  outputLimited : Bool
  error : Option String
deriving DecidableEq, Repr

/-- `checked_add` on 64 bits. -/
def checkedSucc (value : Nat) : Option Nat := if value + 1 < 2 ^ 64 then some (value + 1) else none

/-- A duration in milliseconds; `elapsed() >= Duration::from_secs(2)`. -/
def twoSecondsSince (now start : Nat) : Bool := start + 2000 ≤ now

structure Operation where
  info : OperationInfo
  cancelled : Bool
  finishedAt : Option Nat
  /-- The process id of the terminal's child, while the terminal is owned. -/
  terminal : Option Pid
  /-- The completion sender is here. -/
  completion : Bool
  frozen : Option TerminalSnapshot
  exit : Option TerminalExit
  exitedAt : Option Nat
  force : Bool
  cleanupDone : Bool
  signalled : List (Pid × Bool)
  executed : Bool
deriving DecidableEq, Repr

namespace Operation

def new (info : OperationInfo) : Operation where
  info := info
  cancelled := false
  finishedAt := none
  terminal := none
  completion := false
  frozen := none
  exit := none
  exitedAt := none
  force := false
  cleanupDone := false
  signalled := []
  executed := false

def active (operation : Operation) : Bool := operation.finishedAt.isNone

/-- The executor never reached its callback. -/
def unspawned (operation : Operation) : Bool := operation.active && !operation.executed

/-- Only the executor's report is owed. -/
def reaped (operation : Operation) : Bool := operation.executed && operation.terminal.isNone

/-- Errors that `notice` may replace and a result clears. -/
def noticePrefix : String := "Git process cleanup:"

def notice (operation : Operation) (message : String) : Operation :=
  if operation.info.error.all (noticePrefix.isPrefixOf ·) then
    { operation with info.error := some (safeError (noticePrefix ++ " " ++ message)) }
  else operation

/-- `info.error = Some(message)`. -/
def noted (operation : Operation) (message : String) : Operation :=
  { operation with info.error := some message }

/-- The terminal is taken over. -/
def installed (operation : Operation) (pid : Pid) : Operation :=
  { operation with
    terminal := some pid
    executed := true
    completion := true
    info.terminalAvailable := true
    info.state := if operation.cancelled then .cancelling else .running }

/-- `install`; `close` is what the terminal answers to a close request. -/
def install (operation : Operation) (pid : Pid) (close : Result Unit) : Operation :=
  match operation.cancelled, close with
  | true, .error error => (operation.installed pid).notice (safeError error)
  | _, _ => operation.installed pid

/-! ### Input ownership -/

def owner (operation : Operation) (client : String) (epoch : Nat) : Result Unit :=
  ensure (operation.info.owner == some client && operation.info.inputEpoch == epoch)
    "Git operation input ownership changed; attach or explicitly take over"

def advance (operation : Operation) : Result Operation := do
  let epoch ← context (checkedSucc operation.info.inputEpoch)
    "Git operation ownership epoch exhausted"
  pure { operation with info.inputEpoch := epoch }

def attach (operation : Operation) (client : String) (takeover : Bool) : Result Operation :=
  if operation.active then do
    ensure (operation.info.owner.all (· == client) || takeover)
      "Git operation is owned by another client; explicit takeover required"
    if operation.info.owner = some client then
      pure operation
    else do
      let operation ← operation.advance
      pure { operation with info.owner := some client }
  else pure operation

def detach (operation : Operation) (client : String) (epoch : Nat) : Result Operation :=
  if operation.active then do
    operation.owner client epoch
    let operation ← operation.advance
    pure { operation with info.owner := none }
  else pure operation

/-- Whether `input` hands the bytes to the terminal. -/
def input (operation : Operation) (client : String) (epoch : Nat) : Result Pid := do
  operation.owner client epoch
  ensure (operation.active && operation.exit.isNone) "Git operation is not accepting input"
  context operation.terminal "Git operation PTY is not ready"

/-- The terminal to resize, when there is one to resize. -/
def resize (operation : Operation) (client : String) (epoch : Nat) : Result (Option Pid) :=
  if operation.exit.isSome || !operation.active || operation.reaped then .ok none
  else do
    operation.owner client epoch
    let terminal ← context operation.terminal "Git operation PTY is not available"
    pure (some terminal)

/-- `cancel`; the request stays recorded when the terminal refuses it. -/
def cancel (operation : Operation) (client : String) (epoch : Nat) (force : Bool)
    (close : Result Unit) : Operation × Result Unit :=
  if operation.active then
    match operation.owner client epoch with
    | .error error => (operation, .error error)
    | .ok () =>
      ({ operation with
          cancelled := true
          force := operation.force || force
          info.state := .cancelling },
        if operation.terminal.isSome then close else .ok ())
  else (operation, .ok ())

/-! ### The process and its descendants -/

def anchor (operation : Operation) : Option Anchor :=
  if operation.exit.isNone || operation.cleanupDone then none
  else operation.terminal.map fun pid => ⟨operation.info.id, pid⟩

/-- What `inventory` has counted, the failure it found last and the signals it has sent. -/
structure Visit where
  found : Nat
  failure : Option String
  signalled : List (Pid × Bool)

/-- One process of the anchor's session. -/
def visit (operation : Operation) (host : Pid) (answer : Pid → ChildAnswer)
    (visit : Visit) (process : Process) : Visit :=
  let visit := { visit with found := visit.found + 1 }
  if process.parent ≠ host then visit
  else
    let answer := answer process.pid
    match answer.verify with
    | .error error => { visit with failure := some (safeError error) }
    | .ok .exited =>
      match answer.reap with
      | .ok () => { visit with signalled := visit.signalled.filter (·.1 != process.pid) }
      | .error error => { visit with failure := some (safeError error) }
    | .ok .running =>
      if operation.cancelled && visit.signalled.lookup process.pid != some operation.force then
        match answer.signal with
        | .ok () => { visit with signalled := (process.pid, operation.force) ::
            visit.signalled.filter (·.1 != process.pid) }
        | .error error => { visit with failure := some (safeError error) }
      else visit

def inventory (operation : Operation) (host : Pid) (answer : Pid → ChildAnswer)
    (report : Report) : Operation :=
  match operation.anchor with
  | none => operation
  | some anchor =>
    if anchor ∈ report.anchors then
      let visited := (report.processes.filter (·.session == anchor.pid)).foldl
        (operation.visit host answer) ⟨0, report.error, operation.signalled⟩
      let operation := { operation with
        signalled := visited.signalled
        cleanupDone := report.complete && visited.failure.isNone && visited.found == 0 }
      match visited.failure with
      | some error => operation.notice ("descendant inventory incomplete: " ++ error)
      | none =>
        if visited.found > 0 then
          operation.notice (toString visited.found ++ " same-session processes remain; " ++
            "completion and source lease remain pending; explicit force cancel is available")
        else operation
    else operation

/-- What the terminal and the clock answer to `tick`.  The reader's status is asked for
    again once the exit has been observed. -/
structure TickAnswers where
  now : Nat
  status : Result TerminalStatus
  observed : Result (Option TerminalExit)
  closed : Result TerminalStatus
  closedAgain : Result TerminalStatus
  endCollection : Result Unit
  snapshot : Result TerminalSnapshot
  reapExit : Result TerminalExit

def refresh (operation : Operation) (status : Result TerminalStatus) : Operation :=
  if operation.frozen.isNone then
    match status with
    | .ok status =>
      { operation with
        info.generation := status.generation
        info.error := match status.error with
          | some error => some (safeError error)
          | none => operation.info.error }
    | .error _ => operation
  else operation

/-- The exit is seen for the first time. -/
def observe (operation : Operation) (now : Nat) (exit : TerminalExit) : Operation :=
  if operation.exit.isNone then
    { operation with
      exit := some exit
      exitedAt := some now
      info.terminalAvailable := false }
  else operation

def readerClosed (status : Result TerminalStatus) : Bool :=
  match status with
  | .ok status => status.readerClosed
  | .error _ => false

def overdue (operation : Operation) (now : Nat) : Bool :=
  operation.exitedAt.any (twoSecondsSince now)

/-- The last screen is kept once the reader has closed or two seconds have passed. -/
def freeze (operation : Operation) (answers : TickAnswers) : Operation :=
  if operation.frozen.isNone && (readerClosed answers.closed || operation.overdue answers.now) then
    let operation :=
      match readerClosed answers.closedAgain, answers.endCollection with
      | false, .error error => { operation with info.error := some (safeError error) }
      | _, _ => operation
    match answers.snapshot with
    | .ok screen => { operation with frozen := some screen, info.generation := screen.generation }
    | .error _ => operation
  else operation

/-- The leader may be reaped. -/
def reapable (operation : Operation) (now : Nat) : Bool :=
  operation.cleanupDone && (operation.frozen.isSome || operation.overdue now)

def outcome (operation : Operation) (exit : TerminalExit) : CommandOutcome where
  exitCode := some exit.code
  cancelled := operation.cancelled
  outputLimited := operation.frozen.all fun screen => screen.outputLimited || screen.error.isSome

/-- The leader has been reaped; `receiver` says whether the executor still waits. -/
def reapedWith (operation : Operation) (now : Nat) (receiver : Bool) : Operation :=
  let completion := operation.completion
  let operation := { operation with terminal := none, signalled := [], completion := false }
  if completion && !receiver then
    -- the process is reaped, but the outcome of the service stays unknown
    { operation with
      finishedAt := some now
      info.owner := none
      info.state := .unknown
      info.error := some
        "Git executor exited before reporting an outcome; the owned process was reaped" }
  else operation

/-- The second half of `tick`, with the exit observed. -/
def settle (operation : Operation) (answers : TickAnswers) (receiver : Bool) :
    Operation × Option CommandOutcome :=
  if operation.reapable answers.now then
    match answers.reapExit with
    | .ok exit =>
      (operation.reapedWith answers.now receiver,
        if operation.completion && receiver then some (operation.outcome exit) else none)
    | .error error => ({ operation with info.error := some (safeError error) }, none)
  else (operation, none)

/-- `tick`, and the outcome it has sent to the executor. -/
def tick (operation : Operation) (answers : TickAnswers) (receiver : Bool) :
    Operation × Option CommandOutcome :=
  if operation.terminal.isNone then (operation, none)
  else
    let operation := operation.refresh answers.status
    match answers.observed with
    | .error error => ({ operation with info.error := some (safeError error) }, none)
    | .ok none => (operation, none)
    | .ok (some exit) =>
      ((operation.observe answers.now exit).freeze answers).settle answers receiver

/-! ### The end -/

def finish (operation : Operation) (now : Nat) (result : Result OperationResult) : Operation :=
  if operation.terminal.isSome then
    { operation with
      info.state := .unknown
      info.error := some
        "Git executor returned before its owned process cleanup; outcome is unconfirmed" }
  else
    let operation := { operation with
      finishedAt := some now
      info.owner := none
      info.terminalAvailable := false }
    match result with
    | .ok result =>
      { operation with
        info.state := if result.outcome == .unknown then .unknown else .complete
        info.result := some result
        info.error :=
          if operation.info.error.any (noticePrefix.isPrefixOf ·) then none
          else operation.info.error }
    | .error error =>
      { operation with
        info.state := if operation.executed then .unknown else .complete
        info.error := some (safeError error) }

def forgetScreen (operation : Operation) : Operation :=
  if operation.active then operation
  else
    { operation with
      frozen := none
      info.result := operation.info.result.map fun result =>
        if result.after.isSome then
          { result with
            after := none
            warnings := result.warnings ++ ["Historical post-operation snapshot is no longer " ++
              "retained; refresh repository state."] }
        else result }

end Operation

end Idk.Git
