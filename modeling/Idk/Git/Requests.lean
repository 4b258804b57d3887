import Idk.Git.Tick

/-!
# What the host asks of the bridge

`Bridge::request` and the small questions of the actor (`git_bridge.rs`), and one whole
`Bridge::tick`.
-/

namespace Idk.Git

open Idk.Logic (Procedure)
open Idk.Logic.Procedure (current update answer fail attempt iterate)
open Bridge

/-- `{:?}`. -/
def OperationKind.debug : OperationKind → String
  | .stage => "Stage"
  | .unstage => "Unstage"
  | .commit => "Commit"
  | .createBranch => "CreateBranch"
  | .switchBranch => "SwitchBranch"
  | .fetch => "Fetch"
  | .pullFastForward => "PullFastForward"
  | .push => "Push"

namespace Bridge

def clientOwnsInput (bridge : Bridge) (client : String) : Bool :=
  bridge.operations.toList.any fun entry =>
    entry.2.active && entry.2.info.owner == some client

/-- The first three active operations of the scope. -/
def closeBlockers (bridge : Bridge) (project : Option String) : List String :=
  ((bridge.operations.toList.filter fun entry =>
      entry.2.active && project.all (· == entry.2.info.projectId)).take 3).map fun entry =>
    entry.2.info.id ++ " (" ++ entry.2.info.kind.debug ++ ")"

def checkClose (bridge : Bridge) (project : Option String) : Result Unit := do
  ensure (bridge.closeBlockers project).isEmpty
    ("active Git operations must finish or be explicitly cancelled before reviewing " ++
      "terminal/host close: " ++ ", ".intercalate (bridge.closeBlockers project))
  ensure (!bridge.jobs.toList.any fun entry =>
      entry.2.info.state.isOpen && project.all (· == entry.2.project))
    ("Git read/prepare jobs are still running; wait for their result before reviewing " ++
      "terminal/host close")

def idle (bridge : Bridge) : Bool :=
  bridge.occupied == 0 && bridge.reading == 0 && bridge.queue.isEmpty

def anchors (bridge : Bridge) : List Host.Anchor :=
  bridge.operations.toList.filterMap fun entry => entry.2.anchor

end Bridge

/-- `Operation::snapshot`; `terminal` is what the owned terminal answers. -/
def Operation.snapshot (operation : Operation) (since : Option Nat)
    (terminal : Result (Option TerminalSnapshot)) :
    Result (OperationInfo × Option TerminalSnapshot) := do
  let screen ←
    match operation.frozen with
    | some screen => pure (if since = some screen.generation then none else some screen)
    | none => if operation.terminal.isSome then terminal else pure none
  let generation :=
    match screen, since with
    | some screen, _ => screen.generation
    | none, some since => since
    | none, none => operation.info.generation
  return ({ operation.info with generation := generation }, screen)

/-! ## Requests -/

inductive GitRequest where
  | submit (task : GitTask)
  | job (id : String)
  | execute (plan : String) (rows cols : Nat)
  | operations (project : Option String)
  | operation (id : String) (request : OperationRequest)
  | snapshot (id : String) (since : Option Nat)
deriving DecidableEq, Repr

inductive GitReply where
  | job (info : GitJobInfo)
  | operations (infos : List OperationInfo)
  | operation (info : OperationInfo)
  | snapshot (info : OperationInfo) (screen : Option TerminalSnapshot)
  | done

variable (formats : GitFormats)

/-- `job`. -/
def jobOf (client id : String) : Op GitJobInfo := do
  let bridge ← current
  let job ← context bridge.jobs[id]? "Git job expired or is unknown; refresh explicitly"
  ensure (job.client == client) "Git job belongs to another client"
  return job.info

/-- `request`; `screen` is what the terminal of the operation answers. -/
def request (client : String) (shells : Nat) (quiescing : Bool)
    (screen : Result (Option TerminalSnapshot)) : GitRequest → Op GitReply
  | .submit task => do
    ensure (!quiescing) "host shutdown is in progress"
    let bridge ← current
    ensure (!bridge.readsDead)
      "Git read workers exited; restart the host for new Git requests"
    let info ← submit formats client task
    return .job info
  | .job id => do
    let info ← jobOf client id
    return .job info
  | .execute plan rows cols => do
    ensure (!quiescing) "host shutdown is in progress"
    let bridge ← current
    ensure (!bridge.executionsDead)
      "Git execution workers exited; restart the host for new Git operations"
    let info ← execute client plan rows cols shells
    return .operation info
  | .operations project => do
    let bridge ← current
    return .operations ((bridge.operations.toList.filter fun entry =>
      project.all (· == entry.2.info.projectId)).map (·.2.info))
  | .operation id (.cancel epoch force) => do
    let before ← operationOf id
    cancelOperation client id epoch force
    let operation ← operationOf id
    -- the reply was taken before a failed save is noted
    return .operation { operation.info with error := before.info.error }
  | .operation id request => do
    operationRequest client id request
    match request with
    | .input .. | .resize _ => return .done
    | _ => do
      let operation ← operationOf id
      return .operation operation.info
  | .snapshot id since => do
    let operation ← operationOf id
    let (info, screen) ← operation.snapshot since screen
    return .snapshot info screen

/-! ## One tick -/

/-- The loop over the operations. -/
def tickOperations (terminals : String → Operation.TickAnswers) (receives : String → Bool) :
    Op Unit := do
  let bridge ← current
  bridge.operations.toList.forM fun entry => do
    let _ ← tickOperation entry.1 (terminals entry.1) (receives entry.1)

/-- At most `rounds` times. -/
def repeated (op : Op Unit) : Nat → Op Unit
  | 0 => pure ()
  | rounds + 1 => do
    op
    repeated op rounds

/-- `tick`.  A further round of the loop over the queue finds nothing to dispatch. -/
def tick (terminals : String → Operation.TickAnswers) (receives : String → Bool) : Op Unit := do
  repeated nextEvent 16
  sweepReads
  sweepExecutions
  tickOperations terminals receives
  forgetScreens
  let bridge ← current
  repeated dispatchRead bridge.queue.length

end Idk.Git
