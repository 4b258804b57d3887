import Idk.Git.Tick
import Idk.Logic.Transition

/-!
# The bridge among its worker threads

Two readers and four executors (`git_jobs.rs`) share the channels, the source gate and
the states of reviewed plans with the actor, which owns the bridge; the processes that
the executors spawn belong to the actor until it reaps them.  `GitService::execute_with`
(`service.rs`) is cut where another thread could see it: at its lease, at its validation
of the repository, at the state of the plan, at the spawn and at both channels.  Its
mutex and its lock file only add refusals to those of `refuse`.

A step of the actor is one request, or one part of `tick`, in any order of the parts.
-/

namespace Idk.Git

open Idk.Logic (System)
open Idk.Host (Pid Report ChildAnswer)

/-! ## Threads -/

inductive Reader where
  | idle
  | reading (work : ReadWork)
  | dead

/-- An executor by what it has done of its work. -/
inductive Executor where
  | idle
  | started (work : ExecuteWork)
  | leased (work : ExecuteWork) (lease : Option GateLease)
  | validated (work : ExecuteWork) (lease : Option GateLease)
  /-- The runner has been invoked. -/
  | running (work : ExecuteWork) (lease : Option GateLease)
  | spawned (work : ExecuteWork) (lease : Option GateLease) (pid : Pid)
  /-- In `outcome.recv()`. -/
  | waiting (work : ExecuteWork) (lease : Option GateLease)
  /-- The runner has returned. -/
  | finished (work : ExecuteWork) (lease : Option GateLease) (execution : Result CommandOutcome)
  | returned (work : ExecuteWork) (result : Result OperationResult)
  | dead

namespace Executor

def work? : Executor → Option ExecuteWork
  | idle | dead => none
  | started work | leased work _ | validated work _ | running work _ | spawned work _ _
  | waiting work _ | finished work _ _ | returned work _ => some work

def lease? : Executor → Option GateLease
  | leased _ lease | validated _ lease | running _ lease | spawned _ lease _ | waiting _ lease
  | finished _ lease _ => lease
  | _ => none

/-- The completion receiver of the operation is here. -/
def waitsFor (id : String) : Executor → Bool
  | spawned work _ _ | waiting work _ => work.id == id
  | _ => false

end Executor

/-- The leader of an operation's session. -/
inductive ProcessState where
  | absent
  | running (pid : Pid)
  | exited (pid : Pid)
  | reaped (pid : Pid)
deriving DecidableEq

structure World where
  bridge : Bridge
  readers : Fin 2 → Reader
  executors : Fin 4 → Executor
  /-- The state that the clones of a plan share, by the plan's id. -/
  plans : String → Nat
  /-- What the completion channel of an operation holds. -/
  outcomes : String → Option CommandOutcome
  processes : String → ProcessState
  /-- What a look at the repository finds, by its Git directory. -/
  revisions : PathBuf → Revision
  /-- The leases of the runs that share the gate. -/
  runLeases : List GateLease

namespace World

def regate (world : World) (gate : SourceGate) : World := { world with bridge.gate := gate }

def setReader (world : World) (reader : Fin 2) (state : Reader) : World :=
  { world with readers := Function.update world.readers reader state }

def setExecutor (world : World) (executor : Fin 4) (state : Executor) : World :=
  { world with executors := Function.update world.executors executor state }

def setProcess (world : World) (id : String) (state : ProcessState) : World :=
  { world with processes := Function.update world.processes id state }

def setPlan (world : World) (id : String) (state : Nat) : World :=
  { world with plans := Function.update world.plans id state }

/-- Some executor holds the receiver of the operation's completion channel. -/
def receives (world : World) (id : String) : Bool :=
  (List.finRange 4).any fun executor => (world.executors executor).waitsFor id

/-- The completion sender of the operation is on its way to the actor, or there. -/
def completes (world : World) (id : String) : Bool :=
  world.bridge.operations[id]?.any (·.completion) ||
    world.bridge.workers.events.any fun event =>
      match event with
      | .terminal other _ => other == id
      | _ => false

/-- `send`, once there is room in `sync_channel(16)`. -/
def send (world : World) (event : Event) : Option World :=
  if world.bridge.workers.events.length < 16 then
    some { world with bridge.workers.events := world.bridge.workers.events ++ [event] }
  else none

/-- Dropping the lease an executor may hold. -/
def dropLease (world : World) (lease : Option GateLease) : World :=
  world.regate (lease.elim world.bridge.gate world.bridge.gate.drop)

end World

/-- What `revalidate` demands of the revision, by the kind of the plan. -/
def OperationPreview.accepts (preview : OperationPreview) (revision : Revision) : Bool :=
  match preview.kind with
  | .fetch => true -- independent of the local index and HEAD
  | .createBranch | .push => revision.head == preview.before.head
  | _ => revision == preview.before

/-- What `assess_effects` and the look at the repository afterwards add to a result. -/
structure Assessment where
  after : Option Revision
  outcome : Option GitOutcome
  commit : Option String
  warnings : List String

def CommandOutcome.gitOutcome (outcome : CommandOutcome) : GitOutcome :=
  if outcome.cancelled then .cancelled
  else
    match outcome.exitCode with
    | some 0 => .succeeded
    | some _ => .failed
    | none => .unknown

/-- The result of `execute_with` once the runner has returned. -/
def OperationPreview.concluded (preview : OperationPreview) (execution : Result CommandOutcome)
    (assessment : Assessment) : OperationResult :=
  let (outcome, exitCode, warnings) : GitOutcome × Option Nat × List String :=
    match execution with
    | .ok outcome => (outcome.gitOutcome, outcome.exitCode,
        if outcome.outputLimited then
          ["Operation output was limited; no full transcript is claimed."]
        else [])
    | .error _ => (.unknown, none, [("Executor could not confirm an outcome. " ++
        "Do not automatically retry this operation.")])
  let (outcome, warnings) :=
    if assessment.after.isNone then
      (GitOutcome.unknown,
        warnings ++ ["Post-operation repository state could not be verified."])
    else (assessment.outcome.getD outcome, warnings ++ assessment.warnings)
  { id := preview.id, kind := preview.kind, outcome := outcome, exitCode := exitCode,
    after := assessment.after, commit := assessment.commit, warnings := warnings }

/-! ## Steps -/

inductive Act where
  -- the actor
  | submit (client : String) (task : GitTask)
  | execute (client id : String) (rows cols shells : Nat)
  | operation (client id : String) (request : OperationRequest)
  | event
  | sweepReads
  | sweepExecutions
  | tick (id : String) (terminal : Operation.TickAnswers)
  | forgetScreens
  | dispatchRead
  | inventory (host : Pid) (answer : Pid → ChildAnswer) (report : Report)
  -- the readers
  | takeRead (reader : Fin 2)
  | read (reader : Fin 2) (service : Option String) (result : Result Payload)
  | readerDies (reader : Fin 2)
  -- the executors
  | takeExecution (executor : Fin 4)
  | refuse (executor : Fin 4) (error : String)
  | reserve (executor : Fin 4)
  | revalidate (executor : Fin 4)
  | run (executor : Fin 4)
  | cancelled (executor : Fin 4)
  | spawnFails (executor : Fin 4) (error : String)
  | spawn (executor : Fin 4) (pid : Pid)
  | announce (executor : Fin 4)
  | receive (executor : Fin 4)
  /-- `recv` fails: nobody is left to send an outcome. -/
  | disconnected (executor : Fin 4)
  | conclude (executor : Fin 4) (assessment : Assessment)
  | report (executor : Fin 4)
  | executorDies (executor : Fin 4)
  -- the system and the other users of the gate and of the repositories
  | exit (id : String)
  | source (key : PathBuf) (revision : Revision)
  | reserveRun (identity : PathBuf) (operation name : String)
  | dropRun (lease : GateLease)
  | ready (identity : PathBuf)
  | unavailable (identity : PathBuf)

/-- A step and what the clock and the disk answer during it. -/
structure GitEvent where
  act : Act
  answers : Nat → Answers

variable (formats : GitFormats)

namespace World

/-- The bridge after a procedure of the actor, whatever it returned. -/
def acts {α : Type} (world : World) (op : Op α) (answers : Nat → Answers) : World :=
  { world with bridge := (op answers 0 world.bridge).state }

/-- The exit that the terminal of an operation may observe. -/
def observable (world : World) (id : String) (answers : Operation.TickAnswers) : Bool :=
  match world.processes id, answers.observed with
  | .running _, .ok (some _) => false
  | _, _ => true

/-- The tick of an operation: the outcome it sends, and the reaped leader. -/
def ticked (world : World) (id : String) (terminal : Operation.TickAnswers)
    (answers : Nat → Answers) : World :=
  let outcome := tickOperation id terminal (world.receives id) answers 0 world.bridge
  let reaps := (world.bridge.operations[id]?.any (·.terminal.isSome)) &&
    (outcome.state.operations[id]?.any (·.terminal.isNone))
  let world := { world with
    bridge := outcome.state
    outcomes := match outcome.result with
      | .ok (some sent) => Function.update world.outcomes id (some sent)
      | _ => world.outcomes }
  match reaps, world.processes id with
  | true, .exited pid => world.setProcess id (.reaped pid)
  | _, _ => world

def step (world : World) (event : GitEvent) : Option World :=
  let answers := event.answers
  match event.act with
  | .submit client task =>
    if world.bridge.readsDead then none
    else some (world.acts (submit formats client task) answers)
  | .execute client id rows cols shells =>
    if world.bridge.executionsDead then none
    else some (world.acts (Git.execute client id rows cols shells) answers)
  | .operation client id request => some (world.acts (operationRequest client id request) answers)
  | .event => some (world.acts nextEvent answers)
  | .sweepReads => some (world.acts Git.sweepReads answers)
  | .sweepExecutions => some (world.acts Git.sweepExecutions answers)
  | .tick id terminal =>
    if world.observable id terminal then some (world.ticked id terminal answers) else none
  | .forgetScreens => some (world.acts Git.forgetScreens answers)
  | .dispatchRead => some (world.acts Git.dispatchRead answers)
  | .inventory host answer report => some (world.acts (inventories host answer report) answers)
  | .takeRead reader =>
    match world.readers reader, world.bridge.workers.reads with
    | .idle, work :: rest =>
      some ({ world with bridge.workers.reads := rest }.setReader reader (.reading work))
    | _, _ => none
  | .read reader service result =>
    match world.readers reader with
    | .reading work => (world.setReader reader .idle).send (.read work.id service result)
    | _ => none
  | .readerDies reader =>
    match world.readers reader with
    | .dead => none
    | _ => some ({ world with
        bridge.workers.readAlive := world.bridge.workers.readAlive - 1 }.setReader reader .dead)
  | .takeExecution executor =>
    match world.executors executor, world.bridge.workers.executions with
    | .idle, work :: rest =>
      some ({ world with bridge.workers.executions := rest }.setExecutor executor (.started work))
    | _, _ => none
  | .refuse executor error =>
    match world.executors executor with
    | .started work => some (world.setExecutor executor (.returned work (.error error)))
    | .leased work lease | .validated work lease =>
      some ((world.dropLease lease).setExecutor executor (.returned work (.error error)))
    | _ => none
  | .reserve executor =>
    match world.executors executor with
    | .started work =>
      let preview := work.plan.preview
      if work.plan.service ≠ work.service ∨ world.plans preview.id ≠ 0 then none
      else if preview.requiresSourceLease then
        match world.bridge.gate.reserveMutation preview.repository.identity preview.id with
        | .ok (gate, lease) =>
          some ((world.regate gate).setExecutor executor (.leased work (some lease)))
        | .error _ => none
      else some (world.setExecutor executor (.leased work none))
    | _ => none
  | .revalidate executor =>
    match world.executors executor with
    | .leased work lease =>
      if work.plan.preview.accepts (world.revisions work.plan.preview.repository.gitDir) then
        some (world.setExecutor executor (.validated work lease))
      else none
    | _ => none
  | .run executor =>
    match world.executors executor with
    | .validated work lease =>
      if world.plans work.plan.preview.id = 0 then
        some ((world.setPlan work.plan.preview.id 1).setExecutor executor (.running work lease))
      else none
    | _ => none
  | .cancelled executor =>
    match world.executors executor with
    | .running work lease =>
      if world.bridge.operations[work.id]?.any (·.cancelled) then
        some (world.setExecutor executor (.finished work lease (.ok ⟨none, true, false⟩)))
      else none
    | _ => none
  | .spawnFails executor error =>
    match world.executors executor with
    | .running work lease =>
      some (world.setExecutor executor (.finished work lease (.error error)))
    | _ => none
  | .spawn executor pid =>
    match world.executors executor with
    | .running work lease =>
      some ((world.setProcess work.id (.running pid)).setExecutor executor
        (.spawned work lease pid))
    | _ => none
  | .announce executor =>
    match world.executors executor with
    | .spawned work lease pid =>
      (world.setExecutor executor (.waiting work lease)).send (.terminal work.id pid)
    | _ => none
  | .receive executor =>
    match world.executors executor with
    | .waiting work lease =>
      (world.outcomes work.id).map fun outcome =>
        world.setExecutor executor (.finished work lease (.ok outcome))
    | _ => none
  | .disconnected executor =>
    match world.executors executor with
    | .waiting work lease =>
      if world.outcomes work.id = none ∧ world.completes work.id = false then
        some (world.setExecutor executor
          (.finished work lease (.error "host operation outcome is unknown")))
      else none
    | _ => none
  | .conclude executor assessment =>
    match world.executors executor with
    | .finished work lease execution =>
      let result := work.plan.preview.concluded execution assessment
      some (((world.setPlan work.plan.preview.id 2).dropLease lease).setExecutor executor
        (.returned work (.ok result)))
    | _ => none
  | .report executor =>
    match world.executors executor with
    | .returned work result => (world.setExecutor executor .idle).send (.executed work.id result)
    | _ => none
  | .executorDies executor =>
    match world.executors executor with
    | .dead => none
    | state => some (({ world with
        bridge.workers.executeAlive := world.bridge.workers.executeAlive - 1 }.dropLease
          state.lease?).setExecutor executor .dead)
  | .exit id =>
    match world.processes id with
    | .running pid => some (world.setProcess id (.exited pid))
    | _ => none
  | .source key revision =>
    some { world with revisions := Function.update world.revisions key revision }
  | .reserveRun identity operation name =>
    match world.bridge.gate.reserveRun identity operation name with
    | .ok (gate, lease) => some { world.regate gate with runLeases := lease :: world.runLeases }
    | .error _ => none
  | .dropRun lease =>
    if lease ∈ world.runLeases then
      some { world.regate (world.bridge.gate.drop lease) with
        runLeases := world.runLeases.erase lease }
    else none
  | .ready identity => some (world.regate (world.bridge.gate.ready identity))
  | .unavailable identity => some (world.regate (world.bridge.gate.unavailable identity))

end World

end Idk.Git
