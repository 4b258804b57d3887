import Idk.Logic.Transition
import Idk.Run.Operations

/-!
# The registry among its callers

One worker owns the registry, so its calls come one after another.  Between them
the Git side uses the same gate.  A host may end at any point of any call; what is
left is the disk, and the next host opens it with a new gate.

**Main definitions:**

- `callSystem`: the calls of one host.
- `lifeSystem`: hosts one after another on one disk.
-/

namespace Idk

open Idk.Logic (System)
open RunRegistry

/-- The registry of a host, the reserved starts out with callers, and the mutation
    leases out with the Git side. -/
structure RunWorld where
  registry : RunRegistry
  tickets : BTreeMap BeginTicket
  mutations : List GateLease

/-- The last five are the Git side's. -/
inductive RunCall where
  | beginReserve (plan : TaskLaunchPlan) (operationId : String) (parallel : Bool)
  | beginCommit (runId : String) (sourceStart : SourceObservation)
  | beginAbandon (runId : String)
  | publishSource (identity : PathBuf)
  | publishRegisteredSources
  | shellPlan (runId : String)
  | processPlan (runId : String)
  | markRunning (runId sessionId : String)
  | cancel (runId : String) (timeout : Bool)
  | acknowledgeUnknownCleanup (runId : String)
  | finishProbe (runId : String)
  | finishObserved (runId : String) (ending : RunEnd)
  | pinResult (runId : String) (pinned : Bool)
  | removeHistory (index : Nat)
  | expireHistory
  | cleanupRetired
  | unavailable (identity : PathBuf)
  | block (identity : PathBuf) (id reason : String)
  | unblock (identity : PathBuf) (id : String)
  | reserveMutation (identity : PathBuf) (operation : String)
  | dropMutation (lease : GateLease)

/-- A call and what the environment answers while it runs. -/
structure Invocation where
  call : RunCall
  answers : Nat → Answers

variable (formats : Formats)

namespace RunWorld

def run {α : Type} (world : RunWorld) (op : Op α) (answers : Nat → Answers) : RunWorld :=
  { world with registry := (op answers 0 world.registry).state }

def regate (world : RunWorld) (gate : SourceGate) : RunWorld :=
  { world with registry := { world.registry with gate := gate } }

/-- The world after a call, whatever the call returned. -/
def perform (world : RunWorld) (invocation : Invocation) : RunWorld :=
  let answers := invocation.answers
  match invocation.call with
  | .beginReserve plan operationId parallel =>
    let outcome := beginReserve formats plan operationId parallel answers 0 world.registry
    match outcome.result with
    | .ok (.fresh ticket) =>
      { world with
        registry := outcome.state
        tickets := world.tickets.insert ticket.runId ticket }
    | _ => { world with registry := outcome.state }
  | .beginCommit runId sourceStart =>
    match world.tickets[runId]? with
    | none => world
    | some ticket =>
      { world.run (beginCommit formats ticket sourceStart) answers with
        tickets := world.tickets.erase runId }
  | .beginAbandon runId =>
    match world.tickets[runId]? with
    | none => world
    | some ticket =>
      { world.run (beginAbandon ticket) answers with tickets := world.tickets.erase runId }
  | .publishSource identity => world.run (publishSource identity) answers
  | .publishRegisteredSources => world.run publishRegisteredSources answers
  | .shellPlan runId => world.run (shellPlan runId) answers
  | .processPlan runId => world.run (processPlan runId) answers
  | .markRunning runId sessionId => world.run (markRunning formats runId sessionId) answers
  | .cancel runId timeout => world.run (cancel formats runId timeout) answers
  | .acknowledgeUnknownCleanup runId =>
    world.run (acknowledgeUnknownCleanup formats runId) answers
  | .finishProbe runId => world.run (finishProbe runId) answers
  | .finishObserved runId ending => world.run (finishObserved formats runId ending) answers
  | .pinResult runId pinned => world.run (pinResult formats runId pinned) answers
  | .removeHistory index => world.run (removeHistory formats index) answers
  | .expireHistory => world.run (expireHistory formats) answers
  | .cleanupRetired => world.run (cleanupRetired formats) answers
  | .unavailable identity => world.regate (world.registry.gate.unavailable identity)
  | .block identity id reason => world.regate (world.registry.gate.block identity id reason)
  | .unblock identity id => world.regate (world.registry.gate.unblock identity id)
  | .reserveMutation identity operation =>
    match world.registry.gate.reserveMutation identity operation with
    | .ok (gate, lease) =>
      { world.regate gate with mutations := lease :: world.mutations }
    | .error _ => world
  | .dropMutation lease =>
    { world.regate (world.registry.gate.drop lease) with
      mutations := world.mutations.erase lease }

/-- No ticket, active run, record or stored record has the id. -/
structure Unused (world : RunWorld) (runId : String) : Prop where
  ticket : world.tickets[runId]? = none
  active : world.registry.active[runId]? = none
  records : ∀ run ∈ world.registry.runs, run.runId ≠ runId
  stored : ∀ ledger ∈ world.registry.durable, ∀ run ∈ ledger.runs, run.runId ≠ runId

/-- The callers' side of a call: new ids are unused, a ticket is handed back by whoever
    has it and with the observation of its own repository, and so is a mutation lease. -/
def Enabled (world : RunWorld) (invocation : Invocation) : Prop :=
  match invocation.call with
  | .beginReserve plan operationId parallel =>
    let outcome := beginReserve formats plan operationId parallel invocation.answers 0
      world.registry
    ∀ ticket, outcome.result = .ok (.fresh ticket) →
      Unused { world with registry := outcome.state } ticket.runId
  | .beginCommit runId sourceStart => ∃ ticket, world.tickets[runId]? = some ticket ∧
      sourceStart.identity = ticket.probeIdentity
  | .beginAbandon runId => ∃ ticket, world.tickets[runId]? = some ticket
  | .dropMutation lease => lease ∈ world.mutations
  | _ => True

/-- The registry that `open` returned, before any call. -/
def opened (registry : RunRegistry) : RunWorld where
  registry := registry
  tickets := ∅
  mutations := []

end RunWorld

/-- A host that owns the registry, or the disk between two hosts. -/
inductive Life where
  | up (world : RunWorld)
  | down (disk : List RunLedger)

inductive LifeEvent where
  | opened (answers : Nat → Answers)
  | called (invocation : Invocation)
  /-- The host ends during a call. -/
  | cut (invocation : Invocation)
  /-- `open` fails or the host ends during it. -/
  | cutOpening (answers : Nat → Answers)

/-- `open` on what the disk holds, with a new gate. -/
def openDisk (disk : List RunLedger) (answers : Nat → Answers) :
    Logic.Outcome String RunRegistry Unit :=
  openRegistry formats answers 0 (.onDisk .default disk)

inductive Life.Step : Life → LifeEvent → Life → Prop where
  | opened {disk : List RunLedger} {answers : Nat → Answers}
      (succeeded : (openDisk formats disk answers).result = .ok ()) :
      Life.Step (.down disk) (.opened answers) (.up (.opened (openDisk formats disk answers).state))
  | called {world : RunWorld} {invocation : Invocation} (enabled : world.Enabled formats invocation) :
      Life.Step (.up world) (.called invocation) (.up (world.perform formats invocation))
  | cut {world : RunWorld} {invocation : Invocation} {disk : List RunLedger}
      (enabled : world.Enabled formats invocation) (earlier : world.registry.durable <:+ disk)
      (reached : disk <:+ (world.perform formats invocation).registry.durable) :
      Life.Step (.up world) (.cut invocation) (.down disk)
  | cutOpening {before after : List RunLedger} {answers : Nat → Answers}
      (earlier : before <:+ after)
      (reached : after <:+ (openDisk formats before answers).state.durable) :
      Life.Step (.down before) (.cutOpening answers) (.down after)

/-- The first host finds no ledger, or one in which only live and unknown runs are not
    known to be cleaned up. -/
def Life.Initial : Life → Prop
  | .up _ => False
  | .down disk => disk = [] ∨ ∃ ledger, disk = [ledger] ∧
      ∀ run ∈ ledger.runs, run.cleanupConfirmed = false →
        run.state.isLive = true ∨ run.state = .unknown

/-- Hosts one after another on one disk. -/
def lifeSystem : System Life LifeEvent where
  init := Life.Initial
  step := Life.Step formats

/-- The calls of one host. -/
def callSystem : System RunWorld Invocation where
  init world := (lifeSystem formats).Reachable (.up world)
  step world invocation next :=
    world.Enabled formats invocation ∧ next = world.perform formats invocation

end Idk
