import Idk.Git.World

/-!
# Hosts one after another

A host opens the ledger that the one before it has left, blocks the repositories of
operations whose cleanup is unknown, and serves until it is cut off at any write of any
step.
-/

namespace Idk.Git

open Idk.Logic (System)

variable (formats : GitFormats)

/-- `Actor::new`, as far as Git is concerned. -/
def openBridge : Op Unit := do
  newBridge formats
  blockSources

/-- The bridge of a new host on what the disk holds. -/
def openDisk (instanceId : String) (disk : List GitLedger) (answers : Nat → Answers) :
    Logic.Outcome String Bridge Unit :=
  openBridge formats answers 0 (.onDisk instanceId .new disk)

namespace World

/-- The threads around a bridge that has just been opened. -/
def opened (bridge : Bridge) (revisions : PathBuf → Revision) : World where
  bridge := bridge
  readers _ := .idle
  executors _ := .idle
  plans _ := 0
  outcomes _ := none
  processes _ := .absent
  revisions := revisions
  runLeases := []

/-- A new id is in use nowhere. -/
structure Unused (world : World) (id : String) : Prop where
  operation : world.bridge.operations[id]? = none
  job : world.bridge.jobs[id]? = none
  plan : world.bridge.plans[id]? = none
  state : world.plans id = 0
  executions : ∀ work ∈ world.bridge.workers.executions, work.id ≠ id
  executors : ∀ executor work, (world.executors executor).work? = some work → work.id ≠ id
  events : ∀ planned service plan,
    .read planned service (.ok (.plan plan)) ∈ world.bridge.workers.events → plan.preview.id ≠ id

/-- What a step may rely on: new ids are not in use, and a service plans for the
    repository it was made for. -/
def Enabled (world : World) (event : GitEvent) : Prop :=
  match event.act with
  | .submit _ _ => ∀ asked, world.Unused (event.answers asked).newId
  | .read reader _ (.ok (.plan plan)) => world.Unused plan.preview.id ∧
      ∀ work, world.readers reader = .reading work → plan.preview.repository = work.binding
  | _ => True

end World

/-- One host, on whatever the disk holds. -/
def hostSystem : System World GitEvent where
  init world := ∃ instanceId disk answers revisions,
    (openDisk formats instanceId disk answers).result = .ok () ∧
      world = .opened (openDisk formats instanceId disk answers).state revisions
  step world event next := world.Enabled event ∧ world.step formats event = some next

/-- A host, or the disk between two hosts. -/
inductive Life where
  | up (world : World)
  | down (disk : List GitLedger)

inductive LifeEvent where
  | opened (instanceId : String) (answers : Nat → Answers)
  | stepped (event : GitEvent)
  /-- The host ends during a step. -/
  | cut (event : GitEvent)
  /-- The host does not get to serve. -/
  | cutOpening (instanceId : String) (answers : Nat → Answers)

inductive Life.Step : Life → LifeEvent → Life → Prop where
  | opened {disk : List GitLedger} {instanceId : String} {answers : Nat → Answers}
      (revisions : PathBuf → Revision)
      (succeeded : (openDisk formats instanceId disk answers).result = .ok ()) :
      Life.Step (.down disk) (.opened instanceId answers)
        (.up (.opened (openDisk formats instanceId disk answers).state revisions))
  | stepped {world next : World} {event : GitEvent} (enabled : world.Enabled event)
      (taken : world.step formats event = some next) :
      Life.Step (.up world) (.stepped event) (.up next)
  | cut {world next : World} {event : GitEvent} {disk : List GitLedger}
      (enabled : world.Enabled event) (taken : world.step formats event = some next)
      (earlier : world.bridge.durable <:+ disk) (reached : disk <:+ next.bridge.durable) :
      Life.Step (.up world) (.cut event) (.down disk)
  | cutOpening {before after : List GitLedger} {instanceId : String} {answers : Nat → Answers}
      (earlier : before <:+ after)
      (reached : after <:+ (openDisk formats instanceId before answers).state.durable) :
      Life.Step (.down before) (.cutOpening instanceId answers) (.down after)

/-- The first host finds no ledger or any ledger. -/
def Life.Initial : Life → Prop
  | .up _ => False
  | .down disk => disk.length ≤ 1

/-- Hosts one after another on one disk. -/
def lifeSystem : System Life LifeEvent where
  init := Life.Initial
  step := Life.Step formats

end Idk.Git
