import Idk.Git.Lives

/-!
# Steps beside the actor

Threads, processes and the other users of the gate change nothing of the bridge but the
gate and the channels.
-/

namespace Idk.Git

open Idk.Logic

/-- The steps that the actor takes. -/
def Act.byActor : Act → Bool
  | .submit _ _ | .execute _ _ _ _ _ | .operation _ _ _ | .event | .sweepReads | .sweepExecutions
  | .tick _ _ | .forgetScreens | .dispatchRead | .inventory _ _ _ => true
  | _ => false

/-- Only the gate and the channels differ. -/
def Beside (before after : Bridge) : Prop :=
  after = { before with gate := after.gate, workers := after.workers }

theorem send_beside {world sent next : World} {event : Event} (beside : Beside world.bridge sent.bridge)
    (taken : sent.send event = some next) : Beside world.bridge next.bridge := by
  simp only [World.send] at taken
  split at taken
  · obtain rfl := Option.some.inj taken
    rw [Beside] at beside ⊢
    simp only
    rw [beside]
  · simp at taken

variable (formats : GitFormats)

theorem step_beside {world next : World} {event : GitEvent}
    (taken : world.step formats event = some next) (thread : Act.byActor event.act = false) :
    Beside world.bridge next.bridge := by
  obtain ⟨act, answers⟩ := event
  -- Every branch of a thread's step is a record whose bridge differs in these two fields.
  cases act <;> simp only [Act.byActor, Bool.true_eq_false] at thread <;>
    simp only [World.step] at taken <;> repeat' split at taken
  all_goals first
    | cases taken; done
    | (obtain rfl := Option.some.inj taken; rfl)
    | (apply send_beside ?_ taken; rfl)
    | (obtain ⟨_, _, rfl⟩ := Option.map_eq_some_iff.mp taken; rfl)

theorem ticked_bridge (world : World) (id : String) (terminal : Operation.TickAnswers)
    (answers : Nat → Answers) : (world.ticked id terminal answers).bridge =
      (tickOperation id terminal (world.receives id) answers 0 world.bridge).state := by
  simp only [World.ticked]
  split <;> rfl

/-! ## Playing a list of steps -/

/-- `Unused`, decided. -/
def isUnused (world : World) (id : String) : Bool :=
  world.bridge.operations[id]?.isNone && world.bridge.jobs[id]?.isNone &&
    world.bridge.plans[id]?.isNone && world.plans id == 0 &&
    world.bridge.workers.executions.all (·.id != id) &&
    (List.finRange 4).all (fun executor => (world.executors executor).work?.all (·.id != id)) &&
    world.bridge.workers.events.all fun event =>
      match event with
      | .read _ _ (.ok (.plan plan)) => plan.preview.id != id
      | _ => true

theorem isUnused_unused {world : World} {id : String} (checked : isUnused world id = true) :
    world.Unused id := by
  simp only [isUnused, Bool.and_eq_true, Option.isNone_iff_eq_none, beq_iff_eq, List.all_eq_true,
    bne_iff_ne, ne_eq, Option.all_eq_true_iff_get] at checked
  obtain ⟨⟨⟨⟨⟨⟨operation, job⟩, plan⟩, state⟩, executions⟩, executors⟩, events⟩ := checked
  refine ⟨operation, job, plan, state, executions, fun executor work known => ?_,
    fun planned service made member => by simpa using events _ member⟩
  have different := executors executor (List.mem_finRange executor)
  simp_all

/-- `Enabled`, decided for a step whose answers are all the same. -/
def isEnabled (world : World) (act : Act) (answer : Answers) : Bool :=
  match act with
  | .submit _ _ => isUnused world answer.newId
  | .read reader _ (.ok (.plan plan)) => isUnused world plan.preview.id &&
      match world.readers reader with
      | .reading work => plan.preview.repository == work.binding
      | _ => true
  | _ => true

theorem isEnabled_enabled {world : World} {act : Act} {answer : Answers}
    (checked : isEnabled world act answer = true) : world.Enabled ⟨act, fun _ => answer⟩ := by
  cases act with
  | submit client task => exact fun _ => isUnused_unused checked
  | read reader service result =>
    cases result with
    | error error => trivial
    | ok payload =>
      cases payload with
      | plan plan =>
        simp only [isEnabled, Bool.and_eq_true] at checked
        refine ⟨isUnused_unused checked.1, fun work known => ?_⟩
        simpa [known] using checked.2
      | openContext | display => trivial
  | _ => trivial

/-- The world after these steps, each with the one answer to whatever it asks. -/
def plays (world : World) : List (Act × Answers) → Option World
  | [] => some world
  | (act, answer) :: rest =>
    if isEnabled world act answer then
      (world.step formats ⟨act, fun _ => answer⟩).bind fun next => plays next rest
    else none

theorem plays_reachable {condition : Life → LifeEvent → Prop} {world last : World}
    {steps : List (Act × Answers)} (played : plays formats world steps = some last)
    (meets : ∀ step ∈ steps, ∀ world,
      condition (.up world) (.stepped ⟨step.1, fun _ => step.2⟩))
    (reachable : ((lifeSystem formats).restrict condition).Reachable (.up world)) :
    ((lifeSystem formats).restrict condition).Reachable (.up last) := by
  induction steps generalizing world with
  | nil =>
    obtain rfl := Option.some.inj played
    exact reachable
  | cons step rest inductionHypothesis =>
    obtain ⟨act, answer⟩ := step
    simp only [plays] at played
    split at played
    · rename_i enabled
      obtain ⟨next, taken, played⟩ := Option.bind_eq_some_iff.mp played
      refine inductionHypothesis played (fun other member => meets other (.tail _ member)) ?_
      exact reachable.step ⟨.stepped (isEnabled_enabled enabled) taken, meets _ (.head _) world⟩
    · cases played

end Idk.Git
