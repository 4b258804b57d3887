import Idk.Verified.Host.Recorded

/-!
# Ended sessions and live ones

While no death of the preparation worker strikes a run or an editor, a session that has ended
stays so, and the live sessions find room beside the Git operations at work.

**Main results:**

- `ended_final`: an ended session is never live again.
- `ended_revived`: one that was struck may be.
- `live_room`: at most `maxTerminals` sessions and Git operations are live together.
-/

namespace Idk.Git

open Idk.Logic
open Idk.Logic.Procedure (Ensures)

variable {answers : Nat → Answers}

/-- No operation is at work. -/
def Bridge.Idle (bridge : Bridge) : Prop :=
  ∀ (id : String) (operation : Operation), bridge.operations[id]? = some operation →
    operation.active = false

theorem Bridge.Idle.occupied {bridge : Bridge} (idle : bridge.Idle) : bridge.occupied = 0 := by
  refine List.length_eq_zero_iff.mpr (List.filter_eq_nil_iff.mpr ?_)
  rintro ⟨id, operation⟩ listed
  simp [idle id operation (Std.TreeMap.mem_toList_iff_getElem?_eq_some.mp listed)]

theorem restoreRecord_idle (formats : GitFormats) (record : GitRecord) :
    Keeps answers (restoreRecord formats record) Bridge.Idle := by
  refine .known fun bridge idle => .thenCheck idle fun _ _ => .thenCheck idle fun _ _ => ?_
  refine .thenCheck idle fun _ _ => .thenCheck idle fun _ _ => .thenCheck idle fun _ _ => ?_
  refine .thenCheck idle fun _ _ => .thenRead (.thenCheck idle fun _ _ => ?_)
  refine .thenAsk fun asked => .updated fun id operation found => ?_
  simp only [Bridge.setOperation, insert_get] at found
  split at found
  · obtain rfl := Option.some.inj found
    rfl
  · exact idle id operation found

theorem openBridge_idle (formats : GitFormats) :
    Keeps answers (openBridge formats) Bridge.Idle := by
  have restored : Keeps answers (restoreLedger formats) Bridge.Idle := by
    refine .known fun bridge idle => .thenAsk fun asked => .thenCheck idle fun _ _ => .thenRead ?_
    split
    · exact .done idle
    · refine .thenCheck idle fun _ _ => ?_
      exact .tail (Ensures.forM (restoreRecord_idle formats) _) idle
  have started : Keeps answers (newBridge formats) Bridge.Idle :=
    restored.bind fun _ => persist_keeps fun _ idle => idle
  refine started.bind fun _ => ?_
  exact .known fun bridge idle => .updated idle

theorem openDisk_idle (formats : GitFormats) (instanceId : String) (disk : List GitLedger)
    (answers : Nat → Answers) : (openDisk formats instanceId disk answers).state.Idle :=
  (openBridge_idle formats).last 0 fun id operation found => by simp [Bridge.onDisk] at found

end Idk.Git

namespace Idk.Host

open Idk.Logic
open Relation (ReflTransGen)
open Actor

variable {isUuid : IsUuid} {formats : Git.GitFormats} {scope : Scope} {origin actor after : Actor}

/-! ## One session -/

/-- A session that waits has no process, and an ended one neither waits nor has one. -/
structure Slot.Lively (slot : Slot) : Prop where
  waits : slot.preparing = true → slot.runtime = none
  ended : slot.isLive = false → slot.preparing = false ∧ slot.runtime = none

/-- What an ended session does not come back from. -/
structure Slot.Stays (slot last : Slot) : Prop where
  lively : last.Lively
  ended : slot.isLive = false → last.isLive = false

namespace Slot.Lively

variable {slot last : Slot}

theorem live (lively : slot.Lively) (active : slot.preparing = true ∨ slot.runtime.isSome = true) :
    slot.isLive = true := by
  cases live : slot.isLive with
  | true => rfl
  | false =>
    obtain ⟨idle, gone⟩ := lively.ended live
    simp [idle, gone] at active

/-- Neither the state nor whether it waits has changed, and no process was added. -/
theorem same (lively : slot.Lively) (state : last.info.state = slot.info.state)
    (preparing : last.preparing = slot.preparing)
    (runtime : slot.runtime = none → last.runtime = none) : slot.Stays last := by
  have live : last.isLive = slot.isLive := congrArg SessionState.isLive state
  refine ⟨⟨fun waits => runtime (lively.waits (preparing.symm.trans waits)), fun ended => ?_⟩,
    fun ended => live.trans ended⟩
  obtain ⟨idle, gone⟩ := lively.ended (live.symm.trans ended)
  exact ⟨preparing.trans idle, runtime gone⟩

theorem sameLife (lively : slot.Lively) (life : slot.SameLife last) : slot.Stays last :=
  lively.same life.state life.preparing fun none => life.runtime.trans none

end Slot.Lively

namespace Slot.Stays

variable {slot middle last : Slot}

/-- The session goes on. -/
theorem goes (was : slot.isLive = true) (is : last.isLive = true)
    (waits : last.preparing = true → last.runtime = none) : slot.Stays last :=
  ⟨⟨waits, fun ended => absurd is (by simp [ended])⟩, fun ended => absurd was (by simp [ended])⟩

/-- The session comes to its end. -/
theorem ends (preparing : last.preparing = false) (runtime : last.runtime = none)
    (ended : last.isLive = false) : slot.Stays last :=
  ⟨⟨fun _ => runtime, fun _ => ⟨preparing, runtime⟩⟩, fun _ => ended⟩

theorem trans (one : slot.Stays middle) (two : middle.Stays last) : slot.Stays last :=
  ⟨two.lively, fun ended => two.ended (one.ended ended)⟩

theorem life (stays : slot.Stays middle) (life : middle.SameLife last) : slot.Stays last :=
  stays.trans (stays.lively.sameLife life)

theorem forget (stays : slot.Stays last) : slot.Stays last.forgetSaved :=
  stays.life (forgetSaved_life last)

end Slot.Stays

theorem Slot.Awaited.waits {session : String} {slot : Slot} (unrevived : ¬ scope.revives)
    (awaited : slot.Awaited scope actor session) : slot.preparing = true :=
  (awaited.resolve_left unrevived).1

theorem Slot.Step.stays {session : String} {slot last : Slot} (unrevived : ¬ scope.revives)
    (lively : slot.Lively) (step : Slot.Step isUuid scope actor session slot last) :
    slot.Stays last := by
  -- what has a process does not wait
  have waits (running : slot.runtime.isSome = true) : slot.preparing = false := by
    cases waits : slot.preparing with
    | false => rfl
    | true => simp [lively.waits waits] at running
  cases step with
  | noted | cancelAsked | named | cancelConfirmed | retried | forgotten =>
    exact lively.same rfl rfl id
  | inventoried => exact lively.sameLife (inventory_life _ _ _ _ _ _)
  | detached done => exact lively.sameLife (detach_life done)
  | requested live => exact .goes live rfl lively.waits
  | @unprepared cancelled error now kind awaited =>
    unfold Slot.unprepared
    refine .forget (.ends rfl (lively.waits (awaited.waits unrevived)) ?_)
    cases cancelled <;> rfl
  | accepted prepared awaited =>
    -- without a revival only a session that waits, and so is live, gets a process
    refine .goes (lively.live (.inl (awaited.waits unrevived))) ?_ nofun
    simp only [Slot.accepted, Slot.isLive]
    split <;> rfl
  | uninitialized running =>
    refine .goes (lively.live (.inr running)) rfl fun still => absurd still ?_
    simp [waits running, Slot.uninitialized]
  | bootstrapTaken => exact lively.same rfl rfl fun none => by simp [Slot.bootstrapTaken, none]
  | unbootstrapped running =>
    refine .goes (lively.live (.inr running)) rfl fun still => absurd still ?_
    simp [waits running, Slot.unbootstrapped]
  | placeholder kind awaited =>
    exact .ends rfl (lively.waits (awaited.waits unrevived)) rfl
  | @unstarted cancelled run error now preparing =>
    have gone := lively.waits preparing
    cases run <;> cases cancelled <;> exact .ends rfl gone rfl
  | exited running =>
    have live := lively.live (.inr running)
    unfold Slot.observeExit
    split
    · exact Slot.Stays.life (.goes live rfl fun still => absurd still (by simp [waits running]))
        (cleanupNotice_life _ _)
    · exact lively.same rfl rfl id
  | reaped observed clean running =>
    unfold Slot.reaped
    refine .forget (.ends (waits running) rfl ?_)
    cases slot.cleanup.requested <;> rfl

theorem runsDied_stays {slot : Slot} (lively : slot.Lively) (now : Nat) :
    slot.Stays (slot.runsDied now) := by
  unfold Slot.runsDied
  split
  · dsimp only
    split <;> exact lively.same rfl rfl id
  · split
    · exact .ends rfl (lively.waits ‹_›) rfl
    · exact lively.same rfl rfl id
  · split
    · exact .ends rfl (lively.waits ‹_›) rfl
    · exact lively.same rfl rfl id
  · exact lively.same rfl rfl id

theorem Slot.Moved.stays {session : String} {slot last : Slot} (unrevived : ¬ scope.revives)
    (lively : slot.Lively) (moved : Slot.Moved isUuid scope actor session slot last) :
    slot.Stays last := by
  cases moved with
  | steps moves =>
    induction moves with
    | refl => exact lively.same rfl rfl id
    | tail _ step inductionHypothesis =>
      exact inductionHypothesis.trans (step.stays unrevived inductionHypothesis.lively)
  | attached done => exact lively.sameLife (attach_life done)
  | finishing | finishAnswered => exact lively.same rfl rfl id
  | runsDied => exact runsDied_stays lively _
  | launchDied =>
    unfold Slot.launchDied
    split
    · exact .forget (.ends rfl (lively.waits ‹_›) rfl)
    · exact lively.same rfl rfl id

/-! ## All of them -/

def Actor.Lively (actor : Actor) : Prop :=
  ∀ (key : String) (slot : Slot), actor.slots[key]? = some slot → slot.Lively

theorem Change.lively (unrevived : ¬ scope.revives) (lively : actor.Lively)
    (change : Change isUuid scope actor after) : after.Lively := by
  intro key slot found
  rcases change.slot found with ⟨before, there, moved⟩ | born
  · exact (moved.stays unrevived (lively key before there)).lively
  · cases born with
    | terminal | admitted => exact ⟨fun _ => rfl, fun ended => by cases ended⟩

theorem Actor.Lively.reached (unrevived : ¬ scope.revives) (lively : origin.Lively)
    (reached : Reached isUuid scope origin actor) : actor.Lively := by
  induction reached with
  | refl => exact lively
  | tail _ change inductionHypothesis => exact change.lively unrevived inductionHypothesis

/-- The session is not live, and its id is not drawn again. -/
structure Actor.Ended (actor : Actor) (session : String) : Prop where
  foreign : actor.Foreign session
  ended : ∀ slot, actor.slots[session]? = some slot → slot.isLive = false

theorem Actor.Ended.change {session : String} (ended : actor.Ended session)
    (unrevived : ¬ scope.revives) (lively : actor.Lively)
    (change : Change isUuid scope actor after) : after.Ended session := by
  refine ⟨change.later.foreign ended.foreign, fun slot found => ?_⟩
  rcases change.slot found with ⟨before, there, moved⟩ | born
  · exact (moved.stays unrevived (lively session before there)).ended
      (ended.ended before there)
  · -- the id of a new session was drawn only now
    exact absurd born.key.symm ended.foreign.ne

theorem Actor.Ended.reached {session : String} (ended : origin.Ended session)
    (unrevived : ¬ scope.revives) (lively : origin.Lively)
    (reached : Reached isUuid scope origin actor) : actor.Ended session := by
  induction reached with
  | refl => exact ended
  | tail before change inductionHypothesis =>
    exact inductionHypothesis.change unrevived (lively.reached unrevived before) change

/-! ## Every run -/

variable {world later : World} {event : HostEvent}

/-- What holds in every world that is reached while no death strikes. -/
structure World.Orderly (isUuid : IsUuid) (world : World) : Prop where
  grounded : world.Grounded isUuid
  timely : world.actor.Timely
  lively : world.actor.Lively

theorem World.Step.orderly (orderly : world.Orderly isUuid) (spared : Spared world event)
    (step : World.Step isUuid formats world event later) : later.Orderly isUuid := by
  have grounded := step.grounded orderly.grounded
  cases inside : event.inside with
  | false =>
    refine ⟨grounded, step.timely_outside orderly.timely inside, fun key slot found => ?_⟩
    exact orderly.lively key slot ((step.outside inside).slots ▸ found)
  | true =>
    obtain ⟨reached, -⟩ := @World.Step.reached _ _ _ _ _ False orderly.grounded
      (.inr ⟨orderly.timely, spared⟩) inside step
    exact ⟨grounded, orderly.timely.reached orderly.grounded.workers orderly.grounded.ground id
      (fun session => spared session) reached, orderly.lively.reached id reached⟩

theorem World.Initial.lively (initial : World.Initial isUuid formats world) :
    world.actor.Lively := by
  obtain ⟨hostInstance, records, new⟩ := initial.new
  intro key slot found
  obtain ⟨record, member, info, purpose, made, of, rfl, rfl⟩ := new.slots.from_ key slot found
  exact ⟨fun _ => rfl, fun _ => ⟨rfl, rfl⟩⟩

theorem orderly : ((hostSystem isUuid formats).restrict Spared).Invariant
    (World.Orderly isUuid) where
  initial _ initial := ⟨⟨initial.ground, initial.workers⟩, initial.timely, initial.lively⟩
  preserved _ _ _ orderly step := World.Step.orderly orderly step.2 step.1

theorem World.Step.ended {session : String} (orderly : world.Orderly isUuid)
    (spared : Spared world event) (ended : world.actor.Ended session)
    (step : World.Step isUuid formats world event later) : later.actor.Ended session := by
  cases inside : event.inside with
  | false =>
    have outside := step.outside inside
    exact ⟨outside.foreign ended.foreign, fun slot found =>
      ended.ended slot (outside.slots ▸ found)⟩
  | true =>
    obtain ⟨reached, -⟩ := @World.Step.reached _ _ _ _ _ False orderly.grounded
      (.inr ⟨orderly.timely, spared⟩) inside step
    exact ended.reached id orderly.lively reached

/-- In every run in which no death of the preparation worker strikes a run or an editor, a session
    that has been closed, exited, failed or unknown is never live again. -/
theorem ended_final {first last : World} {trace : List HostEvent} {session : String} {slot : Slot}
    (reachable : ((hostSystem isUuid formats).restrict Spared).Reachable first)
    (found : first.actor.slots[session]? = some slot) (ended : slot.isLive = false)
    (run : ((hostSystem isUuid formats).restrict Spared).Run first trace last) :
    ∀ final, last.actor.slots[session]? = some final → final.isLive = false := by
  have start : first.actor.Ended session := by
    refine ⟨((orderly.reachable reachable).grounded.ground.foreign session slot found).1, ?_⟩
    rintro other there
    obtain rfl := Option.some.inj (found.symm.trans there)
    exact ended
  have kept : last.actor.Ended session := by
    induction run with
    | refl => exact start
    | tail before step inductionHypothesis =>
      exact World.Step.ended (orderly.reachable (reachable.run before)) step.2
        inductionHypothesis step.1
  exact kept.ended

theorem spared_of_asked (client : String) (request : Request) (answers : Nat → HostAnswers) :
    Spared world (.requested client request answers) := fun _ => id

theorem spared_of_alive (alive : world.actor.launching.alive = true)
    (answers : Nat → HostAnswers) : Spared world (.ticked answers) := by
  rintro session ⟨dead, -⟩
  rw [alive] at dead
  cases dead

/-- The run worker refuses the task. -/
def sampleRefused : World :=
  { sampleAdmitted with
    actor.runs.working := sampleAdmitted.actor.runs.working.erase sampleWork
    actor.runs.events := sampleAdmitted.actor.runs.events ++
      [⟨some "aaa", some "a", none, none, .error "refused", none, true⟩] }

/-- Its session has failed. -/
def sampleEnded : World := sampleRefused.tick 0

theorem sampleEnded_reachable :
    ((hostSystem sampleUuids Git.sampleFormats).restrict Spared).Reachable sampleEnded ∧
      sampleEnded.actor.ids = sampleIds := by
  have admitted := sampleAdmitted_step.grounded (grounded.initial sampleStart_initial.1)
  have refused : World.Step sampleUuids Git.sampleFormats sampleAdmitted
      (.worked sampleWork _) sampleRefused := .worked (by decide +kernel) .refused
  have refusedIds := (refused.ids admitted).trans sampleAdmitted_ids
  have ended := @World.tick_step sampleRefused 0 refusedIds
  have start := System.Reachable.start (S := (hostSystem sampleUuids Git.sampleFormats).restrict
    Spared) sampleStart_initial.1
  exact ⟨((start.step ⟨sampleAdmitted_step, fun _ => id⟩).step ⟨refused, fun _ => id⟩).step
    ⟨ended, spared_of_alive (by decide +kernel) _⟩,
    (ended.ids (refused.grounded admitted)).trans refusedIds⟩

theorem ended_final_sample : sampleEnded.actor.slots["a"]?.map Slot.isLive = some false ∧
    ∀ final, (sampleEnded.tick 100).actor.slots["a"]? = some final → final.isLive = false := by
  have ended : sampleEnded.actor.slots["a"]?.map Slot.isLive = some false := by decide +kernel
  obtain ⟨slot, found, idle⟩ := Option.map_eq_some_iff.mp ended
  have next := @World.tick_step sampleEnded 100 sampleEnded_reachable.2
  exact ⟨ended, ended_final sampleEnded_reachable.1 found idle
    (System.Run.single ⟨next, spared_of_alive (by decide +kernel) _⟩)⟩

/-! ### A struck session -/

/-- The preparation worker dies while a run is begun. -/
def sampleBereft : World :=
  { sampleBegun with
    actor.launching.jobs := []
    actor.launching.alive := false }

/-- Its session has failed. -/
def sampleFailed : World := sampleBereft.tick 0

/-- The process of the run is accepted all the same. -/
def sampleRevived : World := sampleFailed.report.tick 0

theorem sampleBegun_reachable :
    (hostSystem sampleUuids Git.sampleFormats).Reachable sampleBegun ∧
      sampleBegun.actor.ids = sampleIds :=
  ⟨((System.Reachable.start sampleStart_initial.1).step sampleAdmitted_step).step sampleBegun_step,
    sampleAdmitted_ids⟩

theorem ended_revived : ∃ (first last : World) (trace : List HostEvent),
    (hostSystem sampleUuids Git.sampleFormats).Reachable first ∧
      (hostSystem sampleUuids Git.sampleFormats).Run first trace last ∧
      first.actor.slots["a"]?.map Slot.isLive = some false ∧
      last.actor.slots["a"]?.map Slot.isLive = some true := by
  obtain ⟨reachable, ids⟩ := sampleBegun_reachable
  have begun : sampleBegun.Grounded sampleUuids := grounded.reachable reachable
  have died : World.Step sampleUuids Git.sampleFormats sampleBegun .launchDied sampleBereft :=
    .launchDied
  have bereftIds : sampleBereft.actor.ids = sampleIds := (died.ids begun).trans ids
  have failed := @World.tick_step sampleBereft 0 bereftIds
  have bereft := died.grounded begun
  have failedIds : sampleFailed.actor.ids = sampleIds := (failed.ids bereft).trans bereftIds
  have reported := @World.report_step sampleFailed (by decide +kernel) (by decide +kernel)
  have reportedIds : sampleFailed.report.actor.ids = sampleIds := failedIds
  have revived := @World.tick_step sampleFailed.report 0 reportedIds
  exact ⟨sampleFailed, sampleRevived, _, (reachable.step died).step failed,
    (System.Run.single reported).tail revived, by decide +kernel, by decide +kernel⟩

/-! ## Room -/

theorem Change.docket (change : Change isUuid scope actor after) : after.git = actor.git ∨
    after.slots = actor.slots ∧ actor.git.Grows actor.liveCount after.git := by
  cases change with
  | git within grows => exact .inr ⟨rfl, grows⟩
  | opening opening => cases opening <;> exact .inl rfl
  | attached => split <;> exact .inl rfl
  | _ => exact .inl rfl

/-- What is live was so before, or is new. -/
theorem Change.live (unrevived : ¬ scope.revives) (lively : actor.Lively)
    (change : Change isUuid scope actor after) {key : String} {slot : Slot}
    (found : after.slots[key]? = some slot) (live : slot.isLive = true) :
    (∃ before, actor.slots[key]? = some before ∧ before.isLive = true) ∨
      actor.Born isUuid scope after.nextId key slot := by
  refine (change.slot found).imp_left fun ⟨before, there, moved⟩ => ⟨before, there, ?_⟩
  cases was : before.isLive with
  | true => rfl
  | false =>
    have ended := (moved.stays unrevived (lively key before there)).ended was
    rw [live] at ended
    cases ended

/-- Only a new session needs room. -/
theorem Change.liveCount (unrevived : ¬ scope.revives) (lively : actor.Lively)
    (change : Change isUuid scope actor after) : after.liveCount ≤ actor.liveCount ∨
      actor.occupied < maxTerminals ∧ after.liveCount ≤ actor.liveCount + 1 := by
  by_cases room : actor.occupied < maxTerminals
  · refine .inr ⟨room, count_le_succ (actor.ids actor.nextId) fun key slot found live => ?_⟩
    exact (change.live unrevived lively found live).symm.imp_left fun born => born.key
  · refine .inl (count_le fun key slot found live => ?_)
    refine (change.live unrevived lively found live).resolve_right fun born => room ?_
    -- where there is no room nothing is started or admitted
    cases born with
    | terminal starts => exact starts.room
    | admitted admits => exact admits.room

theorem Change.occupied (unrevived : ¬ scope.revives) (lively : actor.Lively)
    (change : Change isUuid scope actor after) (room : actor.occupied ≤ maxTerminals) :
    after.occupied ≤ maxTerminals := by
  rcases change.docket with same | ⟨same, grows⟩
  · have count := change.liveCount unrevived lively
    simp only [Actor.occupied, same] at count room ⊢
    omega
  · have count : after.liveCount = actor.liveCount := by rw [Actor.liveCount, same, Actor.liveCount]
    have grown := grows.occupied
    simp only [Git.Bridge.Roomy, Git.maxTerminals] at grown
    simp only [Actor.occupied, count, maxTerminals] at room ⊢
    omega

theorem Actor.occupied_reached (unrevived : ¬ scope.revives) (lively : origin.Lively)
    (room : origin.occupied ≤ maxTerminals) (reached : Reached isUuid scope origin actor) :
    actor.occupied ≤ maxTerminals := by
  induction reached with
  | refl => exact room
  | tail before change inductionHypothesis =>
    exact change.occupied unrevived (lively.reached unrevived before) inductionHypothesis

theorem World.Step.occupied (orderly : world.Orderly isUuid) (spared : Spared world event)
    (room : world.actor.occupied ≤ maxTerminals)
    (step : World.Step isUuid formats world event later) : later.actor.occupied ≤ maxTerminals := by
  cases inside : event.inside with
  | false =>
    have slots := (step.outside inside).slots
    have git : later.actor.git.operations = world.actor.git.operations := by
      cases step with
      | requested | ticked => cases inside
      | gitMoved beside =>
        dsimp only
        rw [beside]
      | _ => rfl
    rw [Actor.occupied, Actor.liveCount, Git.Bridge.occupied, slots, git]
    exact room
  | true =>
    obtain ⟨reached, -⟩ := @World.Step.reached _ _ _ _ _ False orderly.grounded
      (.inr ⟨orderly.timely, spared⟩) inside step
    exact Actor.occupied_reached id orderly.lively room reached

/-- Nothing is at work in a new host. -/
theorem World.Initial.occupied (initial : World.Initial isUuid formats world) :
    world.actor.occupied ≤ maxTerminals := by
  have quiet : world.actor.liveCount = 0 := by
    obtain ⟨hostInstance, records, new⟩ := initial.new
    refine List.length_eq_zero_iff.mpr (List.filter_eq_nil_iff.mpr ?_)
    rintro ⟨key, slot⟩ listed
    obtain ⟨record, member, info, purpose, made, of, rfl, rfl⟩ :=
      new.slots.from_ key slot (Std.TreeMap.mem_toList_iff_getElem?_eq_some.mp listed)
    have ended : (Slot.restored info purpose info.sessionId).isLive = false := (restore_ends made).ended
    simp [ended]
  have idle : world.actor.git.occupied = 0 := by
    obtain ⟨hostInstance, pid, ledger, slots, instanceId, disk, answers, ids, now, -, -, same⟩ :=
      initial.opened
    rw [same]
    exact (Git.openDisk_idle formats instanceId disk answers).occupied
  rw [Actor.occupied, quiet, idle]
  decide

theorem fits : ((hostSystem isUuid formats).restrict Spared).Invariant
    fun world => world.Orderly isUuid ∧ world.actor.occupied ≤ maxTerminals where
  initial _ initial := ⟨orderly.initial initial, initial.occupied⟩
  preserved _ _ _ holds step := ⟨World.Step.orderly holds.1 step.2 step.1,
    World.Step.occupied holds.1 step.2 holds.2 step.1⟩

/-- In every run in which no death of the preparation worker strikes a run or an editor, the live
    sessions and the Git operations at work are together at most `maxTerminals`. -/
theorem live_room (reachable : ((hostSystem isUuid formats).restrict Spared).Reachable world) :
    world.actor.liveCount + world.actor.git.occupied ≤ maxTerminals :=
  (fits.reachable reachable).2

theorem live_room_sample : sampleTicked.world.actor.liveCount = 1 ∧
    sampleTicked.world.actor.liveCount + sampleTicked.world.actor.git.occupied ≤ maxTerminals := by
  have start := System.Reachable.start (S := (hostSystem sampleUuids Git.sampleFormats).restrict
    Spared) sampleStart_initial.1
  have reachable := (start.step ⟨sampleAsked_step, fun _ => id⟩).step
    ⟨sampleTicked_step, spared_of_alive (by decide +kernel) _⟩
  exact ⟨by decide +kernel, live_room reachable⟩

end Idk.Host
