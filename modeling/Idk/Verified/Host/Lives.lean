import Idk.Verified.Host.Histories
import Idk.Verified.Host.Restored
import Idk.Verified.Host.Ticks

/-!
# Every run of a host

A step of the host is a sequence of changes, or nothing that the actor does.  What every
change keeps, and what the workers keep, therefore holds in every state that the host
reaches.

**Main results:**

- `World.Step.reached`: a request and a tick are sequences of changes.
- `grounded`: the invariant of the actor holds in every reachable world.
- `timely`: so does the one of the sessions that wait, while no death strikes them.
-/

namespace Idk.Host

open Idk.Logic
open Idk.Logic.Procedure (Ensures)
open Relation (ReflTransGen)
open Actor

variable {isUuid : IsUuid} {formats : Git.GitFormats} {scope : Scope} {origin actor after : Actor}

/-! ## What a tick cannot do -/

/-- Nothing makes a session wait again. -/
theorem Slot.Step.waited {session : String} {slot last : Slot}
    (step : Slot.Step isUuid scope actor session slot last) (waits : last.preparing = true) :
    slot.preparing = true := by
  cases step with
  | noted | requested | cancelAsked | uninitialized | bootstrapTaken | unbootstrapped | named
  | cancelConfirmed | retried | forgotten => exact waits
  | inventoried => exact (inventory_life _ _ _ _ _ _).preparing.symm.trans waits
  | detached done => exact (detach_life done).preparing.symm.trans waits
  | unprepared => exact absurd ((forgetSaved_life _).preparing.symm.trans waits) nofun
  | accepted | placeholder => cases waits
  | @unstarted cancelled run error now preparing => exact preparing
  | exited => exact (observeExit_preparing _ _ _).symm.trans waits
  | reaped =>
    rw [Slot.reaped, (forgetSaved_life _).preparing] at waits
    exact waits

theorem runsDied_waited {slot : Slot} {now : Nat} (waits : (slot.runsDied now).preparing = true) :
    slot.preparing = true := by
  unfold Slot.runsDied at waits
  split at waits
  · dsimp only at waits
    split at waits <;> exact waits
  · split at waits
    · cases waits
    · exact waits
  · split at waits
    · cases waits
    · exact waits
  · exact waits

theorem launchDied_waited {slot : Slot} {now : Nat} (waits : (slot.launchDied now).preparing = true) :
    slot.preparing = true := by
  unfold Slot.launchDied at waits
  split at waits
  · assumption
  · exact waits

theorem Slot.Moved.waited {session : String} {slot last : Slot}
    (moved : Slot.Moved isUuid scope actor session slot last) (waits : last.preparing = true) :
    slot.preparing = true := by
  cases moved with
  | steps moves =>
    induction moves with
    | refl => exact waits
    | tail _ step inductionHypothesis => exact inductionHypothesis (step.waited waits)
  | attached done => exact (attach_life done).preparing.symm.trans waits
  | finishing | finishAnswered => exact waits
  | runsDied => exact runsDied_waited waits
  | launchDied => exact launchDied_waited waits

/-- Only a client asks for a run or an editor. -/
theorem Change.preparing (ground : Ground isUuid scope.begun actor) (unasked : ¬ scope.asked)
    (change : Change isUuid scope actor after) {key : String} {slot : Slot}
    (found : after.slots[key]? = some slot) (waits : slot.preparing = true)
    (kind : slot.purpose.isTerminal = false) :
    ∃ before, actor.slots[key]? = some before ∧ before.preparing = true ∧
      before.purpose.isTerminal = false := by
  rcases change.slot found with ⟨before, there, moved⟩ | born
  · refine ⟨before, there, moved.waited waits, ?_⟩
    have same := ((ground.sound key before there).moved moved).2.kind
    cases terminal : before.purpose.isTerminal with
    | false => rfl
    | true =>
      rw [(SlotPurpose.isTerminal_iff _).mp terminal] at same
      simp [(SlotPurpose.isTerminal_iff _).mpr same] at kind
  · cases born with
    | terminal => cases kind
    | admitted admits => exact absurd admits.asked unasked

theorem Change.alive (change : Change isUuid scope actor after) :
    after.launching.alive = actor.launching.alive := by
  cases change with
  | opening opening => cases opening <;> rfl
  | attached => split <;> rfl
  | _ => rfl

/-- Without a client no batch is added, and none starts more than it was to start. -/
theorem Change.batch (unasked : ¬ scope.asked) (change : Change isUuid scope actor after)
    {id : String} {batch : Batch} (found : after.batches[id]? = some batch) :
    ∃ before, actor.batches[id]? = some before ∧
      batch.info.projectId = before.info.projectId ∧
      batch.info.remaining ⊆ before.info.remaining := by
  have same : ∀ {batches : BTreeMap Batch}, batches = actor.batches → batches[id]? = some batch →
      ∃ before, actor.batches[id]? = some before ∧
        batch.info.projectId = before.info.projectId ∧
        batch.info.remaining ⊆ before.info.remaining :=
    fun equal there => ⟨batch, equal ▸ there, rfl, List.Subset.refl _⟩
  cases change with
  | opening opening =>
    cases opening with
    | drew | saved | started | startFailed => exact same rfl found
    | batched follow =>
      rcases follow id batch found with ⟨before, there, follows⟩ | ⟨asked, -⟩
      · exact ⟨before, there, follows.project, follows.remaining⟩
      · exact absurd asked unasked
  | closing follow =>
    obtain ⟨before, there, follows⟩ := follow id batch found
    exact ⟨before, there, follows.project, follows.remaining⟩
  | attached =>
    split at found <;> exact same rfl found
  | _ => exact same rfl found

/-- The same of every state that a procedure without a client goes through. -/
structure Unasked (origin actor : Actor) : Prop where
  alive : actor.launching.alive = origin.launching.alive
  launched : actor.launching.results ⊆ origin.launching.results
  events : actor.runs.events ⊆ origin.runs.events
  preparing : ∀ (key : String) (slot : Slot), actor.slots[key]? = some slot →
    slot.preparing = true → slot.purpose.isTerminal = false →
      ∃ before, origin.slots[key]? = some before ∧ before.preparing = true ∧
        before.purpose.isTerminal = false
  batch : ∀ (id : String) (batch : Batch), actor.batches[id]? = some batch →
    ∃ before, origin.batches[id]? = some before ∧
      batch.info.projectId = before.info.projectId ∧
      batch.info.remaining ⊆ before.info.remaining

theorem unasked_reached (ground : Ground isUuid scope.begun origin) (unasked : ¬ scope.asked)
    (reached : Reached isUuid scope origin actor) : Unasked origin actor := by
  induction reached with
  | refl =>
    exact ⟨rfl, List.Subset.refl _, List.Subset.refl _,
      fun key slot found waits kind => ⟨slot, found, waits, kind⟩,
      fun id batch found => ⟨batch, found, rfl, List.Subset.refl _⟩⟩
  | tail before change inductionHypothesis =>
    refine ⟨change.alive.trans inductionHypothesis.alive,
      List.Subset.trans change.launched inductionHypothesis.launched,
      List.Subset.trans change.events inductionHypothesis.events,
      fun key slot found waits kind => ?_, fun id batch found => ?_⟩
    · obtain ⟨middle, there, waits, kind⟩ :=
        change.preparing (ground.reached before) unasked found waits kind
      exact inductionHypothesis.preparing key middle there waits kind
    · obtain ⟨middle, there, project, remaining⟩ := change.batch unasked found
      obtain ⟨first, known, same, more⟩ := inductionHypothesis.batch id middle there
      exact ⟨first, known, project.trans same, List.Subset.trans remaining more⟩

/-! ## Requests and ticks -/

/-- The preparation worker is about to be found dead while this run or editor is prepared. -/
def Actor.Strikes (actor : Actor) (session : String) : Prop :=
  actor.launching.alive = false ∧ actor.launchDead = false ∧ ∃ slot,
    actor.slots[session]? = some slot ∧ slot.preparing = true ∧ slot.purpose.isTerminal = false

namespace HostEvent

/-- A client asks for something. -/
def Asked : HostEvent → Prop
  | .requested .. => True
  | _ => False

/-- The event may start this terminal. -/
def Starts (event : HostEvent) (actor : Actor) (project terminal : String) : Prop :=
  match event with
  | .requested _ request _ => request.started? = some (project, terminal)
  | _ => ∃ (id : String) (batch : Batch), actor.batches[id]? = some batch ∧
      batch.info.projectId = project ∧ terminal ∈ batch.info.remaining

/-- A bootstrap text could not be written, and this session has a process to be accepted. -/
def Unwritten (event : HostEvent) (actor : Actor) (session : String) : Prop :=
  match event with
  | .ticked answers => (∃ asked error, (answers asked).input = .error error) ∧
      ((∃ completed ∈ actor.launching.results, completed.session = session) ∨
        ∃ answer ∈ actor.runs.events, answer.sessionId = some session ∧
          answer.runtime.isSome = true)
  | _ => False

/-- The leader of the session can be reaped. -/
def Reaps (event : HostEvent) (session : String) : Prop :=
  match event with
  | .ticked answers => ∃ asked exit, ((answers asked).ticks session).reapExit = .ok exit
  | _ => False

/-- The death of the preparation worker strikes the session. -/
def Sweeps (event : HostEvent) (actor : Actor) (session : String) : Prop :=
  match event with
  | .ticked _ => actor.Strikes session
  | _ => False

/-- What the procedure of an event may do.  `revives`: a process may be accepted for a session
    that no longer waits for one. -/
def may (event : HostEvent) (world : World) (revives : Prop) : Scope where
  begun := world.begun
  starts := event.Starts world.actor
  asked := event.Asked
  unwritten := event.Unwritten world.actor
  reaps := event.Reaps
  sweeps := event.Sweeps world.actor
  revives := revives

/-- The event makes the actor run a procedure. -/
def inside : HostEvent → Bool
  | .requested .. | .ticked _ => true
  | _ => false

end HostEvent

/-- What is known of the channels and the slots of a host. -/
structure World.Grounded (isUuid : IsUuid) (world : World) : Prop where
  ground : Ground isUuid world.begun world.actor
  workers : world.actor.Workers

variable {world later : World} {event : HostEvent} {revives : Prop}

/-- A tick, with what it is known of it. -/
theorem ticking_of {answers : Nat → HostAnswers} (grounded : world.Grounded isUuid)
    (loads : world.actor.Loads isUuid answers)
    (spared : revives ∨ world.actor.Timely ∧ ∀ session, ¬ world.actor.Strikes session) :
    Ticking isUuid ((HostEvent.ticked answers).may world revives) world.actor answers where
  covers := ⟨loads, fun asked session exit collected => ⟨asked, exit, collected⟩⟩
  unwritten actor reached asked error failed := by
    have kept := unasked_reached grounded.ground id reached
    refine ⟨fun completed member => ?_, fun answer member session of shown => ?_⟩
    · exact ⟨⟨asked, error, failed⟩, .inl ⟨completed, kept.launched member, rfl⟩⟩
    · exact ⟨⟨asked, error, failed⟩, .inr ⟨answer, kept.events member, of, shown⟩⟩
  timely actor reached := by
    by_cases revived : revives
    · exact .inl revived
    · obtain ⟨timely, spares⟩ := spared.resolve_left revived
      exact .inr (timely.reached grounded.workers grounded.ground revived spares reached)
  swept actor reached dead unknown key slot found waits := by
    cases kind : slot.purpose.isTerminal with
    | true => exact .inl rfl
    | false =>
      -- a run or an editor that waits now did so before the tick
      have kept := unasked_reached grounded.ground id reached
      obtain ⟨before, there, waited, other⟩ := kept.preparing key slot found waits kind
      refine .inr ⟨kept.alive ▸ dead, ?_, before, there, waited, other⟩
      cases was : world.actor.launchDead with
      | false => rfl
      | true => simp [(later_of_reached reached).launchDead was] at unknown
  starts actor reached id batch found terminal member := by
    have kept := unasked_reached grounded.ground (fun impossible => impossible) reached
    obtain ⟨before, there, project, remaining⟩ := kept.batch id batch found
    exact ⟨id, before, there, project.symm, remaining member⟩

/-- A request and a tick are sequences of changes. -/
theorem World.Step.reached (grounded : world.Grounded isUuid)
    (spared : revives ∨ world.actor.Timely ∧ ∀ session, ¬ event.Sweeps world.actor session)
    (inside : event.inside = true) (step : World.Step isUuid formats world event later) :
    Reached isUuid (event.may world revives) world.actor later.actor ∧
      later.begun = world.begun := by
  cases step with
  | @requested client request answers valid loads foreign =>
    have serves : Serves isUuid ((HostEvent.requested client request answers).may world revives)
        world.actor request := ⟨trivial, valid, foreign, fun _ _ same => same⟩
    exact ⟨(execute_moves formats client grounded.ground loads serves).last 0 rfl, rfl⟩
  | @ticked answers loads =>
    have ticking := ticking_of grounded loads spared
    exact ⟨(tick_moves grounded.ground ticking).last 0 rfl, rfl⟩
  | launched | launchDied | began | worked | timedOut | cellSet | runsDied | scanned | scanDied
  | gitMoved => cases inside

/-! ## The workers -/

/-- What happens outside of the actor leaves alone. -/
structure World.Outside (world later : World) : Prop where
  slots : later.actor.slots = world.actor.slots
  batches : later.actor.batches = world.actor.batches
  history : later.actor.history = world.actor.history
  jobs : later.actor.runs.jobs = world.actor.runs.jobs
  quiescing : later.actor.quiescing = world.actor.quiescing
  runsDead : later.actor.runsDead = world.actor.runsDead
  launchDead : later.actor.launchDead = world.actor.launchDead
  ids : later.actor.ids = world.actor.ids
  nextId : world.actor.nextId ≤ later.actor.nextId
  begun : ∀ session runId, world.begun session = some runId → later.begun session = some runId

theorem World.Step.outside (outside : event.inside = false)
    (step : World.Step isUuid formats world event later) : world.Outside later := by
  cases step with
  | requested | ticked => cases outside
  | launched | launchDied | worked | timedOut | cellSet | runsDied | scanned | scanDied | gitMoved =>
    exact ⟨rfl, rfl, rfl, rfl, rfl, rfl, rfl, rfl, Nat.le_refl _, fun _ _ => id⟩
  | @began id project task operation session cancel asked new =>
    refine ⟨rfl, rfl, rfl, rfl, rfl, rfl, rfl, rfl, Nat.le_succ _, fun other runId begun => ?_⟩
    have apart : other ≠ session := by
      rintro rfl
      rw [new] at begun
      cases begun
    exact (Function.update_of_ne apart _ _).trans begun

theorem World.Outside.foreign (outside : world.Outside later) {id : String}
    (foreign : world.actor.Foreign id) : later.actor.Foreign id := by
  intro index beyond
  rw [outside.ids]
  exact foreign index (outside.nextId.trans beyond)

theorem World.Outside.owns (outside : world.Outside later) {kinds : List SlotKind}
    {session : String} (owns : world.actor.Owns kinds session) :
    later.actor.Owns kinds session :=
  ⟨outside.foreign owns.foreign, outside.slots ▸ owns.kind⟩

theorem World.Outside.work (outside : world.Outside later) {work : Work}
    (fits : work.Fits world.actor) : work.Fits later.actor := by
  cases work with
  | request id request session cancel =>
    intro name same
    obtain ⟨owns, starts⟩ := fits name same
    exact ⟨outside.owns owns, fun project task operation same =>
      outside.owns (starts project task operation same)⟩
  | cancel => trivial
  | finish => exact outside.owns fits

theorem World.Outside.fits (outside : world.Outside later) {event : RunEvent}
    (fits : event.Fits isUuid world.actor world.begun) :
    event.Fits isUuid later.actor later.begun where
  prepared := fits.prepared
  asked := fits.asked
  owner session same := outside.owns (fits.owner session same)
  named session run of shown when_ := by
    obtain ⟨begun, reported, owns⟩ := fits.named session run of shown when_
    exact ⟨outside.begun session _ begun, reported, outside.owns owns⟩
  finish unasked kept := by
    obtain ⟨session, of, owns⟩ := fits.finish unasked kept
    exact ⟨session, of, outside.owns owns⟩
  reviewed := fits.reviewed

/-- What is left to show when the workers have moved. -/
theorem World.Outside.grounded (outside : world.Outside later) (grounded : world.Grounded isUuid)
    (workers : later.actor.Workers)
    (begins : ∀ session runId, later.begun session = some runId →
      world.begun session = some runId ∨
        later.actor.Foreign runId ∧ later.actor.Owns [.run] session ∧ world.begun session = none)
    (works : ∀ work ∈ later.actor.runs.working, work ∈ world.actor.runs.working)
    (events : ∀ event ∈ later.actor.runs.events, event ∈ world.actor.runs.events ∨
      event.Fits isUuid later.actor later.begun)
    (launching : ∀ job ∈ later.actor.launching.jobs, job ∈ world.actor.launching.jobs)
    (launched : ∀ completed ∈ later.actor.launching.results,
      completed ∈ world.actor.launching.results ∨
        later.actor.Owns [.terminal] completed.session ∧
          ∀ runtime, completed.result = .ok runtime → runtime.Prepared) :
    later.Grounded isUuid := by
  have ground := grounded.ground
  refine ⟨{
    distinct := outside.ids ▸ ground.distinct
    uuids := outside.ids ▸ ground.uuids
    sound := fun key slot found => ?_
    foreign := fun key slot found => ?_
    tracked := outside.slots ▸ ground.tracked
    begins := fun session runId begun => ?_
    works := fun work member => outside.work (ground.works work (works work member))
    events := fun event member => ?_
    launching := fun job member => outside.owns (ground.launching job (launching job member))
    launched := fun completed member => ?_
    reviews := outside.jobs ▸ ground.reviews
    batches := outside.batches ▸ ground.batches }, workers⟩
  · have sound := ground.sound key slot (outside.slots ▸ found)
    exact { sound with run := fun runId named =>
      ⟨(sound.run runId named).1, outside.begun key runId (sound.run runId named).2⟩ }
  · obtain ⟨foreign, terminal⟩ := ground.foreign key slot (outside.slots ▸ found)
    exact ⟨outside.foreign foreign, outside.foreign terminal⟩
  · rcases begins session runId begun with before | ⟨foreign, owns, -⟩
    · obtain ⟨foreign, owns⟩ := ground.begins session runId before
      exact ⟨outside.foreign foreign, outside.owns owns⟩
    · exact ⟨foreign, owns⟩
  · exact (events event member).elim (fun before => outside.fits (ground.events event before)) id
  · rcases launched completed member with before | new
    · obtain ⟨owns, prepared⟩ := ground.launched completed before
      exact ⟨outside.owns owns, prepared⟩
    · exact new

theorem Actor.Owns.run {session : String} (owns : actor.Owns [.run] session) :
    actor.Owns [.run, .editor] session :=
  ⟨owns.foreign, fun slot found => List.mem_cons.mpr (.inl (List.mem_singleton.mp (owns.kind slot found)))⟩

/-- An event without a process and without the run of a session. -/
theorem quiet_fits {begun : String → Option String} {event : RunEvent} (bare : event.runtime = none)
    (owner : ∀ session, event.sessionId = some session → actor.Owns [.run, .editor] session)
    (unnamed : ∀ session run, event.sessionId = some session → event.run = some run →
      event.jobId.isSome = true → existingStart event.result = true)
    (finish : event.jobId = none → event.cancel = none →
      ∃ session, event.sessionId = some session ∧ actor.Owns [.run] session)
    (reviewed : event.jobId.isSome = true → ∀ review project,
      event.result = .ok (.editorReview review project) → isUuid project = true) :
    event.Fits isUuid actor begun where
  prepared runtime running := by simp [bare] at running
  asked running := by simp [bare] at running
  owner := owner
  named session run of shown when_ := by
    rcases when_ with running | ⟨asked, new⟩
    · simp [bare] at running
    · simp [unnamed session run of shown asked] at new
  finish := finish
  reviewed := reviewed

/-- An event of the start that a run was begun for. -/
theorem start_fits {begun : String → Option String} {event : RunEvent} {session : String}
    {run : RunInfo} (of : event.sessionId = some session) (shown : event.run = some run)
    (asked : event.jobId.isSome = true) (prepared : ∀ runtime, event.runtime = some runtime →
      runtime.Prepared) (named : begun session = some run.runId) (reported : ReportedRun isUuid run)
    (owns : actor.Owns [.run] session)
    (plain : ∀ review project, event.result ≠ .ok (.editorReview review project)) :
    event.Fits isUuid actor begun where
  prepared := prepared
  asked _ := asked
  owner other same := by
    obtain rfl := Option.some.inj (of.symm.trans same)
    exact owns.run
  named other second same there _ := by
    obtain rfl := Option.some.inj (of.symm.trans same)
    obtain rfl := Option.some.inj (shown.symm.trans there)
    exact ⟨named, reported, owns⟩
  finish unasked := by simp [unasked] at asked
  reviewed _ review project same := absurd same (plain review project)

/-- An answer fits the session that the work was about. -/
theorem answers_fit (grounded : world.Grounded isUuid) {work : Work} {answer : RunEvent}
    (taken : work ∈ world.actor.runs.working)
    (answers : answer.Answers isUuid world.begun work) :
    answer.Fits isUuid world.actor world.begun := by
  have fits := grounded.ground.works work taken
  cases answers with
  | refused =>
    exact quiet_fits rfl (fun session same => (fits session same).1) (fun _ _ _ shown => by cases shown)
      (fun unasked => by cases unasked) fun _ _ _ same => by cases same
  | existing =>
    exact quiet_fits rfl (fun session same => (fits session same).1) (fun _ _ _ _ _ => rfl)
      (fun unasked => by cases unasked) fun _ _ _ same => by cases same
  | started named reported prepared cancels =>
    refine start_fits rfl rfl rfl (fun runtime same => ?_) named reported ((fits _ rfl).2 _ _ _ rfl)
      fun _ _ same => by cases same
    cases same
    exact prepared
  | unmarked named reported prepared =>
    refine start_fits rfl rfl rfl (fun runtime same => ?_) named reported ((fits _ rfl).2 _ _ _ rfl)
      fun _ _ same => by cases same
    cases same
    exact prepared
  | unstarted named reported =>
    exact start_fits rfl rfl rfl (fun _ same => by cases same) named reported
      ((fits _ rfl).2 _ _ _ rfl) fun _ _ same => by cases same
  | opened plain =>
    refine ⟨fun runtime same => ?_, fun _ => rfl, fun session same => (fits session same).1,
      fun _ _ _ shown => ?_, fun unasked => ?_, fun _ _ _ same => ?_⟩
    · cases same
      exact .inl plain
    · cases shown
    · cases unasked
    · cases same
  | answered plain reviewed cancels =>
    exact quiet_fits rfl (fun _ same => by cases same) (fun _ _ same => by cases same)
      (fun unasked => by cases unasked) fun _ review project same =>
        reviewed review project (Except.ok.inj same)
  | cancelled of plain =>
    refine quiet_fits rfl (fun session same => ?_) (fun _ _ _ _ asked => by cases asked)
      (fun _ quiet => by cases quiet) fun asked => by cases asked
    exact (grounded.ground.begins session _ (of session same)).2.run
  | finished plain =>
    refine quiet_fits rfl (fun session same => ?_) (fun _ _ _ _ asked => by cases asked)
      (fun _ _ => ⟨_, rfl, fits⟩) fun asked => by cases asked
    obtain rfl := Option.some.inj same
    exact Actor.Owns.run fits

theorem times_fit (grounded : world.Grounded isUuid) {answer : RunEvent}
    (times : answer.TimesOut world.begun) : answer.Fits isUuid world.actor world.begun := by
  cases times with
  | cancelled of plain =>
    refine quiet_fits rfl (fun session same => ?_) (fun _ _ _ _ asked => by cases asked)
      (fun _ quiet => by cases quiet) fun asked => by cases asked
    exact (grounded.ground.begins session _ (of session same)).2.run

theorem World.Step.grounded_outside (grounded : world.Grounded isUuid)
    (outside : event.inside = false) (step : World.Step isUuid formats world event later) :
    later.Grounded isUuid := by
  have beside := step.outside outside
  have workers := grounded.workers
  have begins : ∀ session runId, world.begun session = some runId →
      world.begun session = some runId ∨ later.actor.Foreign runId ∧
        later.actor.Owns [.run] session ∧ world.begun session = none :=
    fun _ _ => .inl
  have same : world.actor.Workers := ⟨workers.launching, workers.launchDead, workers.working,
    workers.dead, workers.runsDead⟩
  cases step with
  | requested | ticked => cases outside
  | @launched job rest result next prepared =>
    refine beside.grounded grounded ⟨fun dead => ?_, fun dead => ?_, workers.working, workers.dead,
      workers.runsDead⟩ begins (fun _ => id) (fun _ => .inl) (fun other member => ?_)
      fun completed member => ?_
    · have empty := workers.launching dead
      rw [next] at empty
      cases empty
    · have empty := workers.launching (workers.launchDead dead).1
      rw [next] at empty
      cases empty
    · rw [next]
      exact List.mem_cons_of_mem _ member
    · rcases List.mem_append.mp member with before | new
      · exact .inl before
      · obtain rfl := List.mem_singleton.mp new
        exact .inr ⟨beside.owns (grounded.ground.launching job (by simp [next])), prepared⟩
  | launchDied =>
    refine beside.grounded grounded ⟨fun _ => rfl, fun dead => ⟨rfl, (workers.launchDead dead).2⟩,
      workers.working, workers.dead, workers.runsDead⟩ begins (fun _ => id) (fun _ => .inl)
      (fun _ member => ?_) fun _ => .inl
    cases member
  | @began job project task operation session cancel asked new =>
    refine beside.grounded grounded ⟨workers.launching, workers.launchDead, workers.working,
      workers.dead, workers.runsDead⟩ (fun other runId begun => ?_) (fun _ => id) (fun _ => .inl)
      (fun _ => id) fun _ => .inl
    dsimp only at begun
    rw [Function.update_apply] at begun
    split at begun
    · rename_i here
      subst here
      cases begun
      have owns := (grounded.ground.works _ asked other rfl).2 _ _ _ rfl
      exact .inr ⟨grounded.ground.drawn (Nat.lt_succ_self _) rfl, beside.owns owns, new⟩
    · exact .inl begun
  | @worked work answer taken answers =>
    refine beside.grounded grounded ⟨workers.launching, workers.launchDead, fun dead => ?_,
      fun dead => ?_, workers.runsDead⟩ begins (fun _ member => List.mem_of_mem_erase member)
      (fun event member => ?_) (fun _ => id) fun _ => .inl
    · have empty := workers.working dead
      simp [empty] at taken
    · have empty := workers.working (workers.dead dead).1
      simp [empty] at taken
    · rcases List.mem_append.mp member with before | new
      · exact .inl before
      · obtain rfl := List.mem_singleton.mp new
        exact .inr (beside.fits (answers_fit grounded taken answers))
  | @timedOut answer alive times =>
    refine beside.grounded grounded ⟨workers.launching, workers.launchDead, workers.working,
      fun dead => ?_, workers.runsDead⟩ begins (fun _ => id) (fun event member => ?_) (fun _ => id)
      fun _ => .inl
    · have gone := (workers.dead dead).1
      rw [alive] at gone
      cases gone
    · rcases List.mem_append.mp member with before | new
      · exact .inl before
      · obtain rfl := List.mem_singleton.mp new
        exact .inr (beside.fits (times_fit grounded times))
  | runsDied =>
    refine beside.grounded grounded ⟨workers.launching, workers.launchDead, fun _ => rfl,
      fun dead => ⟨rfl, (workers.dead dead).2⟩, workers.runsDead⟩ begins (fun _ member => ?_)
      (fun _ => .inl) (fun _ => id) fun _ => .inl
    cases member
  | cellSet | scanned | scanDied | gitMoved =>
    exact beside.grounded grounded ⟨workers.launching, workers.launchDead, workers.working,
      workers.dead, workers.runsDead⟩ begins (fun _ => id) (fun _ => .inl) (fun _ => id) fun _ => .inl

/-! ## Every run -/

theorem World.Step.grounded (grounded : world.Grounded isUuid)
    (step : World.Step isUuid formats world event later) : later.Grounded isUuid := by
  cases inside : event.inside with
  | false => exact step.grounded_outside grounded inside
  | true =>
    obtain ⟨reached, begun⟩ := @step.reached _ _ _ _ _ True grounded (.inl trivial) inside
    exact ⟨begun ▸ grounded.ground.reached reached, grounded.workers.reached reached⟩

/-- The invariant of the actor holds in every world that a host reaches. -/
theorem grounded : (hostSystem isUuid formats).Invariant (World.Grounded isUuid) where
  initial _ initial := ⟨initial.ground, initial.workers⟩
  preserved _ _ _ grounded step := World.Step.grounded grounded step

/-! ### Sessions that are spared -/

/-- No session of this kind is among these. -/
def Actor.Spares (actor : Actor) (kind : SlotKind) (sessions : String → Prop) : Prop :=
  ∀ (key : String) (slot : Slot), actor.slots[key]? = some slot → slot.purpose.kind = kind →
    ¬ sessions key

/-- Without a client no run and no editor is new. -/
theorem Actor.Spares.reached {kind : SlotKind} {sessions : String → Prop}
    (spares : origin.Spares kind sessions) (other : kind ≠ .terminal)
    (unasked : scope.asked → ∀ session, ¬ sessions session)
    (ground : Ground isUuid scope.begun origin) (reached : Reached isUuid scope origin actor) :
    actor.Spares kind sessions := by
  induction reached with
  | refl => exact spares
  | tail before change inductionHypothesis =>
    intro key slot found same
    rcases change.slot found with ⟨first, there, moved⟩ | born
    · have kept := (((ground.reached before).sound key first there).moved moved).2
      exact inductionHypothesis key first there (kept.kind.symm.trans same)
    · cases born with
      | terminal => exact absurd same.symm other
      | admitted admits => exact unasked admits.asked _

/-! ### While no death strikes a session that waits -/

/-- The answer to a piece of work is about its session. -/
theorem answers_session {begun : String → Option String} {work : Work} {answer : RunEvent}
    (answers : answer.Answers isUuid begun work) : answer.answered = work.session := by
  cases answers <;> rfl

theorem Actor.Timely.perm (timely : actor.Timely)
    (perm : actor.outstanding.Perm after.outstanding) (slots : after.slots = actor.slots) :
    after.Timely :=
  ⟨perm.nodup_iff.mp timely.1, fun session pending =>
    slots ▸ timely.2 session (perm.mem_iff.mpr pending)⟩

theorem World.Step.timely_outside (timely : world.actor.Timely) (outside : event.inside = false)
    (step : World.Step isUuid formats world event later) : later.actor.Timely := by
  have fewer (sublist : later.actor.outstanding.Sublist world.actor.outstanding) :
      later.actor.Timely :=
    timely.beside sublist fun key slot found =>
      ⟨slot, (step.outside outside).slots ▸ found, rfl⟩
  cases step with
  | requested | ticked => cases outside
  | @launched job rest result next prepared =>
    -- the session moves from the jobs to the results
    refine timely.perm ?_ rfl
    simp only [outstanding, next, List.map_cons, List.map_append, List.map_nil]
    refine List.Perm.append_right _ ?_
    rw [← List.append_assoc]
    exact (List.perm_append_singleton _ _).symm
  | launchDied =>
    refine fewer ?_
    simp only [outstanding, List.map_nil, List.nil_append]
    exact (List.sublist_append_right _ _).append_right _
  | @worked work answer taken answers =>
    -- so it does from the work to the events
    refine timely.perm ?_ rfl
    have same := answers_session answers
    have taken := (List.perm_cons_erase taken).filterMap Work.session
    simp only [outstanding, List.filterMap_append, List.filterMap_cons, List.filterMap_nil, same]
      at taken ⊢
    refine List.Perm.append_left _ ?_
    cases about : work.session with
    | none =>
      rw [about] at taken
      simpa using taken.append_right _
    | some session =>
      rw [about] at taken
      refine (taken.append_right _).trans ?_
      simp only [List.cons_append]
      rw [← List.append_assoc]
      exact (List.perm_append_singleton _ _).symm
  | @timedOut answer alive times =>
    refine fewer ?_
    have quiet : answer.answered = none := by
      cases times
      rfl
    simp [outstanding, List.filterMap_append, quiet]
  | runsDied =>
    refine fewer ?_
    simp only [outstanding, List.filterMap_nil, List.nil_append]
    exact (List.sublist_append_right _ _).append_left _
  | began | cellSet | scanned | scanDied | gitMoved => exact timely

/-- No tick finds the preparation worker dead while a run or an editor is prepared. -/
def Spared (world : World) (event : HostEvent) : Prop :=
  ∀ session, ¬ event.Sweeps world.actor session

/-- While no death strikes them, the sessions that somebody has to answer for wait. -/
theorem spared_timely : ((hostSystem isUuid formats).restrict Spared).Invariant
    fun world => world.Grounded isUuid ∧ world.actor.Timely where
  initial _ initial := ⟨⟨initial.ground, initial.workers⟩, initial.timely⟩
  preserved first event last holds step := by
    obtain ⟨grounded, timely⟩ := holds
    refine ⟨World.Step.grounded grounded step.1, ?_⟩
    cases inside : event.inside with
    | false => exact step.1.timely_outside timely inside
    | true =>
      obtain ⟨reached, -⟩ :=
        @World.Step.reached _ _ _ _ _ False grounded (.inr ⟨timely, step.2⟩) inside step.1
      exact timely.reached grounded.workers grounded.ground id (fun session => step.2 session)
        reached

/-! ### Sample runs -/

theorem World.Step.ids (grounded : world.Grounded isUuid)
    (step : World.Step isUuid formats world event later) :
    later.actor.ids = world.actor.ids := by
  cases inside : event.inside with
  | false => exact (step.outside inside).ids
  | true =>
    exact (later_of_reached
      (@World.Step.reached _ _ _ _ _ True grounded (.inl trivial) inside step).1).ids

theorem sampleAsked_step : World.Step sampleUuids Git.sampleFormats sampleStart.world
    (.requested "client" (.startDefaults "project") fun _ => sampleHostAnswers 0)
    sampleAsked.world :=
  .requested (by decide) (sample_loads rfl 0) nofun

theorem sampleAsked_ids : sampleAsked.world.actor.ids = sampleIds :=
  sampleAsked_step.ids (grounded.initial sampleStart_initial.1)

theorem sampleTicked_step : World.Step sampleUuids Git.sampleFormats sampleAsked.world
    (.ticked fun _ => sampleHostAnswers 100) sampleTicked.world :=
  .ticked (sample_loads sampleAsked_ids 100)

theorem sampleTicked_ids : sampleTicked.world.actor.ids = sampleIds :=
  (sampleTicked_step.ids (sampleAsked_step.grounded
    (grounded.initial sampleStart_initial.1))).trans sampleAsked_ids

theorem sampleTicked_host :
    (hostSystem sampleUuids Git.sampleFormats).Reachable sampleTicked.world :=
  ((System.Reachable.start sampleStart_initial.1).step sampleAsked_step).step sampleTicked_step

/-- The actor serves a client of the sample host. -/
def World.serve (world : World) (request : Request) (now : Nat) : World :=
  { world with
    actor := world.actor.after (execute sampleUuids Git.sampleFormats "client" request)
      fun _ => sampleHostAnswers now }

/-- A tick of the sample host. -/
def World.tick (world : World) (now : Nat) : World :=
  { world with actor := world.actor.after (Host.tick sampleUuids) fun _ => sampleHostAnswers now }

/-- A task is asked for: its session is `a`. -/
def sampleAdmitted : World :=
  sampleStart.world.serve (.run (.start "project" "task" "operation")) 0

/-- The run worker begins the run `aaaa` for it. -/
def sampleBegun : World where
  actor := { sampleAdmitted.actor with nextId := sampleAdmitted.actor.nextId + 1 }
  begun := Function.update sampleAdmitted.begun "a" (some "aaaa")

theorem World.serve_step {request : Request} {now : Nat}
    (valid : request.validate sampleUuids = .ok ()) (ids : world.actor.ids = sampleIds)
    (foreign : ∀ terminal, request.terminal? = some terminal → world.actor.Foreign terminal) :
    World.Step sampleUuids Git.sampleFormats world
      (.requested "client" request fun _ => sampleHostAnswers now) (world.serve request now) :=
  .requested valid (sample_loads ids now) foreign

theorem World.tick_step {now : Nat} (ids : world.actor.ids = sampleIds) :
    World.Step sampleUuids Git.sampleFormats world (.ticked fun _ => sampleHostAnswers now)
      (world.tick now) :=
  .ticked (sample_loads ids now)

theorem sampleAdmitted_step : World.Step sampleUuids Git.sampleFormats sampleStart.world
    (.requested "client" (.run (.start "project" "task" "operation"))
      fun _ => sampleHostAnswers 0) sampleAdmitted :=
  World.serve_step (by decide) rfl nofun

theorem sampleAdmitted_ids : sampleAdmitted.actor.ids = sampleIds :=
  sampleAdmitted_step.ids (grounded.initial sampleStart_initial.1)

theorem sampleBegun_step : World.Step sampleUuids Git.sampleFormats sampleAdmitted
    (.began "a") sampleBegun := by
  have drawn : sampleAdmitted.actor.ids sampleAdmitted.actor.nextId = "aaaa" := by
    rw [sampleAdmitted_ids, show sampleAdmitted.actor.nextId = 3 by decide +kernel]
    decide
  have began := @World.Step.began sampleUuids Git.sampleFormats sampleAdmitted "aaa" "project"
    "task" "operation" "a" "a" (by decide +kernel) rfl
  rw [drawn] at began
  exact began

end Idk.Host
