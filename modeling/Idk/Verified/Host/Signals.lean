import Idk.Verified.Host.Ended

/-!
# Signals to runs

The session of a run is signalled only once the cancellation of the run has been recorded, or
when nobody is left to record it.  A bootstrap text that cannot be written is the exception.

**Main results:**

- `signals_durable`: so it is where the bootstrap text of every run can be written.
- `signal_unrecorded`: where one cannot, the run is signalled at once.
-/

namespace Idk.Host

open Idk.Logic
open Relation (ReflTransGen)
open Actor

variable {isUuid : IsUuid} {formats : Git.GitFormats} {scope : Scope} {origin actor after : Actor}

/-- Each run that was signalled had its cancellation recorded, or no run worker. -/
def Actor.Durable (actor : Actor) : Prop :=
  ∀ (session runId : String) (durable runsDead : Bool),
    Happening.signalled session (some runId) durable runsDead ∈ actor.history →
      durable = true ∨ runsDead = true

theorem Slot.mayClose_run {slot : Slot} {runId : String} {runsDead : Bool}
    (run : slot.purpose.runId = some runId) (may : slot.mayClose runsDead = true) :
    slot.runCancelDurable = true ∨ runsDead = true := by
  cases purpose : slot.purpose with
  | run named => simpa [Slot.mayClose, purpose, SlotPurpose.isRun] using may
  | terminal definition => simp [purpose, SlotPurpose.runId] at run
  | editor => simp [purpose, SlotPurpose.runId] at run

theorem SlotPurpose.kind_run {purpose : SlotPurpose} {runId : String}
    (run : purpose.runId = some runId) : purpose.kind = .run := by
  cases purpose with
  | run => rfl
  | terminal | editor => cases run

theorem Change.durable (durable : actor.Durable) (spares : actor.Spares .run scope.unwritten)
    (change : Change isUuid scope actor after) : after.Durable := by
  intro session runId recorded runsDead member
  cases change with
  | @signalled _ slot found may =>
    rcases List.mem_cons.mp member with same | before
    · obtain ⟨rfl, run, rfl, rfl⟩ := Happening.signalled.inj same
      rcases may with allowed | other | failed
      · exact Slot.mayClose_run run.symm allowed
      · rw [other] at run
        cases run
      · exact absurd failed (spares _ slot found (SlotPurpose.kind_run run.symm))
    · exact durable session runId recorded runsDead before
  | opening opening =>
    cases opening <;> exact durable session runId recorded runsDead
      (by simpa [record, opened] using member)
  | attached =>
    split at member <;> exact durable session runId recorded runsDead
      (by simpa [record, setSlot] using member)
  | _ =>
    exact durable session runId recorded runsDead
      (by simpa [record, reserved, setSlot, modifySlot, removeSlot] using member)

theorem Actor.Durable.reached (durable : origin.Durable)
    (spares : origin.Spares .run scope.unwritten)
    (unasked : scope.asked → ∀ session, ¬ scope.unwritten session)
    (ground : Ground isUuid scope.begun origin) (reached : Reached isUuid scope origin actor) :
    actor.Durable := by
  induction reached with
  | refl => exact durable
  | tail before change inductionHypothesis =>
    exact change.durable inductionHypothesis (spares.reached nofun unasked ground before)

/-! ## Every run -/

variable {world later : World} {event : HostEvent}

/-- The bootstrap text of every run that is accepted can be written. -/
def Written (world : World) (event : HostEvent) : Prop :=
  world.actor.Spares .run (event.Unwritten world.actor)

theorem HostEvent.asked_writes (asked : event.Asked) (session : String) :
    ¬ event.Unwritten world.actor session := by
  cases event with
  | requested => exact id
  | _ => exact asked.elim

theorem World.Step.durable (grounded : world.Grounded isUuid) (durable : world.actor.Durable)
    (written : Written world event) (step : World.Step isUuid formats world event later) :
    later.actor.Durable := by
  cases inside : event.inside with
  | false =>
    intro session runId recorded runsDead member
    exact durable session runId recorded runsDead ((step.outside inside).history ▸ member)
  | true =>
    have reached :=
      (@World.Step.reached _ _ _ _ _ True grounded (.inl trivial) inside step).1
    have spares : world.actor.Spares .run (event.may world True).unwritten := written
    exact durable.reached spares HostEvent.asked_writes grounded.ground reached

theorem durable : ((hostSystem isUuid formats).restrict Written).Invariant
    fun world => world.Grounded isUuid ∧ world.actor.Durable where
  initial _ initial := by
    refine ⟨⟨initial.ground, initial.workers⟩, fun session runId recorded runsDead member => ?_⟩
    obtain ⟨hostInstance, records, new⟩ := initial.new
    simp [new.history] at member
  preserved _ _ _ holds step :=
    ⟨World.Step.grounded holds.1 step.1, World.Step.durable holds.1 holds.2 step.2 step.1⟩

/-- In every run in which the bootstrap text of each run can be written, the PTY host is asked to
    close the session of a run, and one of its processes is signalled, only when the
    cancellation of that run has been recorded or the run worker is known to be dead. -/
theorem signals_durable
    (reachable : ((hostSystem isUuid formats).restrict Written).Reachable world)
    {session runId : String} {recorded runsDead : Bool}
    (signalled : .signalled session (some runId) recorded runsDead ∈ world.actor.history) :
    recorded = true ∨ runsDead = true :=
  (durable.reachable reachable).2 session runId recorded runsDead signalled

/-! ### Runs that are signalled -/

theorem written_of_ok {answers : Nat → HostAnswers}
    (writes : ∀ asked error, (answers asked).input ≠ .error error) :
    Written world (.ticked answers) :=
  fun _ _ _ _ failed => failed.1.elim fun asked ⟨error, same⟩ => writes asked error same

/-- The run has been started. -/
def sampleRunning : World := sampleBegun.report.tick 0

/-- A client asks for the end of the run. -/
def sampleCancelling : World := sampleRunning.serve (.shutdown ["a"] false) 0

/-- The run worker has recorded the cancellation. -/
def sampleCancelled : World :=
  { sampleCancelling with
    actor.runs.working := sampleCancelling.actor.runs.working.erase (.cancel "aaaa" false)
    actor.runs.events := sampleCancelling.actor.runs.events ++
      [⟨none, some "a", none, some sampleRun, .ok (.other "cancelled"), some ("aaaa", false), true⟩] }

/-- The session of the run has been signalled. -/
def sampleClosed : World := sampleCancelled.tick 0

theorem sampleClosed_reachable :
    ((hostSystem sampleUuids Git.sampleFormats).restrict Written).Reachable sampleClosed := by
  have start := System.Reachable.start (S := (hostSystem sampleUuids Git.sampleFormats).restrict
    Written) sampleStart_initial.1
  have admitted := sampleAdmitted_step.grounded (grounded.initial sampleStart_initial.1)
  have begun := sampleBegun_step.grounded admitted
  have reported := @World.report_step sampleBegun (by decide +kernel) (by decide +kernel)
  have reportedIds : sampleBegun.report.actor.ids = sampleIds := sampleAdmitted_ids
  have ran : World.Step sampleUuids Git.sampleFormats sampleBegun.report _ sampleRunning :=
    World.tick_step reportedIds
  have running := ran.grounded (reported.grounded begun)
  have runningIds : sampleRunning.actor.ids = sampleIds :=
    (ran.ids (reported.grounded begun)).trans reportedIds
  have asked : World.Step sampleUuids Git.sampleFormats sampleRunning _ sampleCancelling :=
    World.serve_step (by decide) runningIds nofun
  have askedIds : sampleCancelling.actor.ids = sampleIds := (asked.ids running).trans runningIds
  have cancelled : World.Step sampleUuids Git.sampleFormats sampleCancelling
      (.worked (.cancel "aaaa" false) _) sampleCancelled :=
    .worked (by decide +kernel) (.cancelled (fun name same => by cases same; decide +kernel) rfl)
  have cancelledIds := (cancelled.ids (asked.grounded running)).trans askedIds
  have closed : World.Step sampleUuids Git.sampleFormats sampleCancelled _ sampleClosed :=
    World.tick_step cancelledIds
  have ticks (world : World) : Written world (.ticked fun _ => sampleHostAnswers 0) :=
    written_of_ok nofun
  exact ((((((start.step ⟨sampleAdmitted_step, fun _ _ _ _ => id⟩).step
    ⟨sampleBegun_step, fun _ _ _ _ => id⟩).step ⟨reported, fun _ _ _ _ => id⟩).step
    ⟨ran, ticks _⟩).step ⟨asked, fun _ _ _ _ => id⟩).step
    ⟨cancelled, fun _ _ _ _ => id⟩).step ⟨closed, ticks _⟩

theorem signals_durable_sample :
    Happening.signalled "a" (some "aaaa") true false ∈ sampleClosed.actor.history ∧
      (true = true ∨ false = true) := by
  have signalled : Happening.signalled "a" (some "aaaa") true false ∈
      sampleClosed.actor.history := by decide +kernel
  exact ⟨signalled, signals_durable sampleClosed_reachable signalled⟩

/-- The run has been started, with a bootstrap text. -/
def sampleTexted : World :=
  { sampleBegun with
    actor.runs.working := sampleBegun.actor.runs.working.erase sampleWork
    actor.runs.events := sampleBegun.actor.runs.events ++
      [⟨some "aaa", some "a", some ⟨some 7, true, [10], 0, "", true⟩, some sampleRun,
        .ok (.started sampleRun false), none, true⟩] }

/-- Nothing can be written to a terminal. -/
def closedAnswers : HostAnswers := { sampleHostAnswers 0 with input := .error "closed" }

def sampleUnrecorded : World :=
  { sampleTexted with
    actor := sampleTexted.actor.after (tick sampleUuids) fun _ => closedAnswers }

/-- The bootstrap text of a run cannot be written: its session is closed at once. -/
theorem signal_unrecorded : ∃ world : World,
    (hostSystem sampleUuids Git.sampleFormats).Reachable world ∧
      Happening.signalled "a" (some "aaaa") false false ∈ world.actor.history := by
  obtain ⟨reachable, ids⟩ := sampleBegun_reachable
  have texted : World.Step sampleUuids Git.sampleFormats sampleBegun (.worked sampleWork _)
      sampleTexted :=
    .worked (by decide +kernel) (.started (by decide +kernel) ⟨rfl, by decide⟩ (.inl rfl) nofun)
  have ticked : World.Step sampleUuids Git.sampleFormats sampleTexted
      (.ticked fun _ => closedAnswers) sampleUnrecorded := .ticked (sample_loads ids 0)
  exact ⟨sampleUnrecorded, (reachable.step texted).step ticked, by decide +kernel⟩

end Idk.Host
