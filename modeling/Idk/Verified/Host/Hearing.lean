import Idk.Verified.Host.Asked

/-!
# Hearing the workers is a sequence of changes

The results of the preparation worker and the events of the run worker are each walked once,
from the channel to what the slot of their session makes of them.

**Main results:** `pollRun_moves` and `pollLaunch_moves`.
-/

namespace Idk.Host

open Idk.Logic
open Idk.Logic.Procedure (Ensures)
open Relation (ReflTransGen)
open Actor

variable {isUuid : IsUuid} {scope : Scope} {answers : Nat → HostAnswers} {origin actor after : Actor}

/-- Nobody has to answer for a session that no longer waits, or for one twice. -/
def Actor.Timely (actor : Actor) : Prop :=
  actor.outstanding.Nodup ∧ ∀ session ∈ actor.outstanding, ∀ slot,
    actor.slots[session]? = some slot → slot.preparing = true

/-- What is known of a tick that starts in `origin`. -/
structure Ticking (isUuid : IsUuid) (scope : Scope) (origin : Actor) (answers : Nat → HostAnswers) :
    Prop where
  covers : scope.Covers isUuid origin answers
  unwritten : ∀ actor, Reached isUuid scope origin actor → ∀ asked error,
    (answers asked).input = .error error →
      (∀ completed ∈ actor.launching.results, scope.unwritten completed.session) ∧
      ∀ event ∈ actor.runs.events, ∀ session, event.sessionId = some session →
        event.runtime.isSome = true → scope.unwritten session
  timely : ∀ actor, Reached isUuid scope origin actor → scope.revives ∨ actor.Timely
  swept : ∀ actor, Reached isUuid scope origin actor → actor.launching.alive = false →
    actor.launchDead = false → ∀ (key : String) (slot : Slot), actor.slots[key]? = some slot →
      slot.preparing = true → slot.purpose.isTerminal = true ∨ scope.sweeps key
  starts : ∀ actor, Reached isUuid scope origin actor → ∀ (id : String) (batch : Batch),
    actor.batches[id]? = some batch → ∀ terminal ∈ batch.info.remaining,
      scope.starts batch.info.projectId terminal

/-! ## A process has been prepared -/

/-- What has just been heard of the session was the last of it. -/
def Expects (scope : Scope) (session : String) (actor : Actor) : Prop :=
  scope.revives ∨ session ∉ actor.outstanding ∧
    ∀ slot, actor.slots[session]? = some slot → slot.preparing = true

theorem Expects.awaited {session : String} {slot : Slot} (expects : Expects scope session actor)
    (found : actor.slots[session]? = some slot) : slot.Awaited scope actor session :=
  expects.imp_right fun quiet => ⟨quiet.2 slot found, quiet.1⟩

/-- The session has a process. -/
def Runs (session : String) (actor : Actor) : Prop :=
  ∃ slot, actor.slots[session]? = some slot ∧ slot.runtime.isSome = true

/-- One slot is changed and the rest goes on. -/
theorem modified_get {session : String} {slot : Slot} (found : actor.slots[session]? = some slot)
    (change : Slot → Slot) : (modifySlot session change actor).slots[session]? = some (change slot) := by
  rw [modifySlot_get, if_pos rfl, found]
  rfl

theorem declineRuntime_moves (session : String) (cancelled : Bool) :
    Ensures answers (fun actor => Reached isUuid scope origin actor ∧ Runs session actor)
      (declineRuntime session cancelled) (fun _ => Reached isUuid scope origin)
      (Reached isUuid scope origin) := by
  refine .known fun actor ⟨reached, slot, found, running⟩ => thenNow fun time => .thenUpdate ?_
  have closing : Reached isUuid scope origin
      (modifySlot session (·.uninitialized cancelled time) actor) := by
    refine reached.tail (slots_modified fun other there => .single (.uninitialized ?_))
    obtain rfl := Option.some.inj (found.symm.trans there)
    exact running
  refine thenLook closing fun slot found => ?_
  have closes (may : slot.mayClose actor.runsDead = true ∨ slot.purpose.runId = none) :
      Ensures answers (· = modifySlot session (·.uninitialized cancelled time) actor) (do
        let _ ← hostClose session : Act Unit) (fun _ => Reached isUuid scope origin)
        (Reached isUuid scope origin) := by
    refine .thenCall (hostClose_moves session) ⟨closing, fun other there => ?_⟩
      fun _ _ moved => .done moved
    obtain rfl := Option.some.inj (found.symm.trans there)
    exact may.imp_right .inl
  cases run : slot.purpose.runId with
  | none => exact closes (.inr run)
  | some runId =>
    refine .branch (fun durable => closes (.inl ?_)) fun _ => ?_
    · simp [Slot.mayClose, durable]
    · exact .thenCall (attempt_moves (cancelRun_moves runId false)) closing
        fun _ _ moved => .done moved

theorem writeBootstrap_moves (session : String) (runtime : Runtime)
    (unwritten : ∀ asked error, (answers asked).input = .error error → scope.unwritten session) :
    Ensures answers (fun actor => Reached isUuid scope origin actor ∧ Runs session actor)
      (writeBootstrap session runtime) (fun _ => Reached isUuid scope origin)
      (Reached isUuid scope origin) := by
  refine .known fun actor ⟨reached, slot, found, running⟩ => .thenUpdate ?_
  have taken : Reached isUuid scope origin (modifySlot session Slot.bootstrapTaken actor) :=
    reached.tail (slots_modified fun _ _ => .single .bootstrapTaken)
  have there := modified_get found Slot.bootstrapTaken
  have still : slot.bootstrapTaken.runtime.isSome = true := by
    simpa [Slot.bootstrapTaken] using running
  refine .branch (fun _ => .thenAsk fun asked => ?_) fun _ => .done taken
  cases written : (answers asked).input with
  | ok done => exact .done taken
  | error error =>
    refine thenNow fun time => .thenUpdate ?_
    refine .thenCall (hostClose_moves session) ⟨taken.tail (slots_modified fun other known => ?_),
      fun _ _ => .inr (.inr (unwritten asked error written))⟩ fun _ _ moved => .done moved
    obtain rfl := Option.some.inj (there.symm.trans known)
    exact .single (.unbootstrapped still)

theorem acceptRuntime_moves {session : String} {runtime : Runtime} (prepared : runtime.Prepared)
    (unwritten : ∀ asked error, (answers asked).input = .error error → scope.unwritten session) :
    Ensures answers
      (fun actor => Reached isUuid scope origin actor ∧ Expects scope session actor)
      (acceptRuntime isUuid session runtime) (fun _ => Reached isUuid scope origin)
      (Reached isUuid scope origin) := by
  refine .known fun actor ⟨reached, expects⟩ => thenLook reached fun slot found => ?_
  refine .thenRead (.thenUpdate (thenPersist fun outcome => ?_))
  have accepted : Reached isUuid scope origin (modifySlot session
      (·.accepted runtime (actor.isCancelled slot.cancel || actor.quiescing)) actor) := by
    refine reached.tail (slots_modified fun other there => ?_)
    obtain rfl := Option.some.inj (found.symm.trans there)
    exact .single (.accepted prepared (expects.awaited there))
  have saved := accepted.tail (.opening .saved)
  have runs : Runs session (record (.persisted (modifySlot session
      (·.accepted runtime (actor.isCancelled slot.cancel || actor.quiescing)) actor).ledger)
      (modifySlot session
        (·.accepted runtime (actor.isCancelled slot.cancel || actor.quiescing)) actor)) :=
    ⟨_, modified_get found _, rfl⟩
  cases outcome with
  | ok done =>
    exact .branch (fun _ => .tail (declineRuntime_moves session _) ⟨saved, runs⟩)
      fun _ => .tail (writeBootstrap_moves session runtime unwritten) ⟨saved, runs⟩
  | error error => exact .tail (declineRuntime_moves session _) ⟨saved, runs⟩

/-- The record of a prepared session is saved, or its slot says that it is not. -/
theorem savePrepared_moves (session : String) :
    Ensures answers (Reached isUuid scope origin) (do
      if let .error _ ← Procedure.attempt (persist isUuid) then
        updateSlot session
          (·.withError "durable session record failed; inspect current host before restart")
      : Act Unit) (fun _ => Reached isUuid scope origin) (Reached isUuid scope origin) := by
  refine .known fun actor reached => thenPersist fun outcome => ?_
  have saved := reached.tail (.opening .saved)
  cases outcome with
  | ok done => exact .done saved
  | error error => exact .updated (saved.tail slots_noted)

/-- What a worker has prepared for a session, or that it could not. -/
structure Completed.Fits (completed : Completed) (actor : Actor) : Prop where
  prepared : ∀ runtime, completed.result = .ok runtime → runtime.Prepared
  kind : ∀ error slot, completed.result = .error error →
    actor.slots[completed.session]? = some slot → slot.purpose.isTerminal = true

theorem acceptPrepared_moves {completed : Completed}
    (unwritten : ∀ asked error, (answers asked).input = .error error →
      scope.unwritten completed.session) :
    Ensures answers
      (fun actor => Reached isUuid scope origin actor ∧ Expects scope completed.session actor ∧
        completed.Fits actor)
      (acceptPrepared isUuid completed) (fun _ => Reached isUuid scope origin)
      (Reached isUuid scope origin) := by
  refine .known fun actor ⟨reached, expects, fits⟩ => .thenRead ?_
  cases found : actor.slots[completed.session]? with
  | none => exact .done reached
  | some slot =>
    dsimp only
    cases result : completed.result with
    | error error =>
      refine thenNow fun time => .thenUpdate (.tail (savePrepared_moves _) ?_)
      refine reached.tail (slots_modified fun other there => .single (.unprepared ?_ ?_))
      · exact fits.kind error other result there
      · exact expects.awaited there
    | ok runtime =>
      refine .thenCall (acceptRuntime_moves (fits.prepared runtime result) unwritten)
        ⟨reached, expects⟩ fun _ _ moved => .tail (savePrepared_moves _) moved

/-! ## The preparation worker -/

/-- What stands at one place of a list without repetitions stands at no other. -/
theorem not_mem_rest {before after : List String} {session : String}
    (once : (before ++ session :: after).Nodup) : session ∉ before ++ after :=
  (List.nodup_cons.mp (List.nodup_middle.mp once)).1

/-- The result that is taken was the last that its session waited for. -/
theorem launched_expects {completed : Completed} {rest : List Completed}
    (timely : scope.revives ∨ actor.Timely)
    (next : actor.launching.results = completed :: rest) :
    Expects scope completed.session { actor with launching.results := rest } := by
  refine timely.imp_right fun ⟨once, waits⟩ => ⟨?_, fun slot found => ?_⟩
  · simp only [outstanding, next, List.map_cons, List.append_assoc, List.cons_append] at once ⊢
    exact not_mem_rest once
  · exact waits completed.session (by simp [outstanding, next]) slot found

theorem failPendingPrepares_moves (ticking : Ticking isUuid scope origin answers) :
    Ensures answers
      (fun actor => Reached isUuid scope origin actor ∧ actor.launching.alive = false ∧
        actor.launching.results = [])
      (failPendingPrepares isUuid) (fun _ => Reached isUuid scope origin)
      (Reached isUuid scope origin) := by
  refine .known fun actor ⟨reached, lost⟩ => .thenRead ?_
  refine .branch (fun unknown => ?_) fun _ => .done reached
  refine thenNow fun time => .thenUpdate ?_
  have hits := ticking.swept actor reached lost.1 (by simpa using unknown)
  have swept := reached.tail (@Change.launchDied _ _ _ time lost hits)
  refine .branch (fun _ => ?_) fun _ => .done swept
  exact thenPersist fun _ => .done (swept.tail (.opening .saved))

theorem pollLaunch_moves (ground : Ground isUuid scope.begun origin)
    (ticking : Ticking isUuid scope origin answers) :
    Ensures answers (Reached isUuid scope origin) (pollLaunch isUuid)
      (fun _ => Reached isUuid scope origin) (Reached isUuid scope origin) := by
  refine .known fun actor reached => .thenRead ?_
  cases next : actor.launching.results with
  | nil =>
    refine .branch (fun dead => ?_) fun _ => .done reached
    exact .tail (failPendingPrepares_moves ticking) ⟨reached, by simpa using dead, next⟩
  | cons completed rest =>
    refine .thenUpdate (.tail (acceptPrepared_moves fun asked error failed =>
      (ticking.unwritten actor reached asked error failed).1 completed (by simp [next])) ⟨?_, ?_, ?_⟩)
    · exact reached.tail (.launchTaken next)
    · exact launched_expects (ticking.timely actor reached) next
    · obtain ⟨owns, prepared⟩ := (ground.reached reached).launched completed (by simp [next])
      refine ⟨prepared, fun error slot _ found => ?_⟩
      simpa [SlotPurpose.isTerminal_iff] using owns.kind slot found

/-! ## Events of the run worker -/

/-- A change of the slot that leaves open whether it waits. -/
theorem Expects.modified {session : String} {change : Slot → Slot}
    (expects : Expects scope session actor)
    (kept : ∀ slot, (change slot).preparing = slot.preparing) :
    Expects scope session (modifySlot session change actor) := by
  refine expects.imp_right fun ⟨quiet, waits⟩ => ⟨quiet, fun slot found => ?_⟩
  rw [modifySlot_get, if_pos rfl] at found
  obtain ⟨before, there, rfl⟩ := Option.map_eq_some_iff.mp found
  exact (kept before).trans (waits before there)

/-- The run is the one that was begun for the session. -/
def Names (isUuid : IsUuid) (scope : Scope) (session : String) (run : RunInfo) (actor : Actor) :
    Prop :=
  scope.begun session = some run.runId ∧ ReportedRun isUuid run ∧ actor.Owns [.run] session

theorem Names.isRun {session : String} {run : RunInfo} {slot : Slot}
    (names : Names isUuid scope session run actor) (found : actor.slots[session]? = some slot) :
    slot.purpose.isRun = true := by
  simpa [SlotPurpose.isRun_iff] using names.2.2.kind slot found

theorem acceptResult_moves {session : String} {runtime : Runtime} (event : RunEvent)
    (prepared : runtime.Prepared)
    (unwritten : ∀ asked error, (answers asked).input = .error error → scope.unwritten session) :
    Ensures answers (fun actor => Reached isUuid scope origin actor ∧ Expects scope session actor)
      (do
        let actor ← Procedure.current
        if let some slot := actor.slots[session]? then
          if let .error _ := event.result then
            Procedure.update (storeCancel slot.cancel)
        acceptPrepared isUuid ⟨session, .ok runtime⟩ : Act Unit)
      (fun _ => Reached isUuid scope origin) (Reached isUuid scope origin) := by
  have fits : ∀ actor, Completed.Fits ⟨session, .ok runtime⟩ actor := fun actor =>
    ⟨fun other same => Except.ok.inj same ▸ prepared, fun _ _ impossible => by cases impossible⟩
  refine .known fun actor ⟨reached, expects⟩ => .thenRead ?_
  cases actor.slots[session]? with
  | none => exact .tail (acceptPrepared_moves unwritten) ⟨reached, expects, fits actor⟩
  | some slot =>
    dsimp only
    cases event.result with
    | ok result => exact .tail (acceptPrepared_moves unwritten) ⟨reached, expects, fits actor⟩
    | error error =>
      refine .thenUpdate (.tail (acceptPrepared_moves unwritten) ⟨?_, expects, fits _⟩)
      exact reached.tail (.cells (List.subset_cons_self _ _))

theorem acceptStarted_moves {session : String} {runtime : Runtime} {event : RunEvent}
    (prepared : runtime.Prepared)
    (unwritten : ∀ asked error, (answers asked).input = .error error → scope.unwritten session) :
    Ensures answers
      (fun actor => Reached isUuid scope origin actor ∧ Expects scope session actor ∧
        ∀ run, event.run = some run → Names isUuid scope session run actor)
      (acceptStarted isUuid session runtime event) (fun _ => Reached isUuid scope origin)
      (Reached isUuid scope origin) := by
  refine .known fun actor ⟨reached, expects, named⟩ => ?_
  unfold acceptStarted
  cases shown : event.run with
  | none => exact .tail (acceptResult_moves event prepared unwritten) ⟨reached, expects⟩
  | some run =>
    refine .thenUpdate (.tail (acceptResult_moves event prepared unwritten) ⟨?_, ?_⟩)
    · have names := named run shown
      exact reached.tail (slots_modified fun slot found =>
        .single (.named names.1 names.2.1 (names.isRun found)))
    · exact expects.modified fun _ => rfl

theorem acceptUnstarted_moves {session : String} {event : RunEvent} :
    Ensures answers
      (fun actor => Reached isUuid scope origin actor ∧ Expects scope session actor ∧
        actor.Owns [.run, .editor] session ∧ ∀ run, event.run = some run →
          existingStart event.result = false → Names isUuid scope session run actor)
      (acceptUnstarted isUuid session event) (fun _ => Reached isUuid scope origin)
      (Reached isUuid scope origin) := by
  have saves : Ensures answers (Reached isUuid scope origin)
      (do let _ ← Procedure.attempt (persist isUuid) : Act Unit)
      (fun _ => Reached isUuid scope origin) (Reached isUuid scope origin) :=
    .known fun actor reached => thenPersist fun _ => .done (reached.tail (.opening .saved))
  refine .known fun actor ⟨reached, expects, owns, named⟩ => .thenRead (thenNow fun time => ?_)
  cases found : actor.slots[session]? with
  | none => exact .tail saves reached
  | some slot =>
    have kind : slot.purpose.isTerminal = false := by
      have kind := owns.kind slot found
      cases purpose : slot.purpose <;> simp_all [SlotPurpose.kind, SlotPurpose.isTerminal]
    dsimp only
    refine .branch (fun _ => .thenUpdate (.tail saves ?_)) fun began =>
      .branch (fun preparing => .thenUpdate (.tail saves ?_)) fun _ => .tail saves reached
    · refine reached.tail (slots_modified fun other there => ?_)
      obtain rfl := Option.some.inj (found.symm.trans there)
      exact .single (.placeholder kind (expects.awaited there))
    · refine reached.tail (slots_modified fun other there => ?_)
      obtain rfl := Option.some.inj (found.symm.trans there)
      refine .single (.unstarted preparing kind (expects.awaited there) fun run shown => ?_)
      have names := named run shown (by simpa using began)
      exact ⟨names.1, names.2.1, names.isRun there⟩

theorem confirmCancel_moves (runId : String) (force : Bool) :
    Ensures answers (Reached isUuid scope origin) (confirmCancel isUuid runId force)
      (fun _ => Reached isUuid scope origin) (Reached isUuid scope origin) := by
  refine .known fun actor reached => .thenRead ?_
  cases actor.sessionOfRun runId with
  | none => exact .done reached
  | some session =>
    have confirmed : Reached isUuid scope origin (modifySlot session Slot.cancelConfirmed actor) :=
      reached.tail (slots_modified fun _ _ => .single .cancelConfirmed)
    refine .thenUpdate (.thenCall (attempt_moves (requestClose_moves session force)) confirmed ?_)
    exact fun _ last moved => thenPersist fun _ => .done (moved.tail (.opening .saved))

/-- A finished job has the result of the event. -/
theorem complete_reviews {id : String} {event : RunEvent} (length : RunResult → Option Nat)
    (cancelled : String → Bool) (reviewed : ∀ review project,
      event.result = .ok (.editorReview review project) → isUuid project = true) :
    actor.Reviews isUuid (actor.runs.complete id event.result length cancelled).jobs := by
  intro other job review project found same
  simp only [RunBridge.complete, modify_get] at found
  split at found
  · obtain ⟨before, there, rfl⟩ := Option.map_eq_some_iff.mp found
    cases result : event.result with
    | error error =>
      simp only [result] at same
      exact .inr ⟨_, before, there, same⟩
    | ok value =>
      simp only [result] at same
      split at same
      · exact .inr ⟨_, before, there, same⟩
      · exact .inl (reviewed review project (result.trans (congrArg _ (Option.some.inj same))))
  · exact .inr ⟨other, job, found, same⟩

/-- What has failed is tried again later. -/
theorem retryFinish_moves (event : RunEvent) (session : String) :
    Ensures answers (Reached isUuid scope origin) (do
      if let .error error := event.result then
        let time ← now
        updateSlot session (·.retried event.cancel.isSome error time) : Act Unit)
      (fun _ => Reached isUuid scope origin) (Reached isUuid scope origin) := by
  refine .known fun actor reached => ?_
  cases event.result with
  | ok result => exact .done reached
  | error error =>
    exact thenNow fun time => .updated (reached.tail (slots_modified fun _ _ => .single .retried))

theorem acceptFinish_moves {event : RunEvent} (cancel : event.cancel.isSome = true) :
    Ensures answers (Reached isUuid scope origin) (acceptFinish event)
      (fun _ => Reached isUuid scope origin) (Reached isUuid scope origin) := by
  refine .known fun actor reached => ?_
  unfold acceptFinish
  cases event.sessionId with
  | none => exact .done reached
  | some session =>
    refine .branch (fun absent => ?_) fun _ => .tail (retryFinish_moves event session) reached
    simp [Option.isNone_iff_eq_none.mp absent] at cancel

/-- The answer to `Finish`, taken from the channel. -/
theorem finishHeard_moves {event : RunEvent} {rest : List RunEvent} {pending : Nat}
    (ground : Ground isUuid scope.begun origin) (reached : Reached isUuid scope origin actor)
    (next : actor.runs.events = event :: rest)
    (finish : event.jobId = none ∧ event.cancel = none) :
    Ensures answers (· = { actor with runs.events := rest, runs.pending := pending })
      (acceptRunEvent isUuid event) (fun _ => Reached isUuid scope origin)
      (Reached isUuid scope origin) := by
  have fits := (ground.reached reached).events event (by simp [next])
  obtain ⟨session, of, owns⟩ := fits.finish finish.1 finish.2
  have noRuntime : event.runtime = none := by
    cases shown : event.runtime with
    | none => rfl
    | some runtime =>
      have asked := fits.asked (by simp [shown])
      simp [finish.1] at asked
  have heard := reached.tail (@Change.finishHeard _ _ _ _ _ _ pending next of finish fun slot found => by
    simpa [SlotPurpose.isRun_iff] using owns.kind slot found)
  have answered : Ensures answers (· = { actor with runs.events := rest, runs.pending := pending })
      (acceptFinish event) (fun _ => Reached isUuid scope origin) (Reached isUuid scope origin) := by
    unfold acceptFinish
    rw [of]
    refine .branch (fun _ => .thenUpdate (.thenUpdate ?_)) fun absent => by simp [finish.2] at absent
    exact .tail (retryFinish_moves event session) heard
  simp only [acceptRunEvent, acceptOutcome, of, noRuntime, finish.1, finish.2]
  exact .thenValue answered

/-- The answer that is taken was the last that its session waited for. -/
theorem answered_expects {event : RunEvent} {rest : List RunEvent} {pending : Nat} {session : String}
    (timely : scope.revives ∨ actor.Timely) (next : actor.runs.events = event :: rest)
    (about : event.answered = some session) :
    Expects scope session { actor with runs.events := rest, runs.pending := pending } := by
  refine timely.imp_right fun ⟨once, waits⟩ => ⟨?_, fun slot found => ?_⟩
  · simp only [outstanding, next, List.filterMap_cons, about] at once ⊢
    rw [← List.append_assoc] at once ⊢
    exact not_mem_rest once
  · exact waits session (by simp [outstanding, next, about]) slot found

theorem acceptOutcome_moves {event : RunEvent}
    (fits : event.Fits isUuid actor scope.begun) (reached : Reached isUuid scope origin actor)
    (expects : ∀ session, event.answered = some session → Expects scope session actor)
    (unwritten : ∀ session, event.sessionId = some session → event.runtime.isSome = true →
      ∀ asked error, (answers asked).input = .error error → scope.unwritten session) :
    Ensures answers (· = actor) (acceptOutcome isUuid event) (fun _ => Reached isUuid scope origin)
      (Reached isUuid scope origin) := by
  unfold acceptOutcome
  cases of : event.sessionId with
  | none => exact .done reached
  | some session =>
    have about (asked : event.jobId.isSome = true) : Expects scope session actor :=
      expects session (by simp [RunEvent.answered, asked, of])
    dsimp only
    cases shown : event.runtime with
    | some runtime =>
      have asked := fits.asked (by simp [shown])
      refine .tail (acceptStarted_moves (fits.prepared runtime shown)
          (unwritten session of (by simp [shown])))
        ⟨reached, about asked, fun run named => ?_⟩
      exact fits.named session run of named (.inl (by simp [shown]))
    | none =>
      refine .branch (fun asked => .tail acceptUnstarted_moves ?_) fun _ => .done reached
      refine ⟨reached, about asked, fits.owner session of, fun run named new => ?_⟩
      exact fits.named session run of named (.inr ⟨asked, new⟩)

/-- What the event ends: a job, or the cancellation of a run. -/
theorem endJob_moves {event : RunEvent}
    (other : event.jobId.isSome = true ∨ event.cancel.isSome = true)
    (reviewed : event.jobId.isSome = true → ∀ review project,
      event.result = .ok (.editorReview review project) → isUuid project = true) :
    Ensures answers (Reached isUuid scope origin) (match event.jobId with
      | none => acceptFinish event
      | some id => do
        let actor ← Procedure.current
        let answers ← Procedure.answer
        updateRuns (RunBridge.complete id event.result answers.resultLength actor.isCancelled)
      : Act Unit) (fun _ => Reached isUuid scope origin) (Reached isUuid scope origin) := by
  cases job : event.jobId with
  | none => exact acceptFinish_moves (other.resolve_left (by simp [job]))
  | some id =>
    refine .known fun actor reached => .thenRead (.thenAsk fun asked => .updated ?_)
    exact reached.tail (.jobs (complete_reviews _ _ (reviewed (by simp [job]))))

theorem pollRun_moves (ground : Ground isUuid scope.begun origin)
    (ticking : Ticking isUuid scope origin answers) :
    Ensures answers (Reached isUuid scope origin) (pollRun isUuid)
      (fun _ => Reached isUuid scope origin) (Reached isUuid scope origin) := by
  refine .known fun actor reached => .thenRead ?_
  cases next : actor.runs.events with
  | nil =>
    refine .branch (fun dead => .updated ?_) fun _ => .done reached
    exact reached.tail (.runsMarked ⟨by simpa using dead, next⟩)
  | cons event rest =>
    refine .thenUpdate ?_
    -- the answer to `Finish` is one change with what the slot makes of it
    by_cases finish : event.jobId = none ∧ event.cancel = none
    · exact finishHeard_moves ground reached next finish
    have other : event.jobId.isSome = true ∨ event.cancel.isSome = true := by
      simpa [Option.isSome_iff_ne_none, ← not_and_or] using finish
    have taken := @Change.eventTaken isUuid scope actor event rest
      (if event.workDone then actor.runs.pending - 1 else actor.runs.pending) next other
    have grounded := ground.reached reached
    have fits := (grounded.events event (by simp [next])).change grounded taken
    have unwritten : ∀ session, event.sessionId = some session → event.runtime.isSome = true →
        ∀ asked error, (answers asked).input = .error error → scope.unwritten session :=
      fun session of shown asked error failed =>
        (ticking.unwritten actor reached asked error failed).2 event (by simp [next]) session of shown
    refine .thenCall (acceptOutcome_moves fits (reached.tail taken) (fun session about => ?_)
      unwritten) rfl fun _ _ moved => ?_
    · exact answered_expects (ticking.timely actor reached) next about
    · have ends := @endJob_moves isUuid scope answers origin event other fits.reviewed
      cases event.cancel with
      | none => exact .tail ends moved
      | some target =>
        refine .branch (fun _ => ?_) fun _ => .tail ends moved
        exact .thenCall (confirmCancel_moves _ _) moved fun _ _ moved => .tail ends moved

theorem markRunsDead_moves :
    Ensures answers (Reached isUuid scope origin) (markRunsDead isUuid)
      (fun _ => Reached isUuid scope origin) (Reached isUuid scope origin) := by
  refine .known fun actor reached => .thenRead (.branch (fun dead => ?_) fun _ => .done reached)
  have dead : actor.runs.dead = true := by
    simp only [Bool.and_eq_true] at dead
    exact dead.1
  refine thenNow fun time => .thenUpdate (thenPersist fun _ => .done ?_)
  exact (reached.tail (.runsDied dead)).tail (.opening .saved)

theorem retryCancels_moves :
    Ensures answers (Reached isUuid scope origin) retryCancels
      (fun _ => Reached isUuid scope origin) (Reached isUuid scope origin) := by
  refine .known fun actor reached => .thenRead (thenNow fun time => ?_)
  refine .tail (.forM (fun entry => ?_) _) reached
  cases entry.2.toRetryCancel actor.runsDead time with
  | none => exact .value fun _ moved => moved
  | some runId =>
    refine (attempt_moves (cancelRun_moves _ _)).bind fun sent => ?_
    cases sent with
    | error error => exact .value fun _ moved => moved
    | ok done => exact .update fun _ moved => moved.tail (slots_modified fun _ _ => .single .cancelAsked)

theorem rounds_moves {op : Act Unit} (moves : Ensures answers (Reached isUuid scope origin) op
    (fun _ => Reached isUuid scope origin) (Reached isUuid scope origin)) (count : Nat) :
    Ensures answers (Reached isUuid scope origin) (rounds op count)
      (fun _ => Reached isUuid scope origin) (Reached isUuid scope origin) := by
  induction count with
  | zero => exact .value fun _ reached => reached
  | succ count inductionHypothesis => exact moves.bind fun _ => inductionHypothesis

end Idk.Host
