import Idk.Verified.Run.CrashSafety
import Mathlib.Data.List.Forall2

/-!
# Memory follows the ledger on disk

A call that changes the registry stores it, and one whose write fails has to leave in
memory what the last written ledger says.

**Main definitions:**

- `RunRegistry.Follows`: the records and the cleanup journal are those of the last written
  ledger, up to what observation replaces and to a finished outcome that is to be saved
  again.
- `Steady`: what a call may do to a registry that follows.

**Main result:** `memory_follows_ledger`.
-/

namespace Idk

open Idk.Logic (Procedure)
open Idk.Logic.Procedure (Takes ReadOnly)
open RunRegistry

/-- What `list` may show of a record: its steps and its log as they are now, or that they
    are unavailable. -/
inductive Observed (run : RunInfo) : RunInfo → Prop where
  | overlaid (steps : List StepResult) (log : LogDescriptor) :
      Observed run { run with steps := steps, log := log }
  | unavailable (error : String) :
      Observed run
        { run with
          log.state := .partialLog
          error := some ("run details unavailable: " ++ error) }

namespace RunRegistry

/-- The outcome of `run` is final in memory and not on disk yet: `finish_observed` wrote it
    over `stored` and is to be called again. -/
def Awaits (registry : RunRegistry) (run stored : RunInfo) : Prop :=
  registry.active[run.runId]?.any (·.finishing) = true ∧ run.state.isLive = false ∧
    run =
      { stored with
        artifact := run.artifact
        structuredResult := run.structuredResult
        events := run.events
        sourceChanged := run.sourceChanged
        sourceEnd := run.sourceEnd
        steps := run.steps
        log := run.log
        error := run.error
        exitCode := run.exitCode
        signal := run.signal
        state := run.state
        finishedAtMs := run.finishedAtMs
        cleanupConfirmed := run.cleanupConfirmed }

/-- The last written ledger has the journal of `registry` and, up to `same`, its records. -/
def Agrees (registry : RunRegistry) (same : RunInfo → RunInfo → Prop) : Prop :=
  ∃ ledger older, registry.durable = ledger :: older ∧ ledger.retired = registry.retired ∧
    List.Forall₂ same registry.runs ledger.runs

def Follows (registry : RunRegistry) : Prop :=
  registry.Agrees fun run stored => Observed run stored ∨ registry.Awaits run stored

end RunRegistry

/-! ## What a write stores -/

theorem observeLog_overlaid {answers : Answers} {registry : RunRegistry} {runId : String}
    {run shown : RunInfo} (seen : registry.observeLog answers runId run = .ok shown) :
    shown = { run with log := shown.log } := by
  unfold observeLog at seen
  split at seen
  · cases seen
    rfl
  · split at seen
    · cases seen
      rfl
    · cases seen
    · split at seen
      · cases seen
        rfl
      · split at seen
        · cases seen
          rfl
        · split at seen <;>
          · cases seen
            rfl

theorem info_observed {answers : Answers} {registry : RunRegistry} {runId : String}
    {shown : RunInfo} (seen : registry.info answers runId = .ok shown) :
    ∃ run, registry.find runId = some run ∧ Observed run shown := by
  obtain ⟨run, found, seen⟩ := bind_eq_ok.mp seen
  refine ⟨run, context_eq_ok.mp found, ?_⟩
  split at seen
  · rw [observeLog_overlaid seen]
    exact .overlaid run.steps _
  · split at seen
    · rw [observeLog_overlaid seen]
      exact .overlaid _ _
    · rw [observeLog_overlaid seen]
      exact .overlaid run.steps _

/-- The ids on disk are those in memory, distinct or not. -/
theorem list_ids (registry : RunRegistry) (answers : Answers) :
    (registry.list answers).map (·.runId) = registry.runs.map (·.runId) := by
  rw [RunRegistry.list, List.map_map]
  apply List.map_congr_left
  intro run _
  simp only [Function.comp]
  split
  · rename_i shown seen
    obtain ⟨found, search, same⟩ := info_core seen
    rw [core_runId same, (find_runId search).2]
  · rfl

theorem list_observed {registry : RunRegistry} (unique : (registry.runs.map (·.runId)).Nodup)
    (answers : Answers) : List.Forall₂ Observed registry.runs (registry.list answers) := by
  rw [RunRegistry.list, List.forall₂_map_right_iff, List.forall₂_same]
  intro run member
  split
  · rename_i shown seen
    obtain ⟨found, search, observed⟩ := info_observed seen
    rw [find_eq_some unique member, Option.some.injEq] at search
    rw [search]
    exact observed
  · exact .unavailable _

/-- After a write, memory is what was written. -/
theorem stored_agrees {formats : Formats} {registry : RunRegistry} {answers : Answers}
    (valid : (registry.ledger answers).validate formats = .ok ()) :
    (stored (registry.ledger answers) registry).Agrees Observed := by
  have unique := (RunLedger.validate_runs valid).1
  rw [show (registry.ledger answers).runs = registry.list answers from rfl, list_ids] at unique
  exact ⟨registry.ledger answers, registry.durable, rfl, rfl, list_observed unique answers⟩

/-! ## Steady steps -/

/-- Records, journal, disk and owned runs stay, or memory has just been written. -/
def Steady (before after : RunRegistry) : Prop :=
  (after.runs = before.runs ∧ after.retired = before.retired ∧ after.durable = before.durable ∧
    after.active = before.active) ∨ after.Agrees Observed

theorem Agrees.follows {registry : RunRegistry} (agrees : registry.Agrees Observed) :
    registry.Follows := by
  obtain ⟨ledger, older, written, journal, records⟩ := agrees
  exact ⟨ledger, older, written, journal, records.imp fun _ _ => .inl⟩

theorem Steady.follows {before after : RunRegistry} (follows : before.Follows)
    (steady : Steady before after) : after.Follows := by
  cases steady with
  | inr agrees => exact Agrees.follows agrees
  | inl same =>
    obtain ⟨runs, retired, durable, active⟩ := same
    unfold Follows Agrees Awaits
    rw [runs, retired, durable, active]
    exact follows

/-- `after` is about what is not stored. -/
def Unstored (after : RunRegistry → RunRegistry) : Prop :=
  ∀ registry, (after registry).runs = registry.runs ∧
    (after registry).retired = registry.retired ∧ (after registry).durable = registry.durable

theorem Unstored.agrees {after : RunRegistry → RunRegistry} (unstored : Unstored after)
    {registry : RunRegistry} (agrees : registry.Agrees Observed) :
    (after registry).Agrees Observed := by
  obtain ⟨runs, retired, durable⟩ := unstored registry
  unfold Agrees
  rw [runs, retired, durable]
  exact agrees

theorem unstored_id : Unstored id := fun _ => ⟨rfl, rfl, rfl⟩

theorem unstored_activate (runId : String) (entry : Active) : Unstored (activate runId entry) :=
  fun _ => ⟨rfl, rfl, rfl⟩

theorem unstored_forget (runId : String) : Unstored (forget runId) := fun _ => ⟨rfl, rfl, rfl⟩

section Calls

variable {formats : Formats} {answers : Nat → Answers}

/-- A change that is undone when it cannot be stored. -/
theorem saving_steady {pre : RunRegistry → Prop} {change undo after : RunRegistry → RunRegistry}
    (undoes : ∀ registry, pre registry → undo (change registry) = registry)
    (unstored : Unstored after) :
    Takes answers Steady pre (saving formats change undo after) (fun _ _ => True) := by
  refine (saving_takes undoes ?_).consequence fun _ _ _ => trivial
  intro registry answers _ valid
  exact .single (.inr (unstored.agrees (stored_agrees valid)))

theorem Retention.steady {before after : RunRegistry} (step : Retention formats before after) :
    Steady before after := by
  cases step with
  | inl cleaned =>
    cases cleaned with
    | intro _ valid => exact .inr (stored_agrees valid)
  | inr retired =>
    cases retired with
    | intro _ _ _ valid => exact .inr ((unstored_forget _).agrees (stored_agrees valid))

theorem beginCommit_steady (ticket : BeginTicket) (sourceStart : SourceObservation) :
    Takes answers Steady (fun _ => True) (beginCommit formats ticket sourceStart)
      (fun _ _ => True) := by
  refine (Takes.update fun _ _ => .inl ⟨rfl, rfl, rfl, rfl⟩).bind fun _ => ?_
  have commits : Takes answers Steady (fun _ => True) (commitStart formats ticket sourceStart)
      (fun _ _ => True) := by
    refine ReadOnly.answer.takes.bind fun _ => ?_
    refine (ReadOnly.lift _).takes.bind fun _ => ?_
    refine (ReadOnly.lift _).takes.bind fun _ => ?_
    refine (ReadOnly.lift _).takes.bind fun _ => ?_
    refine ReadOnly.current.takes.bind fun _ => ?_
    refine (saving_steady ?_ (unstored_activate _ _)).bind fun _ =>
      (Takes.value _).consequence fun _ _ _ => trivial
    intro registry _
    simp [appended]
  refine ((commits.attempt (fun _ => True) fun _ _ _ _ _ => trivial).strengthen
    fun _ _ => trivial).bind fun outcome => ?_
  cases outcome with
  | ok reply => exact (Takes.value reply).consequence fun _ _ _ => trivial
  | error error =>
    exact (Takes.update fun _ _ => .inl ⟨rfl, rfl, rfl, rfl⟩).bind fun _ => .fail

theorem cancel_steady (runId : String) (timeout : Bool) :
    Takes answers Steady (fun _ => True) (cancel formats runId timeout) (fun _ _ => True) := by
  refine ReadOnly.current.takes.bind fun registry => ?_
  refine (ReadOnly.lift _).takes.bind fun _ => ?_
  refine runMut_takes.bind fun previous => ?_
  refine (Takes.lift _).bind fun _ => ?_
  refine (saving_steady ?_ unstored_id).bind fun _ => (infoOf_readOnly runId).takes
  rintro state ⟨_, found, _⟩
  exact revise_revise found (find_runId found).2 rfl

theorem acknowledge_steady (runId : String) :
    Takes answers Steady (fun _ => True) (acknowledgeUnknownCleanup formats runId)
      (fun _ _ => True) := by
  refine ReadOnly.current.takes.bind fun registry => ?_
  refine (ReadOnly.lift _).takes.bind fun _ => ?_
  refine runMut_takes.bind fun previous => ?_
  refine (Takes.lift _).bind fun _ => ?_
  refine (saving_steady ?_ unstored_id).bind fun _ => (infoOf_readOnly runId).takes
  rintro state ⟨_, found, _⟩
  exact revise_revise found (find_runId found).2 rfl

/-- A run that is about to change its pin is found as it is known. -/
theorem admitPin_steady {known : RunInfo} {runId : String} {pinned : Bool}
    (toggles : known.pinned = !pinned) :
    Takes answers Steady
      (fun registry => ∃ run, registry.find runId = some run ∧ known.core = run.core)
      (admitPin formats known pinned)
      (fun _ registry => ∃ run, registry.find runId = some run ∧ known.core = run.core) := by
  cases pinned with
  | true =>
    refine ReadOnly.answer.takes.bind fun _ => ?_
    refine (ReadOnly.lift _).takes.bind fun _ => ?_
    refine (ReadOnly.lift _).takes.bind fun _ => ?_
    refine ReadOnly.current.takes.bind fun registry => ?_
    refine (ReadOnly.lift _).takes.bind fun _ => ?_
    exact (ReadOnly.lift _).takes
  | false =>
    have making : Takes answers (Retention formats) _ (admitPin formats known false) _ :=
      rotateWhile_takes
    have rotated := making.frame
      (fun state => ∃ run, state.find runId = some run ∧ known.core = run.core)
      fun before after holds step => by
        obtain ⟨run, found, same⟩ := holds
        exact ⟨run, step.find_pinned found ((core_pinned same).symm.trans toggles), same⟩
    exact (rotated.mono fun _ _ => Retention.steady).weaken (fun _ holds => ⟨trivial, holds⟩)
      fun _ _ kept => kept.2

theorem pinResult_steady (runId : String) (pinned : Bool) :
    Takes answers Steady (fun _ => True) (pinResult formats runId pinned) (fun _ _ => True) := by
  refine infoOf_takes.bind fun known => ?_
  refine (ReadOnly.lift _).takes.bind fun _ => ?_
  refine Takes.branch (fun _ => (Takes.value _).consequence fun _ _ _ => trivial) fun differs => ?_
  have toggles : known.pinned = !pinned := by
    cases pinned <;> simpa using differs
  refine ((admitPin_steady toggles).strengthen fun _ holds => holds.1).bind fun _ => ?_
  refine runMut_takes.bind fun run => ?_
  refine (saving_steady ?_ unstored_id).bind fun _ => (infoOf_readOnly runId).takes
  rintro state ⟨here, other, again, same⟩
  have agree : run = other := Option.some.inj (here.symm.trans again)
  subst agree
  exact revise_revise here (find_runId here).2 (by rw [core_pinned same]; rfl)

theorem removeHistory_steady (index : Nat) :
    Takes answers Steady (fun _ => True) (removeHistory formats index) (fun _ _ => True) := by
  intro asked state _
  have removed : Takes answers (Retention formats) _ (removeHistory formats index) _ :=
    removeHistory_takes state.runs.length
  exact ⟨((removed.mono fun _ _ => Retention.steady) asked state rfl).1, fun _ _ => trivial⟩

/-! ## The mark that is not undone -/

theorem forall₂_updateFirst {α β : Type} {R : α → β → Prop} {test : α → Bool} {change : α → α}
    {first : α} {list : List α} {others : List β} (before : List.Forall₂ R list others)
    (after : List.Forall₂ R (updateFirst test change list) others)
    (found : list.find? test = some first) : ∃ other, R first other ∧ R (change first) other := by
  induction before with
  | nil => cases found
  | @cons head other rest others related related' inductionHypothesis =>
    by_cases here : test head = true
    · rw [List.find?_cons_of_pos here, Option.some.injEq] at found
      subst found
      rw [updateFirst, if_pos here] at after
      cases after with
      | cons changed _ => exact ⟨other, related, changed⟩
    · rw [List.find?_cons_of_neg here] at found
      rw [updateFirst, if_neg here] at after
      cases after with
      | cons _ unchanged => exact inductionHypothesis unchanged found

theorem Observed.session {run stored : RunInfo} (observed : Observed run stored) :
    stored.sessionId = run.sessionId ∧ stored.state = run.state := by
  cases observed <;> exact ⟨rfl, rfl⟩

theorem marked_live {run : RunInfo} (sessionId : String) (live : run.state.isLive = true) :
    (run.marked sessionId).state.isLive = true := by
  unfold RunInfo.marked
  split
  · rfl
  · exact live

theorem updateFirst_same {α : Type} {test : α → Bool} {change : α → α} {first : α}
    {list : List α} (found : list.find? test = some first) (same : change first = first) :
    updateFirst test change list = list := by
  induction list with
  | nil => rfl
  | cons head rest inductionHypothesis =>
    by_cases here : test head = true
    · rw [List.find?_cons_of_pos here, Option.some.injEq] at found
      subst found
      rw [updateFirst, if_pos here, same]
    · rw [List.find?_cons_of_neg here] at found
      rw [updateFirst, if_neg here, inductionHypothesis found]

theorem revise_same {registry : RunRegistry} {runId : String} {change : RunInfo → RunInfo}
    {run : RunInfo} (found : registry.find runId = some run) (same : change run = run) :
    revise runId change registry = registry := by
  simp only [revise]
  rw [updateFirst_same found same]

/-- A mark that changes the record of a live run shows what the disk does not have. -/
theorem not_follows_marked {registry : RunRegistry} {runId sessionId : String} {run : RunInfo}
    (follows : registry.Follows) (found : registry.find runId = some run)
    (live : run.state.isLive = true) (changes : run.marked sessionId ≠ run) :
    ¬ (revise runId (·.marked sessionId) registry).Follows := by
  rintro ⟨later, older, written, _, after⟩
  obtain ⟨ledger, _, durable, _, before⟩ := follows
  have same : later :: older = ledger :: _ := written.symm.trans durable
  obtain ⟨rfl, rfl⟩ := List.cons.inj same
  obtain ⟨stored, first, second⟩ := forall₂_updateFirst before after found
  have running := marked_live sessionId live
  rcases first with first | ⟨_, ended, _⟩
  · rcases second with second | ⟨_, ended, _⟩
    · obtain ⟨session, state⟩ := first.session
      obtain ⟨session', state'⟩ := second.session
      apply changes
      rw [session] at session'
      rw [state] at state'
      simp only [RunInfo.marked] at session' state' ⊢
      rw [← session', ← state']
    · rw [running] at ended
      cases ended
  · rw [live] at ended
    cases ended

end Calls

/-! ## The calls that store -/

/-- The calls that change the registry and store it, removals from the history included. -/
inductive SavingCall where
  | beginCommit (ticket : BeginTicket) (sourceStart : SourceObservation)
  | markRunning (runId sessionId : String)
  | cancel (runId : String) (timeout : Bool)
  | acknowledgeUnknownCleanup (runId : String)
  | pinResult (runId : String) (pinned : Bool)
  | removeHistory (index : Nat)
  | expireHistory
  | cleanupRetired

variable (formats : Formats)

namespace SavingCall

/-- The call, without what it returns. -/
def perform : SavingCall → Op Unit
  | .beginCommit ticket sourceStart => do
    let _ ← Idk.beginCommit formats ticket sourceStart
  | .markRunning runId sessionId => Idk.markRunning formats runId sessionId
  | .cancel runId timeout => do
    let _ ← Idk.cancel formats runId timeout
  | .acknowledgeUnknownCleanup runId => do
    let _ ← Idk.acknowledgeUnknownCleanup formats runId
  | .pinResult runId pinned => do
    let _ ← Idk.pinResult formats runId pinned
  | .removeHistory index => Idk.removeHistory formats index
  | .expireHistory => Idk.expireHistory formats
  | .cleanupRetired => Idk.cleanupRetired formats

/-- `mark_running` with a valid session for a live run that is not marked so already. -/
def Marks (registry : RunRegistry) : SavingCall → Prop
  | .markRunning runId sessionId => formats.validId sessionId = .ok () ∧
      ∃ run, registry.find runId = some run ∧ run.state.isLive = true ∧
        run.marked sessionId ≠ run
  | _ => False

variable {formats}

theorem perform_steady {answers : Nat → Answers} (call : SavingCall)
    (other : ∀ runId sessionId, call ≠ .markRunning runId sessionId) :
    Takes answers Steady (fun _ => True) (call.perform formats) (fun _ _ => True) := by
  have done {α : Type} (value : α) : Takes answers Steady (fun _ : RunRegistry => True)
      (pure () : Op Unit) (fun _ _ => True) := (Takes.value ()).consequence fun _ _ _ => trivial
  cases call with
  | beginCommit ticket sourceStart => exact (beginCommit_steady ticket sourceStart).bind done
  | markRunning runId sessionId => exact absurd rfl (other runId sessionId)
  | cancel runId timeout => exact (cancel_steady runId timeout).bind done
  | acknowledgeUnknownCleanup runId => exact (acknowledge_steady runId).bind done
  | pinResult runId pinned => exact (pinResult_steady runId pinned).bind done
  | removeHistory index => exact removeHistory_steady index
  | expireHistory => exact expireHistory_takes.mono fun _ _ => Retention.steady
  | cleanupRetired =>
    have cleaned : Takes answers (Cleaned formats) (fun _ => True) (Idk.cleanupRetired formats) _ :=
      cleanupRetired_takes _
    exact (cleaned.mono fun _ _ step => Retention.steady (.inl step)).consequence
      fun _ _ _ => trivial

end SavingCall

variable {formats}

/-- A failed `mark_running` has changed nothing, or has made its mark. -/
theorem markRunning_failed {runId sessionId : String} {answers : Nat → Answers} {asked : Nat}
    {registry : RunRegistry} {error : String}
    (failed : (markRunning formats runId sessionId answers asked registry).result = .error error) :
    (¬ (SavingCall.markRunning runId sessionId).Marks formats registry ∧
      (markRunning formats runId sessionId answers asked registry).state = registry) ∨
    ∃ run, registry.find runId = some run ∧ run.state.isLive = true ∧
      formats.validId sessionId = .ok () ∧
      (markRunning formats runId sessionId answers asked registry).state =
        revise runId (·.marked sessionId) registry := by
  unfold SavingCall.Marks
  simp only [markRunning, runMut, Bind.bind, liftM, monadLift, MonadLift.monadLift, Procedure.lift,
    Procedure.current, Procedure.update] at failed ⊢
  cases valid : formats.validId sessionId with
  | error message => simp
  | ok done =>
    cases found : registry.find runId with
    | none => simp [context, found]
    | some run =>
      cases live : run.state.isLive with
      | false => simp [context, found, live]
      | true =>
        simp only [valid, found, context, live, ensure_true] at failed ⊢
        right
        refine ⟨run, rfl, live, trivial, ?_⟩
        rcases persist_cases formats answers asked (revise runId (·.marked sessionId) registry) with
          ⟨_, unsaved⟩ | ⟨_, _, saved⟩
        · rw [unsaved]
        · rw [saved] at failed
          cases failed

/-- A failed call leaves memory as the last written ledger has it, unless it is a
    `mark_running` that had something to mark. -/
theorem memory_follows_ledger (call : SavingCall) (answers : Nat → Answers) (asked : Nat)
    (registry : RunRegistry) (follows : registry.Follows)
    (failed : ∃ error, (call.perform formats answers asked registry).result = .error error) :
    (call.perform formats answers asked registry).state.Follows ↔
      ¬ call.Marks formats registry := by
  by_cases marking : ∃ runId sessionId, call = .markRunning runId sessionId
  · obtain ⟨runId, sessionId, rfl⟩ := marking
    obtain ⟨error, failed⟩ := failed
    rcases markRunning_failed failed with ⟨unmarked, same⟩ | ⟨run, found, live, valid, same⟩
    · simp only [SavingCall.perform] at same ⊢
      rw [same]
      exact ⟨fun _ => unmarked, fun _ => follows⟩
    · simp only [SavingCall.perform] at same ⊢
      rw [same]
      by_cases changes : run.marked sessionId = run
      · have unmarked : ¬ (SavingCall.markRunning runId sessionId).Marks formats registry := by
          rintro ⟨_, other, again, _, differs⟩
          rw [found, Option.some.injEq] at again
          subst again
          exact differs changes
        rw [revise_same found changes]
        exact ⟨fun _ => unmarked, fun _ => follows⟩
      · exact ⟨fun after => absurd after (not_follows_marked follows found live changes),
          fun unmarked => absurd ⟨valid, run, found, live, changes⟩ unmarked⟩
  · have other : ∀ runId sessionId, call ≠ .markRunning runId sessionId :=
      fun runId sessionId same => marking ⟨runId, sessionId, same⟩
    have unmarked : ¬ call.Marks formats registry := by
      cases call <;> simp_all [SavingCall.Marks]
    have steady : Takes answers Steady (fun _ => True) (call.perform formats) fun _ _ => True :=
      call.perform_steady other
    have kept := steady.keeps Follows (fun _ _ holds step => step.follows holds) asked registry
      trivial follows
    exact ⟨fun _ => unmarked, fun _ => kept⟩

/-! ## A disk that is full -/

open Verified (sampleAnswers sampleCommitted)

/-- The first host with its one run, whose writes fail from now on. -/
def fullDisk (_ : Nat) : Answers :=
  { sampleAnswers "run" with
    write := .error "disk full"
    readSteps := fun _ steps => steps.mapIdx fun index step =>
      { index := index, name := step.name, exitCode := none } }

theorem sampleCommitted_follows : sampleCommitted.registry.Follows := by
  rw [Verified.sampleCommitted_registry]
  exact ⟨_, _, rfl, rfl, .cons (.inl (.overlaid _ _)) .nil⟩

theorem memory_follows_ledger_cancel :
    ((SavingCall.cancel "run" false).perform Verified.sampleFormats fullDisk 0
        sampleCommitted.registry).state.Follows ↔
      ¬ (SavingCall.cancel "run" false).Marks Verified.sampleFormats sampleCommitted.registry :=
  memory_follows_ledger _ fullDisk 0 sampleCommitted.registry sampleCommitted_follows
    ⟨"disk full", by rw [Verified.sampleCommitted_registry]; rfl⟩

/-- On a full disk the first run is marked in memory only. -/
theorem memory_ahead_of_ledger :
    (lifeSystem Verified.sampleFormats).Reachable (.up sampleCommitted) ∧
      sampleCommitted.registry.Follows ∧
      (markRunning Verified.sampleFormats "run" "session" fullDisk 0 sampleCommitted.registry).result =
        .error "disk full" ∧
      ¬ (markRunning Verified.sampleFormats "run" "session" fullDisk 0
        sampleCommitted.registry).state.Follows := by
  have reserved : (lifeSystem Verified.sampleFormats).Reachable (.up Verified.sampleReserved) :=
    Verified.sampleOpen_reachable.step (.called Verified.sampleReserve_enabled)
  have runs : sampleCommitted.registry.runs = [Verified.sampleRun] := by
    rw [Verified.sampleCommitted_registry]
    rfl
  have found : sampleCommitted.registry.find "run" = some Verified.sampleRun := by
    rw [RunRegistry.find, runs]
    rfl
  have failed : (markRunning Verified.sampleFormats "run" "session" fullDisk 0
      sampleCommitted.registry).result = .error "disk full" := by
    rw [Verified.sampleCommitted_registry]
    rfl
  have changes : Verified.sampleRun.marked "session" ≠ Verified.sampleRun := by
    intro same
    have session := congrArg RunInfo.sessionId same
    cases session
  refine ⟨reserved.step (.called Verified.sampleCommit_enabled), sampleCommitted_follows, failed, ?_⟩
  rcases markRunning_failed failed with ⟨unmarked, -⟩ | ⟨run, known, live, -, same⟩
  · exact absurd ⟨rfl, _, found, rfl, changes⟩ unmarked
  · cases found.symm.trans known
    rw [same]
    exact not_follows_marked sampleCommitted_follows found live changes

end Idk
