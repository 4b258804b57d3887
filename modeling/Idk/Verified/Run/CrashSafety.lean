import Idk.Verified.Run.LeaseRetention

/-!
# Runs across a crash

A run that was recorded and whose confirmed cleanup never reached the disk is, after
the next `open`, an unknown run that nobody can mistake for a finished one, and it
withholds its repository, its task and its outputs until it is acknowledged.

**Main results:**

- `Lost.effect`: nothing but an acknowledgement ends the state of a lost run.
- `Lost.withheld`: what a lost run withholds.
- `crash_restart_safety`: both, over every crash point and every later call.
-/

namespace Idk.Verified

open Idk.Logic (System)
open Idk.Logic.Procedure (Takes ReadOnly)
open Relation (ReflTransGen)
open RunRegistry

/-- A recorded run that no host owns and whose cleanup nobody has confirmed. -/
structure Lost (intent : RunIntent) (registry : RunRegistry) : Prop where
  recorded : ∃ run ∈ registry.runs, run.intent = intent ∧ run.state = .unknown ∧
    run.cleanupConfirmed = false
  inactive : registry.active[intent.runId]? = none

/-- What the registry refuses because of a lost run. -/
structure Withheld (formats : Formats) (intent : RunIntent) (registry : RunRegistry) : Prop where
  recorded : ∃ run ∈ registry.runs, run.intent = intent
  unknown : ∀ run ∈ registry.runs, run.runId = intent.runId →
    run.state = .unknown ∧ run.cleanupConfirmed = false
  source : ∀ identity, intent.sourceStart.identity = some identity →
    (∀ answers asked, ∃ message,
      publishSource identity answers asked registry = ⟨.error message, asked, registry⟩) ∧
    ∀ operation run, ∃ message, registry.gate.reserve identity operation run = .error message
  task : ∀ (plan : TaskLaunchPlan) operationId parallel answers asked ticket,
    plan.projectId = intent.projectId → plan.task.id = intent.taskId →
    (beginReserve formats plan operationId parallel answers asked registry).result ≠
      .ok (.fresh ticket)
  outputs : ∀ plan operationId parallel answers asked ticket,
    (beginReserve formats plan operationId parallel answers asked registry).result =
      .ok (.fresh ticket) → overlaps ticket.outputs intent.buildOutputs = false

/-- The run was acknowledged, and the acknowledgement stored. -/
def Acknowledged (runId : String) (_ : RunWorld) (invocation : Invocation) (next : RunWorld) :
    Prop :=
  invocation.call = .acknowledgeUnknownCleanup runId ∧ ConfirmedIn next.registry.durable runId

/-! ## A lost run stays lost -/

section Effects

variable {formats : Formats} {tickets : BTreeMap BeginTicket} {may : May} {intent : RunIntent}
  {before after : RunRegistry}

theorem Lost.owned_apart (lost : Lost intent before) {runId : String} {active : Active}
    (owned : before.active[runId]? = some active) : runId ≠ intent.runId := by
  intro same
  have inactive := lost.inactive
  rw [← same, owned] at inactive
  cases inactive

/-- The record found under the id of a lost run is the lost one. -/
theorem Lost.found (lost : Lost intent before) (unique : (before.runs.map (·.runId)).Nodup)
    {run : RunInfo} (search : before.find intent.runId = some run) :
    run.state = .unknown ∧ run.cleanupConfirmed = false := by
  obtain ⟨held, member, same, unknown, open_⟩ := lost.recorded
  have named : held.runId = intent.runId := congrArg RunIntent.runId same
  have found := find_eq_some unique member
  rw [named, search] at found
  cases found
  exact ⟨unknown, open_⟩

/-- A revision of another record, and a change of other active entries. -/
theorem Lost.revised (lost : Lost intent before) {runId : String} {change : RunInfo → RunInfo}
    (apart : runId ≠ intent.runId) : Lost intent (revise runId change before) := by
  obtain ⟨run, member, same, unknown⟩ := lost.recorded
  have survives : run ∈ (revise runId change before).runs ∨
      before.find runId = some run ∧ change run ∈ (revise runId change before).runs :=
    mem_updateFirst_of_mem member
  refine ⟨?_, lost.inactive⟩
  cases survives with
  | inl kept => exact ⟨run, kept, same, unknown⟩
  | inr changed =>
    have named := (find_runId changed.1).2
    exact absurd (named.symm.trans (congrArg RunIntent.runId same)) apart

theorem Lost.activated (lost : Lost intent before) {runId : String} {next : Active}
    (apart : runId ≠ intent.runId) : Lost intent (activate runId next before) := by
  refine ⟨lost.recorded, ?_⟩
  simp only [activate, Std.TreeMap.getElem?_insert]
  rw [if_neg (by simpa using apart)]
  exact lost.inactive

theorem Lost.same (lost : Lost intent before) (runs : after.runs = before.runs)
    (active : after.active = before.active) : Lost intent after := by
  constructor
  · rw [runs]
    exact lost.recorded
  · rw [active]
    exact lost.inactive

/-- History gives up confirmed runs only. -/
theorem Lost.retired (lost : Lost intent before) (step : Retired formats before after) :
    Lost intent after := by
  cases step with
  | @intro index old entry answers here rotatable room valid =>
    obtain ⟨run, member, same, unknown, open_⟩ := lost.recorded
    have apart : run ≠ old := by
      intro gone
      rw [← gone] at rotatable
      simp [canRotate, open_] at rotatable
    refine ⟨⟨run, mem_eraseIdx_of_ne here member apart, same, unknown, open_⟩, ?_⟩
    show (before.active.erase old.runId)[intent.runId]? = none
    rw [Std.TreeMap.getElem?_erase, lost.inactive]
    split <;> rfl

theorem Lost.retention (lost : Lost intent before)
    (steps : ReflTransGen (Retention formats) before after) : Lost intent after := by
  induction steps with
  | refl => exact lost
  | tail _ step inductionHypothesis =>
    cases step with
    | inl cleaned => exact inductionHypothesis.same cleaned.frame.1 cleaned.frame.2.1
    | inr retired => exact inductionHypothesis.retired retired

/-- Every effect leaves a lost run lost, but for a stored acknowledgement. -/
theorem Lost.effect (lost : Lost intent before) (holds : Durability tickets before)
    (step : Effect formats tickets may before after) :
    Lost intent after ∨ may.acknowledge intent.runId ∧ ConfirmedIn after.durable intent.runId := by
  cases step with
  | cleaned step => exact .inl (lost.same step.frame.1 step.frame.2.1)
  | retired step => exact .inl (lost.retired step)
  | persisted valid => exact .inl (lost.same rfl rfl)
  | published clear => exact .inl (lost.same rfl rfl)
  | granted reserved => exact .inl (lost.same rfl rfl)
  | pended room => exact .inl (lost.same rfl rfl)
  | unpended taken => exact .inl (lost.same rfl rfl)
  | dropped floating => exact .inl (lost.same rfl rfl)
  | @committed ticket run entry answers floating allowed named starting observed leased valid =>
    left
    obtain ⟨held, member, same, unknown⟩ := lost.recorded
    have apart : ticket.runId ≠ intent.runId := by
      rw [← same]
      exact Ne.symm (floating.unseen held member)
    have stays : Lost intent (stored ((appended run before).ledger answers) (appended run before)) :=
      ⟨⟨held, List.mem_append_left _ member, same, unknown⟩, lost.inactive⟩
    exact stays.activated apart
  | @lived runId run change found live same still =>
    left
    apply lost.revised
    intro here
    rw [here] at found
    rw [(lost.found holds.unique found).1] at live
    cases live
  | @acknowledged runId run answers inactive allowed found lost' valid =>
    by_cases here : runId = intent.runId
    · right
      subst here
      refine ⟨allowed, ?_⟩
      have revised : (revise intent.runId (·.acknowledged) before).find intent.runId =
          some run.acknowledged := find_revise found rfl
      have shown : ∃ entry ∈ (revise intent.runId (·.acknowledged) before).list answers,
          entry.core = run.acknowledged.core := list_find revised
      obtain ⟨entry, listed, same⟩ := shown
      refine ⟨_, List.mem_cons_self, entry, listed, ?_, core_confirmed same⟩
      exact (core_runId same).trans (find_runId found).2
    · exact .inl ((lost.revised here).same rfl rfl)
  | ended owned same finishing => exact .inl (lost.activated (lost.owned_apart owned))
  | concluded owned finishing found same stopped open_ =>
    exact .inl (lost.revised (lost.owned_apart owned))
  | @settled runId cleanupConfirmed run found agrees durable =>
    left
    unfold settle
    cases owned : before.active[runId]? with
    | none => exact lost
    | some active =>
      have apart := lost.owned_apart owned
      cases cleanupConfirmed with
      | false => exact lost.activated apart
      | true => exact (lost.activated apart).same rfl rfl
  | @pinned runId pinned run answers found stopped confirmed toggles room valid =>
    left
    have apart : runId ≠ intent.runId := by
      intro here
      rw [here] at found
      rw [(lost.found holds.unique found).2] at confirmed
      cases confirmed
    exact (lost.revised apart).same rfl rfl

theorem Lost.effects (lost : Lost intent before) (durability : Durability tickets before)
    (leases : LeaseCustody (custody tickets before) before.gate)
    (steps : ReflTransGen (Effect formats tickets may) before after) :
    Lost intent after ∨ may.acknowledge intent.runId ∧ ConfirmedIn after.durable intent.runId := by
  induction steps with
  | refl => exact .inl lost
  | tail earlier step inductionHypothesis =>
    cases inductionHypothesis with
    | inl still => exact still.effect (effects_sound earlier durability leases).1 step
    | inr ended => exact .inr ⟨ended.1, ended.2.later step.durable⟩

end Effects

theorem Lost.took {formats : Formats} {may : May} {intent : RunIntent} {world next : RunWorld}
    {invocation : Invocation} (sound : world.Sound) (lost : Lost intent world.registry)
    (took : world.Took formats may invocation next) :
    Lost intent next.registry ∨
      may.acknowledge intent.runId ∧ ConfirmedIn next.registry.durable intent.runId := by
  cases took with
  | effects steps => exact lost.effects sound.durability sound.leases steps
  | reserved called earlier steps reserving unused =>
    exact lost.effects sound.durability sound.leases steps
  | returned held steps outcome =>
    exact lost.effects (sound.durability.erase _) (sound.leases_erase held) steps
  | gated recorded ready mutating => exact .inl (lost.same rfl rfl)

/-- A lost run stays lost until it is acknowledged. -/
theorem lost_until {formats : Formats} {intent : RunIntent} {first last : RunWorld}
    {trace : List Invocation} (sound : first.Sound) (lost : Lost intent first.registry)
    (run : (callSystem formats).Run first trace last) :
    Lost intent last.registry ∨
      System.Run.Released (Acknowledged intent.runId) (callSystem formats) first trace last := by
  apply run.keeps_until RunWorld.Sound (fun world => Lost intent world.registry)
    (Acknowledged intent.runId) (sound_preserved formats) ?_ sound lost
  intro world invocation next sound lost taken
  obtain ⟨enabled, rfl⟩ := taken
  -- Only the acknowledging call may acknowledge.
  have permits : May.Permits
      { acknowledge := fun runId => invocation.call = .acknowledgeUnknownCleanup runId }
      world invocation.call := by
    cases call : invocation.call with
    | acknowledgeUnknownCleanup runId => exact rfl
    | pinResult runId pinned =>
      cases pinned with
      | true => trivial
      | false => exact ⟨fun _ => True, trivial, fun _ _ _ _ _ => trivial, fun _ _ _ _ _ _ => trivial⟩
    | beginReserve plan operationId parallel => exact fun _ => trivial
    | finishObserved runId ending => exact fun _ _ _ => trivial
    | _ => trivial
  exact lost.took sound (sound.perform_took enabled permits)

/-! ## What a lost run withholds -/

section Withheld

variable {formats : Formats} {intent : RunIntent} {world : RunWorld}

theorem publishSource_refused {registry : RunRegistry} {run : RunInfo} {identity : PathBuf}
    (member : run ∈ registry.runs) (lost : unresolved run = true)
    (observed : run.sourceStart.identity = some identity) (answers : Nat → Answers) (asked : Nat) :
    ∃ message, publishSource identity answers asked registry =
      ⟨.error message, asked, registry⟩ := by
  have found : registry.runs.any (fun run => unresolved run &&
      run.sourceStart.identity == some identity) = true := by
    apply List.any_eq_true.mpr
    exact ⟨run, member, by simp [lost, observed]⟩
  simp only [publishSource, Bind.bind, Logic.Procedure.current, liftM, monadLift,
    MonadLift.monadLift, Logic.Procedure.lift, found, Bool.not_true, ensure_false]
  exact ⟨_, rfl⟩

theorem reserve_refused {gate : SourceGate} {identity : PathBuf}
    (withheld : (gate identity).providerReady = false) (operation : String) (run : Option String) :
    ∃ message, gate.reserve identity operation run = .error message := by
  cases attempt : gate.reserve identity operation run with
  | error message => exact ⟨message, rfl⟩
  | ok granted =>
    have ready := (SourceGate.reserve_eq_ok.mp attempt).1
    rw [withheld] at ready
    cases ready

theorem beginReserve_admitted {registry : RunRegistry} {plan : TaskLaunchPlan}
    {operationId : String} {parallel : Bool} {answers : Nat → Answers} {asked : Nat}
    {ticket : BeginTicket}
    (reserved : (beginReserve formats plan operationId parallel answers asked registry).result =
      .ok (.fresh ticket)) :
    ticket.plan.projectId = plan.projectId ∧ ticket.plan.task.id = plan.task.id ∧
      Admitted registry ticket.plan ticket.outputs := by
  have takes : Takes answers (Effect formats ∅ {}) _
      (beginReserve formats plan operationId parallel) _ :=
    beginReserve_takes (fun _ => trivial) registry (fun _ => True) fun _ _ _ _ => trivial
  obtain ⟨_, _, project, task, admitted, _⟩ :=
    (takes asked registry ⟨rfl, trivial⟩).2 _ reserved ticket rfl
  exact ⟨project, task, admitted⟩

theorem Lost.withheld (lost : Lost intent world.registry) (sound : world.Sound) :
    Withheld formats intent world.registry := by
  obtain ⟨run, member, same, unknown, open_⟩ := lost.recorded
  have unresolved : unresolved run = true := by simp [unresolved, unknown, open_]
  have named : run.runId = intent.runId := congrArg RunIntent.runId same
  refine ⟨⟨run, member, same⟩, ?_, ?_, ?_, ?_⟩
  · intro other among again
    have search := find_eq_some sound.durability.unique among
    rw [again] at search
    exact lost.found sound.durability.unique search
  · intro identity observed
    rw [← same] at observed
    refine ⟨publishSource_refused member unresolved observed, reserve_refused ?_⟩
    apply sound.durability.withheld run member _ unresolved identity observed
    rw [named]
    exact lost.inactive
  · intro plan operationId parallel answers asked ticket project task reserved
    obtain ⟨ticketProject, ticketTask, admitted⟩ := beginReserve_admitted reserved
    apply admitted.resolved run member unresolved
    rw [ticketProject, ticketTask, project, task, ← same]
    exact ⟨rfl, rfl⟩
  · intro plan operationId parallel answers asked ticket reserved
    obtain ⟨_, _, admitted⟩ := beginReserve_admitted reserved
    rw [← same]
    exact admitted.runsApart run member (.inr unresolved)

end Withheld

/-! ## Opening after a crash -/

/-- A run that reached the disk without confirmed cleanup is lost to the next host. -/
theorem loaded_lost {formats : Formats} {disk : List RunLedger} {registry : RunRegistry}
    (loaded : Loaded formats disk registry)
    (recoverable : ∀ part, part <:+ disk → Recoverable part) {ledger : RunLedger}
    (stored : ledger ∈ disk) {old : RunInfo} (recorded : old ∈ ledger.runs)
    (open_ : ¬ ConfirmedIn disk old.runId) : Lost old.intent registry := by
  have whole := recoverable disk (List.suffix_refl disk)
  cases whole.kept ledger stored old recorded with
  | inl confirmed => exact absurd confirmed open_
  | inr held =>
    obtain ⟨head, top, run, among, same⟩ := held
    have listed : run ∈ (onTop disk).runs := by
      rw [onTop, Option.mem_def.mp top]
      exact among
    have unconfirmed : run.cleanupConfirmed = false := by
      apply Bool.eq_false_iff.mpr
      intro confirmed
      apply open_
      refine ⟨head, List.mem_of_mem_head? top, run, among, ?_, confirmed⟩
      exact congrArg RunIntent.runId same
    obtain ⟨next, member, recovery⟩ := loaded.recovered listed
    have resolved := recovery.resolved
      (whole.unfinished head (List.mem_of_mem_head? top) run among)
    have still : next.cleanupConfirmed = false := recovery.confirmed.trans unconfirmed
    constructor
    · exact ⟨next, member, recovery.intent.trans same, resolved.2 still, still⟩
    · rw [loaded.active]
      simp

theorem openDisk_lost {formats : Formats} {disk : List RunLedger} {answers : Nat → Answers}
    (recoverable : ∀ part, part <:+ disk → Recoverable part)
    (opened : (openDisk formats disk answers).result = .ok ()) {ledger : RunLedger}
    (stored : ledger ∈ disk) {old : RunInfo} (recorded : old ∈ ledger.runs)
    (open_ : ¬ ConfirmedIn disk old.runId) :
    Lost old.intent (openDisk formats disk answers).state := by
  cases openDisk_cases formats disk answers with
  | inl failed =>
    obtain ⟨_, failed, _⟩ := failed
    rw [opened] at failed
    cases failed
  | inr opening =>
    obtain ⟨registry, answer, loaded, _, steps⟩ := opening
    have lost : Lost old.intent (RunRegistry.stored (registry.ledger answer) registry) :=
      (loaded_lost loaded recoverable stored recorded open_).same rfl rfl
    -- From the first write on only retention runs, and it keeps lost runs.
    exact lost.retention steps

/-! ## Launch plans -/

/-- The intent of the run in memory is what the ledger on the disk says. -/
def IntentStored (registry : RunRegistry) (runId : String) : Prop :=
  ∃ head ∈ registry.durable.head?, ∃ entry ∈ head.runs, ∃ run ∈ registry.runs,
    run.runId = runId ∧ entry.intent = run.intent

theorem shellPlan_owned {registry : RunRegistry} {runId : String} {answers : Nat → Answers}
    {asked : Nat} {shell : ShellPlan}
    (planned : (shellPlan runId answers asked registry).result = .ok shell) :
    ∃ active, registry.active[runId]? = some active := by
  have takes : Takes answers Eq (fun state => state = registry) (shellPlan runId)
      fun _ _ => ∃ active, registry.active[runId]? = some active := by
    refine Takes.current.bind fun state => (Takes.lift _).bind fun active => ?_
    refine Takes.given (∃ active, registry.active[runId]? = some active) ?_ fun owned =>
      Takes.consequence (ReadOnly.takes ?_) fun _ _ _ => owned
    · intro _ holds
      obtain ⟨found, rfl, rfl⟩ := holds
      exact ⟨active, context_eq_ok.mp found⟩
    · refine ReadOnly.answer.bind fun _ => (ReadOnly.lift _).bind fun _ => ?_
      refine (ReadOnly.lift _).bind fun _ => (infoOf_readOnly runId).bind fun _ => ?_
      exact (ReadOnly.lift _).bind fun _ => ReadOnly.value _
  exact (takes asked registry rfl).2 shell planned

theorem processPlan_shellPlan {registry : RunRegistry} {runId : String} {answers : Nat → Answers}
    {asked : Nat} {launch : Option ProcessLaunch}
    (planned : (processPlan runId answers asked registry).result = .ok launch) :
    ∃ shell, (shellPlan runId answers asked registry).result = .ok shell := by
  simp only [processPlan, Bind.bind] at planned
  cases shelled : shellPlan runId answers asked registry with
  | mk result asked' state =>
    rw [shelled] at planned
    cases result with
    | ok shell => exact ⟨shell, rfl⟩
    | error error => cases planned

/-- Over every crash point and every later call: a run that reached the disk without
    confirmed cleanup is unknown to the next host and withholds its repository, task and
    outputs until it is acknowledged, and a launch plan is handed out for stored intents
    only. -/
theorem crash_restart_safety (formats : Formats) :
    (∀ disk answers, (lifeSystem formats).Reachable (.down disk) →
      (openDisk formats disk answers).result = .ok () →
      ∀ ledger ∈ disk, ∀ old ∈ ledger.runs, ¬ ConfirmedIn disk old.runId →
      Withheld formats old.intent (openDisk formats disk answers).state ∧
      ∀ trace last,
        (callSystem formats).Run (.opened (openDisk formats disk answers).state) trace last →
        Withheld formats old.intent last.registry ∨
        System.Run.Released (Acknowledged old.runId) (callSystem formats)
          (.opened (openDisk formats disk answers).state) trace last) ∧
    ∀ world, (lifeSystem formats).Reachable (.up world) → ∀ runId answers asked,
      (∀ shell, (shellPlan runId answers asked world.registry).result = .ok shell →
        IntentStored world.registry runId) ∧
      ∀ launch, (processPlan runId answers asked world.registry).result = .ok launch →
        IntentStored world.registry runId := by
  constructor
  · intro disk answers reachable opened ledger stored old recorded open_
    have recoverable : ∀ part, part <:+ disk → Recoverable part :=
      (life_sound formats).reachable reachable
    have sound : (RunWorld.opened (openDisk formats disk answers).state).Sound :=
      (life_sound formats).reachable (reachable.step (.opened opened))
    have lost : Lost old.intent (RunWorld.opened (openDisk formats disk answers).state).registry :=
      openDisk_lost recoverable opened stored recorded open_
    refine ⟨lost.withheld sound, ?_⟩
    intro trace last run
    cases lost_until sound lost run with
    | inl still => exact .inl (still.withheld ((sound_preserved formats).run run sound))
    | inr acknowledged => exact .inr acknowledged
  · intro world reachable runId answers asked
    have sound : world.Sound := (life_sound formats).reachable reachable
    have intended (shell : ShellPlan)
        (planned : (shellPlan runId answers asked world.registry).result = .ok shell) :
        IntentStored world.registry runId := by
      obtain ⟨active, owned⟩ := shellPlan_owned planned
      exact sound.durability.intended runId active owned
    refine ⟨intended, ?_⟩
    intro launch planned
    obtain ⟨shell, shelled⟩ := processPlan_shellPlan planned
    exact intended shell shelled

/-! ## A sample crash -/

def sampleObservation : SourceObservation where
  identity := some ["/", "work", ".git"]
  generation := some 0
  gitHead := none
  dirty := none
  statusDigest := none
  error := none

def sampleInvocation (call : RunCall) : Invocation := ⟨call, fun _ => sampleAnswers "run"⟩

def sampleReserved : RunWorld :=
  (sampleOpen []).perform sampleFormats (sampleInvocation sampleReserve)

def sampleCommitted : RunWorld :=
  sampleReserved.perform sampleFormats
    (sampleInvocation (.beginCommit "run" sampleObservation))

/-- The record of the committed start. -/
def sampleRun : RunInfo :=
  newRun (.onDisk .default []) sampleTicket sampleObservation (initialLog sampleTicket) 0

/-- The registry once the start was committed; its gate holds the lease of the run. -/
def sampleRegistry (gate : SourceGate) : RunRegistry where
  gate := gate
  runs := [sampleRun]
  retired := []
  active := (∅ : BTreeMap Active).insert "run"
    { plan := samplePlan "project" "task"
      shell := { (samplePlan "project" "task").shell with
        env := runEnvironment "/runs/run" "run" ∅ }
      lease := sampleTicket.lease
      runUse := true
      finishing := false
      resultSnapshot := none
      eventsSnapshot := none }
  pendingStarts := []
  durable := [⟨2, [sampleRun], []⟩, ⟨2, [], []⟩]

theorem sampleCommitted_registry :
    sampleCommitted.registry = sampleRegistry sampleCommitted.registry.gate := by
  rfl
theorem sampleCommit_enabled : sampleReserved.Enabled sampleFormats
    (sampleInvocation (.beginCommit "run" sampleObservation)) :=
  ⟨sampleTicket, rfl, rfl⟩

/-- The host ends right after a start was committed. -/
theorem sampleCommitted_reachable : (lifeSystem sampleFormats).Reachable
    (.down sampleCommitted.registry.durable) := by
  have reserved : (lifeSystem sampleFormats).Reachable (.up sampleReserved) :=
    sampleOpen_reachable.step (.called sampleReserve_enabled)
  have committed : (lifeSystem sampleFormats).Reachable (.up sampleCommitted) :=
    reserved.step (.called sampleCommit_enabled)
  have idle : sampleCommitted.Enabled sampleFormats (sampleInvocation (.unavailable [])) :=
    trivial
  exact committed.step (.cut idle (List.suffix_refl _) (List.suffix_refl _))

theorem crash_restart_safety_sample :
    ∀ ledger ∈ sampleCommitted.registry.durable, ∀ old ∈ ledger.runs,
      Withheld sampleFormats old.intent
        (openDisk sampleFormats sampleCommitted.registry.durable fun _ => sampleAnswers "run").state := by
  have open_ : ∀ ledger ∈ sampleCommitted.registry.durable, ∀ run ∈ ledger.runs,
      run.cleanupConfirmed = false := by
    rw [sampleCommitted_registry]
    simp [sampleRegistry, sampleRun, newRun]
  have opens : (openDisk sampleFormats sampleCommitted.registry.durable
      fun _ => sampleAnswers "run").result = .ok () := by
    rw [sampleCommitted_registry]
    rfl
  intro ledger stored old recorded
  refine ((crash_restart_safety sampleFormats).1 _ _ sampleCommitted_reachable opens ledger stored
    old recorded ?_).1
  intro confirmed
  obtain ⟨other, member, run, among, _, closed⟩ := confirmed
  rw [open_ other member run among] at closed
  cases closed

example : sampleCommitted.registry.durable.map (·.runs.map (·.runId)) = [["run"], []] := by
  rw [sampleCommitted_registry]
  rfl

end Idk.Verified
