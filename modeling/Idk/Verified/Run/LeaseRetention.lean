import Idk.Verified.Run.Lives

/-!
# A run keeps its source lease

From the reservation of its start on, a run that owns a repository keeps that
repository's lease until its start is given up or its confirmed cleanup is on the
disk, whatever calls come in between and whichever of their writes fail.
-/

namespace Idk.Verified

open Idk.Logic (System)
open Relation (ReflTransGen)
open RunRegistry

/-- What ends a run's claim on its lease: its start is abandoned or fails, or an outcome
    with confirmed cleanup has been stored. -/
inductive GivesUp (formats : Formats) (runId : String) (world : RunWorld)
    (invocation : Invocation) (next : RunWorld) : Prop where
  | abandoned (called : invocation.call = .beginAbandon runId)
  | failed (fails : CommitFails formats runId world invocation)
  | settled (durable : ConfirmedIn next.registry.durable runId)

/-- The lease is held by the run's ticket or active entry. -/
def Holds (runId : String) (lease : GateLease) (world : RunWorld) : Prop :=
  custody world.tickets world.registry runId = some lease

section Step

variable {formats : Formats} {may : May} {runId : String} {lease : GateLease}

theorem effects_keep {tickets : BTreeMap BeginTicket} {before after : RunRegistry}
    (steps : ReflTransGen (Effect formats tickets may) before after)
    (durability : Durability tickets before)
    (leases : LeaseCustody (custody tickets before) before.gate)
    (held : custody tickets before runId = some lease) :
    custody tickets after runId = some lease ∨ ConfirmedIn after.durable runId := by
  induction steps with
  | refl => exact .inl held
  | @tail middle last earlier step inductionHypothesis =>
    cases inductionHypothesis with
    | inl still =>
      have sound := effects_sound earlier durability leases
      exact (step.custody sound.1).keeps still
    | inr confirmed => exact .inr (confirmed.later step.durable)

/-- One call keeps the lease or ends the claim on it. -/
theorem holds_took {world next : RunWorld} {invocation : Invocation} (sound : world.Sound)
    (held : Holds runId lease world) (took : world.Took formats may invocation next) :
    Holds runId lease next ∨ GivesUp formats runId world invocation next := by
  cases took with
  | effects steps =>
    cases effects_keep steps sound.durability sound.leases held with
    | inl still => exact .inl still
    | inr confirmed => exact .inr (.settled confirmed)
  | reserved called earlier steps reserving unused =>
    cases effects_keep steps sound.durability sound.leases held with
    | inr confirmed => exact .inr (.settled confirmed)
    | inl still =>
      left
      unfold Holds
      rw [custody_insert, if_neg]
      · exact still
      · -- A new ticket's id had no lease before.
        intro same
        have free := unused.ticket
        have inactive := unused.active
        rw [← same] at free inactive
        simp [custody, free, inactive] at still
  | @returned id ticket registry taken steps outcome =>
    by_cases same : runId = id
    · subst same
      cases outcome with
      | inl abandoned => exact .inr (.abandoned abandoned)
      | inr committed =>
        cases committed with
        | inl fails => exact .inr (.failed fails)
        | inr entered =>
          obtain ⟨entry, owned, leased⟩ := entered
          left
          have owner : ticket.lease = some lease := (custody_ticket taken).symm.trans held
          simp [Holds, custody, owned, leased, owner]
    · have kept : custody (world.tickets.erase id) world.registry runId = some lease := by
        rw [custody_erase same]
        exact held
      cases effects_keep steps (sound.durability.erase id) (sound.leases_erase taken) kept with
      | inl still => exact .inl still
      | inr confirmed => exact .inr (.settled confirmed)
  | gated recorded ready mutating => exact .inl held

theorem holds_until {first last : RunWorld} {trace : List Invocation} (sound : first.Sound)
    (held : Holds runId lease first) (run : (callSystem formats).Run first trace last) :
    Holds runId lease last ∨
      System.Run.Released (GivesUp formats runId) (callSystem formats) first trace last := by
  apply run.keeps_until RunWorld.Sound (Holds runId lease) (GivesUp formats runId)
    (sound_preserved formats) ?_ sound held
  intro world invocation next sound held taken
  obtain ⟨enabled, rfl⟩ := taken
  exact holds_took sound held (sound.perform_took enabled (May.permits world invocation.call))

/-- A lease in custody keeps Git mutations away. -/
theorem holds_refuses {world : RunWorld} (sound : world.Sound) (held : Holds runId lease world)
    (operation : String) : ∃ message,
      world.registry.gate.reserveMutation lease.identity operation = .error message := by
  obtain ⟨recorded, run⟩ := sound.leases.recorded runId lease held
  exact records_refuses recorded run operation

end Step

/-- The lease of a run that owns a repository is outstanding from the reservation of its
    start until the start is given up or its confirmed cleanup is durable. -/
theorem run_lease_retained {formats : Formats} {before last : RunWorld}
    {plan : TaskLaunchPlan} {operationId : String} {parallel : Bool} {answers : Nat → Answers}
    {ticket : BeginTicket} {identity : PathBuf} {trace : List Invocation}
    (reachable : (lifeSystem formats).Reachable (.up before))
    (enabled : before.Enabled formats ⟨.beginReserve plan operationId parallel, answers⟩)
    (reserved : (beginReserve formats plan operationId parallel answers 0 before.registry).result =
      .ok (.fresh ticket))
    (owns : ticket.probeIdentity = some identity)
    (run : (callSystem formats).Run
      (before.perform formats ⟨.beginReserve plan operationId parallel, answers⟩) trace last) :
    (∃ lease : GateLease, lease.identity = identity ∧ Holds ticket.runId lease last ∧
      last.registry.gate.Records lease ∧
      ∀ operation, ∃ message,
        last.registry.gate.reserveMutation identity operation = .error message) ∨
    System.Run.Released (GivesUp formats ticket.runId) (callSystem formats)
      (before.perform formats ⟨.beginReserve plan operationId parallel, answers⟩) trace last := by
  have sound : before.Sound := (life_sound formats).reachable reachable
  have next := sound_preserved formats sound
    (show (callSystem formats).step before ⟨.beginReserve plan operationId parallel, answers⟩ _
      from ⟨enabled, rfl⟩)
  -- The ticket is out, and its lease is on the repository of its plan.
  have out : (before.perform formats
      ⟨.beginReserve plan operationId parallel, answers⟩).tickets[ticket.runId]? = some ticket := by
    simp [RunWorld.perform, reserved]
  obtain ⟨_, leased⟩ := next.tickets ticket.runId ticket out
  have granted := leased.1
  rw [owns] at granted
  obtain ⟨lease, owned, same⟩ := Option.map_eq_some_iff.mp granted
  have held : Holds ticket.runId lease
      (before.perform formats ⟨.beginReserve plan operationId parallel, answers⟩) := by
    unfold Holds
    rw [custody_ticket out, owned]
  cases holds_until next held run with
  | inr ended => exact .inr ended
  | inl still =>
    have sound := (sound_preserved formats).run run next
    refine .inl ⟨lease, same, still, (sound.leases.recorded _ lease still).1, ?_⟩
    intro operation
    rw [← same]
    exact holds_refuses sound still operation

/-! ## A sample host -/

def sampleFormats : Formats where
  isUuid _ := true
  resultLength _ := 0
  eventsLength _ := 0

def sampleLog (runId : String) : LogDescriptor where
  runId := runId
  generation := 1
  state := .complete
  bytes := 0
  observedBytes := 0
  limitBytes := 0
  mergedPty := true
  fileIdentity := none

def sampleRepository : Repository where
  root := ["/", "work"]
  gitDir := ["/", "work", ".git"]
  commonDir := ["/", "work", ".git"]

def sampleDigest : String := "0000000000000000000000000000000000000000000000000000000000000000"

def samplePlan (projectId taskId : String) : TaskLaunchPlan where
  projectId := projectId
  task :=
    { execution := none, id := taskId, name := "build", command := "make", cwd := ["/", "work"],
      artifact := none, steps := [], failurePolicy := .stop, logging := .disabled,
      interactive := false, buildOutputs := [], artifactFromTask := none, timeoutSeconds := none }
  shell := { shell := ["/", "sh"], startCwd := ["/", "work"], env := ∅, command := none }
  definitionRevision := 1
  launchDigest := sampleDigest
  initializationDigest := sampleDigest
  repository := some sampleRepository
  sourceRoots := []

/-- An environment in which everything succeeds and every new id is `newId`. -/
def sampleAnswers (newId : String) : Answers where
  now := 0
  newId := newId
  write := .ok ()
  read := .ok ()
  load := .ok []
  runUse := .ok ()
  launchPlan projectId taskId _ := .ok ⟨samplePlan projectId taskId, rfl, rfl⟩
  outputIdentity := .ok
  verify _ := .ok ()
  createDirectory _ := .ok ()
  directory runId := "/runs/" ++ runId
  createSteps plan := .ok plan.shell
  openSink := .ok
  sink := sampleLog
  logFile _ := .error "no log file"
  readSteps _ _ := []
  runtimeDirectory _ := .ok none
  removeBody _ _ := .ok ()
  removeLog _ := .ok ()
  removeDirectory _ := .ok ()
  capture _ := .missing
  captureEvents _ _ :=
    { state := .missing, bytesObserved := 0, eventsObserved := 0, invalidEvents := 0,
      sequenceGaps := 0, truncatedTail := false, latest := none, error := none, body := none }
  measurement _ := none
  verifyResult := id
  retainedEvents := id
  prepareStore := .ok ()
  migrate _ := id

/-- The first host on `disk`. -/
def sampleOpen (disk : List RunLedger) : RunWorld :=
  .opened (openDisk sampleFormats disk fun _ => sampleAnswers "run").state

def sampleReserve : RunCall := .beginReserve (samplePlan "project" "task") "operation" false

def sampleTicket : BeginTicket where
  runId := "run"
  plan := samplePlan "project" "task"
  operationId := "operation"
  outputs := []
  lease := some { identity := ["/", "work", ".git"], operation := "operation", mutation := false }

theorem sampleOpen_reachable : (lifeSystem sampleFormats).Reachable (.up (sampleOpen [])) :=
  ⟨.down [], [.opened fun _ => sampleAnswers "run"], .inl rfl, System.Run.single (.opened rfl)⟩

theorem sampleReserve_enabled : (sampleOpen []).Enabled sampleFormats
    ⟨sampleReserve, fun _ => sampleAnswers "run"⟩ := by
  intro ticket reserved
  have known : Except.ok (BeginReservation.fresh sampleTicket) = .ok (.fresh ticket) := reserved
  cases known
  refine ⟨rfl, rfl, ?_, ?_⟩
  · exact fun run member => nomatch (show run ∈ ([] : List RunInfo) from member)
  · intro ledger member run recorded
    cases List.mem_singleton.mp (show ledger ∈ [_] from member)
    exact nomatch (show run ∈ ([] : List RunInfo) from recorded)

/-- The lease taken by the first start is still held after a call for an unknown session. -/
theorem run_lease_retained_sample :
    let reserved := (sampleOpen []).perform sampleFormats
      ⟨sampleReserve, fun _ => sampleAnswers "run"⟩
    let marking : Invocation := ⟨.markRunning "run" "session", fun _ => sampleAnswers "run"⟩
    let last := reserved.perform sampleFormats marking
    (∃ lease : GateLease, lease.identity = ["/", "work", ".git"] ∧ Holds "run" lease last ∧
      last.registry.gate.Records lease ∧
      ∀ operation, ∃ message,
        last.registry.gate.reserveMutation ["/", "work", ".git"] operation = .error message) ∨
    System.Run.Released (GivesUp sampleFormats "run") (callSystem sampleFormats) reserved
      [marking] last :=
  run_lease_retained sampleOpen_reachable sampleReserve_enabled
    (show _ = Except.ok (BeginReservation.fresh sampleTicket) from rfl) rfl
    (System.Run.single ⟨trivial, rfl⟩)

end Idk.Verified
