import Idk.Verified.Run.LeaseCustody

/-!
# What a call does to the world

`perform_took` is the only place where the calls are taken apart: whatever a call
returned, it made a sequence of effects, and took or handed back at most one
ticket.  The invariants of the following modules are derived from it.
-/

namespace Idk

open Idk.Logic (Procedure)
open Idk.Logic.Procedure (Takes ReadOnly)
open Relation (ReflTransGen)
open RunRegistry

/-- What holds of a world between two calls. -/
structure RunWorld.Sound (world : RunWorld) : Prop where
  durability : Durability world.tickets world.registry
  leases : LeaseCustody (custody world.tickets world.registry) world.registry.gate
  tickets : ∀ (runId : String) (ticket : BeginTicket), world.tickets[runId]? = some ticket →
    ticket.runId = runId ∧ ticket.Leased
  mutations : ∀ lease ∈ world.mutations, lease.mutation = true

/-- `may` allows what the call does. -/
def May.Permits (may : May) (world : RunWorld) : RunCall → Prop
  | .beginReserve .. => ∀ registry, may.pend registry
  | .beginCommit runId _ => may.commit (world.registry.withoutPending runId)
  | .acknowledgeUnknownCleanup runId => may.acknowledge runId
  | .finishObserved runId ending => ∀ run, world.registry.find runId = some run →
      ending.cleanupConfirmed = false → may.unconfirm run
  | .pinResult runId false => ∃ calm : RunRegistry → Prop, calm world.registry ∧
      (∀ formats before after, calm before → Retention formats before after → calm after) ∧
      ∀ registry run, calm registry → registry.find runId = some run → run.pinned = true →
        registry.isHistoryFull = false → may.unpin registry
  | _ => True

/-- A commit of the run's start that returns an error. -/
def CommitFails (formats : Formats) (runId : String) (world : RunWorld)
    (invocation : Invocation) : Prop :=
  ∃ ticket sourceStart error, world.tickets[runId]? = some ticket ∧
    invocation.call = .beginCommit runId sourceStart ∧
    (beginCommit formats ticket sourceStart invocation.answers 0 world.registry).result =
      .error error

inductive RunWorld.Took (formats : Formats) (may : May) (world : RunWorld)
    (invocation : Invocation) : RunWorld → Prop where
  | effects {registry : RunRegistry}
      (steps : ReflTransGen (Effect formats world.tickets may) world.registry registry) :
      Took formats may world invocation { world with registry := registry }
  | reserved {plan : TaskLaunchPlan} {operationId : String} {parallel : Bool}
      {before registry : RunRegistry} {ticket : BeginTicket}
      (called : invocation.call = .beginReserve plan operationId parallel)
      (earlier : ReflTransGen (Effect formats world.tickets may) world.registry before)
      (steps : ReflTransGen (Effect formats world.tickets may) world.registry registry)
      (reserving : Reserving before registry ticket)
      (unused : RunWorld.Unused { world with registry := registry } ticket.runId) :
      Took formats may world invocation
        { world with
          registry := registry
          tickets := world.tickets.insert ticket.runId ticket }
  | returned {runId : String} {ticket : BeginTicket} {registry : RunRegistry}
      (held : world.tickets[runId]? = some ticket)
      (steps : ReflTransGen (Effect formats (world.tickets.erase runId) may)
        world.registry registry)
      (outcome : invocation.call = .beginAbandon runId ∨ CommitFails formats runId world invocation ∨
        ∃ entry, registry.active[runId]? = some entry ∧ entry.lease = ticket.lease) :
      Took formats may world invocation
        { world with
          registry := registry
          tickets := world.tickets.erase runId }
  | gated {gate : SourceGate} {mutations : List GateLease}
      (recorded : ∀ lease, lease.mutation = false → world.registry.gate.Records lease →
        gate.Records lease)
      (ready : ∀ identity, (world.registry.gate identity).providerReady = false →
        (gate identity).providerReady = false)
      (mutating : ∀ lease ∈ mutations, lease.mutation = true) :
      Took formats may world invocation { world.regate gate with mutations := mutations }

/-! ## Tickets that come back -/

theorem custody_erase {tickets : BTreeMap BeginTicket} {registry : RunRegistry} {runId id : String}
    (apart : id ≠ runId) :
    custody (tickets.erase runId) registry id = custody tickets registry id := by
  simp [custody, Std.TreeMap.getElem?_erase, Ne.symm apart]

theorem custody_ticket {tickets : BTreeMap BeginTicket} {registry : RunRegistry} {runId : String}
    {ticket : BeginTicket} (held : tickets[runId]? = some ticket) :
    custody tickets registry runId = ticket.lease := by
  simp [custody, held]

section Floating

variable {world : RunWorld} {runId : String} {ticket : BeginTicket}

/-- Handing back a ticket leaves its lease to the operation that takes it. -/
theorem RunWorld.Sound.floating (sound : world.Sound)
    (held : world.tickets[runId]? = some ticket) :
    Floating (world.tickets.erase runId) world.registry ticket := by
  obtain ⟨rfl, _⟩ := sound.tickets runId ticket held
  obtain ⟨inactive, unseen, unrecorded⟩ := sound.durability.unseen ticket.runId ticket held
  refine ⟨by simp, inactive, unseen, unrecorded, ?_⟩
  intro lease leased
  have owner : custody world.tickets world.registry ticket.runId = some lease := by
    rw [custody_ticket held, leased]
  obtain ⟨recorded, run⟩ := sound.leases.recorded ticket.runId lease owner
  refine ⟨recorded, run, ?_⟩
  intro other again
  by_cases same : other = ticket.runId
  · simp [custody, same, inactive] at again
  · rw [custody_erase same] at again
    exact same (sound.leases.once other ticket.runId lease again owner)

theorem Durability.erase {tickets : BTreeMap BeginTicket} {registry : RunRegistry}
    (holds : Durability tickets registry) (runId : String) :
    Durability (tickets.erase runId) registry := by
  refine { holds with unseen := ?_ }
  intro id ticket held
  rw [Std.TreeMap.getElem?_erase] at held
  split at held
  · cases held
  · exact holds.unseen id ticket held

theorem RunWorld.Sound.leases_erase (sound : world.Sound)
    (held : world.tickets[runId]? = some ticket) :
    LeaseCustody (custody (world.tickets.erase runId) world.registry) world.registry.gate := by
  have inactive := (sound.durability.unseen runId ticket held).1
  apply sound.leases.fewer
  intro id lease owner
  by_cases same : id = runId
  · simp [custody, same, inactive] at owner
  · rwa [custody_erase same] at owner

end Floating

/-! ## The calls -/

theorem shellPlan_readOnly (runId : String) : ReadOnly (shellPlan runId) := by
  refine ReadOnly.current.bind fun _ => (ReadOnly.lift _).bind fun _ => ?_
  refine ReadOnly.answer.bind fun _ => (ReadOnly.lift _).bind fun _ => (ReadOnly.lift _).bind fun _ => ?_
  exact (infoOf_readOnly runId).bind fun _ => (ReadOnly.lift _).bind fun _ => ReadOnly.value _

theorem processPlan_readOnly (runId : String) : ReadOnly (processPlan runId) := by
  refine (shellPlan_readOnly runId).bind fun _ => ReadOnly.current.bind fun _ => ?_
  refine (ReadOnly.lift _).bind fun active => ReadOnly.answer.bind fun _ => ?_
  cases active.plan.task.execution with
  | none => exact ReadOnly.value _
  | some execution => cases execution <;> exact ReadOnly.value _

section Perform

variable {formats : Formats} {may : May} {world : RunWorld} {invocation : Invocation}

theorem RunWorld.Took.ran {α : Type} {op : Op α} {pre : RunRegistry → Prop}
    {post : α → RunRegistry → Prop} {answers : Nat → Answers}
    (takes : Takes answers (Effect formats world.tickets may) pre op post)
    (holds : pre world.registry) : world.Took formats may invocation (world.run op answers) :=
  .effects (takes 0 world.registry holds).1

theorem RunWorld.Took.read {α : Type} {op : Op α} (reads : ReadOnly op)
    {answers : Nat → Answers} : world.Took formats may invocation (world.run op answers) := by
  apply RunWorld.Took.effects
  rw [reads answers 0 world.registry]

theorem reserve_took {plan : TaskLaunchPlan} {operationId : String} {parallel : Bool}
    (called : invocation.call = .beginReserve plan operationId parallel)
    (enabled : world.Enabled formats invocation) (pends : ∀ registry, may.pend registry) :
    world.Took formats may invocation (world.perform formats invocation) := by
  obtain ⟨call, answers⟩ := invocation
  cases called
  -- The states on the way are those that effects lead to from the first one.
  have takes : Takes answers (Effect formats world.tickets may) _
      (beginReserve formats plan operationId parallel) _ :=
    beginReserve_takes pends world.registry
      (ReflTransGen (Effect formats world.tickets may) world.registry)
      fun _ _ earlier step => earlier.tail step
  obtain ⟨steps, returned⟩ := takes 0 world.registry ⟨rfl, .refl⟩
  simp only [RunWorld.Enabled] at enabled
  simp only [RunWorld.perform]
  cases result : (beginReserve formats plan operationId parallel answers 0 world.registry).result with
  | error error => exact .effects steps
  | ok reservation =>
    cases reservation with
    | existing reply => exact .effects steps
    | fresh ticket =>
      obtain ⟨before, _, _, _, _, earlier, reserving⟩ := returned _ result ticket rfl
      exact .reserved rfl earlier steps reserving (enabled ticket result)

theorem commit_took (sound : world.Sound) {runId : String} {sourceStart : SourceObservation}
    (called : invocation.call = .beginCommit runId sourceStart)
    (enabled : world.Enabled formats invocation)
    (allowed : may.commit (world.registry.withoutPending runId)) :
    world.Took formats may invocation (world.perform formats invocation) := by
  obtain ⟨call, answers⟩ := invocation
  cases called
  obtain ⟨ticket, held, observed⟩ := enabled
  have named := (sound.tickets runId ticket held).1
  have takes : Takes answers (Effect formats (world.tickets.erase runId) may) _
      (beginCommit formats ticket sourceStart) _ := beginCommit_takes observed
  rw [← named] at allowed
  obtain ⟨steps, returned⟩ := takes 0 world.registry ⟨sound.floating held, allowed⟩
  simp only [RunWorld.perform, held]
  refine .returned held steps (.inr ?_)
  cases result : (beginCommit formats ticket sourceStart answers 0 world.registry).result with
  | error error => exact .inl ⟨ticket, sourceStart, error, held, rfl, result⟩
  | ok reply =>
    rw [← named]
    exact .inr (returned reply result)

theorem abandon_took (sound : world.Sound) {runId : String}
    (called : invocation.call = .beginAbandon runId) (enabled : world.Enabled formats invocation) :
    world.Took formats may invocation (world.perform formats invocation) := by
  obtain ⟨call, answers⟩ := invocation
  cases called
  obtain ⟨ticket, held⟩ := enabled
  have takes : Takes answers (Effect formats (world.tickets.erase runId) may) _
      (beginAbandon ticket) _ := beginAbandon_takes
  simp only [RunWorld.perform, held]
  exact .returned held (takes 0 world.registry (sound.floating held)).1 (.inl rfl)

/-- A change of blocks or towards not ready leaves the reservations alone. -/
theorem RunWorld.Took.modified (sound : world.Sound) {identity : PathBuf}
    {change : GateState → GateState} (runs : ∀ state, (change state).runs = state.runs)
    (mutation : ∀ state, (change state).mutation = state.mutation)
    (ready : ∀ state, state.providerReady = false → (change state).providerReady = false) :
    world.Took formats may invocation
      (world.regate (world.registry.gate.modify identity change)) := by
  refine .gated ?_ ?_ sound.mutations
  · intro lease _ recorded
    exact (SourceGate.records_congr (SourceGate.modify_field _ runs _)
      (SourceGate.modify_field _ mutation _)).mpr recorded
  · intro place withheld
    by_cases here : place = identity
    · rw [here] at withheld ⊢
      rw [SourceGate.modify_same]
      exact ready _ withheld
    · rw [SourceGate.modify_other here]
      exact withheld

theorem records_drop_mutation {gate : SourceGate} {lease other : GateLease}
    (mutating : lease.mutation = true) (run : other.mutation = false)
    (recorded : gate.Records other) : (gate.drop lease).Records other := by
  have same : (gate.drop lease other.identity).runs = (gate other.identity).runs := by
    apply SourceGate.modify_field GateState.runs
    intro state
    simp only [GateState.dropped, mutating]
    split <;> rfl
  simpa [SourceGate.Records, run, same] using recorded

/-- Whatever a call returned, this is what it did. -/
theorem RunWorld.Sound.perform_took (sound : world.Sound) (enabled : world.Enabled formats invocation)
    (permits : may.Permits world invocation.call) :
    world.Took formats may invocation (world.perform formats invocation) := by
  obtain ⟨call, answers⟩ := invocation
  cases call with
  | beginReserve plan operationId parallel => exact reserve_took rfl enabled permits
  | beginCommit runId sourceStart => exact commit_took sound rfl enabled permits
  | beginAbandon runId => exact abandon_took sound rfl enabled
  | publishSource identity => exact .ran (publishSource_takes fun _ => True) trivial
  | publishRegisteredSources => exact .ran publishRegisteredSources_takes trivial
  | shellPlan runId => exact .read (shellPlan_readOnly runId)
  | processPlan runId => exact .read (processPlan_readOnly runId)
  | markRunning runId sessionId => exact .ran markRunning_takes trivial
  | cancel runId timeout => exact .ran cancel_takes trivial
  | acknowledgeUnknownCleanup runId => exact .ran (acknowledge_takes permits) trivial
  | finishProbe runId => exact .ran finishProbe_takes trivial
  | finishObserved runId ending => exact .ran finishObserved_takes permits
  | pinResult runId pinned =>
    cases pinned with
    | true =>
      exact .ran (pinResult_takes (fun _ => True) (fun _ _ _ _ => trivial) nofun) trivial
    | false =>
      obtain ⟨calm, now, kept, calms⟩ := permits
      exact .ran (pinResult_takes calm (kept formats) fun _ => calms) now
  | removeHistory index =>
    exact .ran ((removeHistory_takes world.registry.runs.length).mono fun _ _ => Retention.effect) rfl
  | expireHistory => exact .ran (expireHistory_takes.mono fun _ _ => Retention.effect) trivial
  | cleanupRetired => exact .ran ((cleanupRetired_takes fun _ => True).mono fun _ _ => .cleaned) trivial
  | unavailable identity => exact .modified sound (fun _ => rfl) (fun _ => rfl) fun _ _ => rfl
  | block identity blockId reason =>
    exact .modified sound (fun _ => rfl) (fun _ => rfl) fun _ => id
  | unblock identity blockId => exact .modified sound (fun _ => rfl) (fun _ => rfl) fun _ => id
  | reserveMutation identity operation =>
    simp only [RunWorld.perform]
    cases attempt : world.registry.gate.reserveMutation identity operation with
    | error message => exact .effects .refl
    | ok granted =>
      refine .gated ?_ ?_ ?_
      · intro lease _ recorded
        exact (SourceGate.records_reserve attempt lease).mpr (.inr recorded)
      · intro place withheld
        exact (reserve_ready attempt place).trans withheld
      · intro lease member
        cases member with
        | head => exact (SourceGate.reserve_identity attempt).2.2
        | tail _ member => exact sound.mutations lease member
  | dropMutation lease =>
    refine .gated ?_ ?_ ?_
    · intro other run recorded
      exact records_drop_mutation (sound.mutations lease enabled) run recorded
    · intro place withheld
      exact (drop_ready place).trans withheld
    · intro other member
      exact sound.mutations other (List.mem_of_mem_erase member)

end Perform

end Idk
