import Idk.Run.World
import Idk.Verified.Run.Durability

/-!
# Who holds the source leases

A run's lease is with its ticket, then with its active entry, and is given up only
after a confirmed outcome is durable.  `CustodyChange` is all that an effect does
to this.
-/

namespace Idk

open RunRegistry

/-- Every lease in custody is a run reservation of the gate, and is held once. -/
structure LeaseCustody (owner : String → Option GateLease) (gate : SourceGate) : Prop where
  recorded : ∀ runId lease, owner runId = some lease → gate.Records lease ∧ lease.mutation = false
  once : ∀ runId other lease, owner runId = some lease → owner other = some lease → runId = other

/-- What an effect does to the leases in custody, when `durable` is what is stored
    after it. -/
inductive CustodyChange (owner next : String → Option GateLease) (gate after : SourceGate)
    (durable : List RunLedger) : Prop where
  | same (owners : ∀ id, next id = owner id)
      (recorded : ∀ id lease, owner id = some lease → lease.mutation = false →
        gate.Records lease → after.Records lease)
  | given (runId : String) (owners : ∀ id, next id = if id = runId then none else owner id)
      (dropped : after = (owner runId).elim gate gate.drop) (settled : ConfirmedIn durable runId)
  | taken (runId : String) (lease : Option GateLease) (free : owner runId = none)
      (owners : ∀ id, next id = if id = runId then lease else owner id) (unchanged : after = gate)
      (fresh : ∀ held, lease = some held → gate.Records held ∧ held.mutation = false ∧
        ∀ id, owner id ≠ some held)

/-! ## The gate under custody -/

/-- A drop of another lease leaves a reservation recorded. -/
theorem records_drop_other {gate : SourceGate} {lease other : GateLease}
    (held : gate.Records lease) (recorded : gate.Records other) (apart : other ≠ lease) :
    (gate.drop lease).Records other :=
  (SourceGate.records_drop held other).mpr ⟨recorded, apart⟩

theorem records_ready {gate : SourceGate} {identity : PathBuf} {lease : GateLease}
    (recorded : gate.Records lease) : (gate.ready identity).Records lease := by
  apply (SourceGate.records_congr ?_ ?_).mpr recorded
  · apply SourceGate.modify_field GateState.runs
    intro state
    rfl
  · apply SourceGate.modify_field GateState.mutation
    intro state
    rfl

/-- A recorded run keeps mutations away from its repository. -/
theorem records_refuses {gate : SourceGate} {lease : GateLease} (recorded : gate.Records lease)
    (run : lease.mutation = false) (operation : String) :
    ∃ message, gate.reserveMutation lease.identity operation = .error message := by
  cases attempt : gate.reserveMutation lease.identity operation with
  | error message => exact ⟨message, rfl⟩
  | ok granted =>
    obtain ⟨next, fresh⟩ := granted
    obtain ⟨_, _, _, unused, _⟩ := SourceGate.reserve_eq_ok.mp attempt
    have empty := unused rfl
    have member : lease.operation ∈ (gate lease.identity).runs := by
      simpa [SourceGate.Records, run] using recorded
    have used := Std.TreeMap.isEmpty_eq_false_of_contains member
    rw [empty] at used
    cases used

/-! ## Custody under a change -/

section Change

variable {owner next : String → Option GateLease} {gate after : SourceGate}
  {durable : List RunLedger}

theorem LeaseCustody.fewer (holds : LeaseCustody owner gate)
    (owned : ∀ id lease, next id = some lease → owner id = some lease) :
    LeaseCustody next gate := by
  constructor
  · intro id lease held
    exact holds.recorded id lease (owned id lease held)
  · intro id other lease held again
    exact holds.once id other lease (owned id lease held) (owned other lease again)

theorem LeaseCustody.change (holds : LeaseCustody owner gate)
    (change : CustodyChange owner next gate after durable) : LeaseCustody next after := by
  cases change with
  | same owners recorded =>
    constructor
    · intro id lease held
      rw [owners] at held
      obtain ⟨known, run⟩ := holds.recorded id lease held
      exact ⟨recorded id lease held run known, run⟩
    · intro id other lease held again
      rw [owners] at held again
      exact holds.once id other lease held again
  | given runId owners dropped settled =>
    constructor
    · intro id lease held
      rw [owners] at held
      by_cases here : id = runId
      · simp [here] at held
      · rw [if_neg here] at held
        obtain ⟨known, run⟩ := holds.recorded id lease held
        refine ⟨?_, run⟩
        rw [dropped]
        cases had : owner runId with
        | none => exact known
        | some gone =>
          -- Two ids never share a lease, so the one given up is another.
          apply records_drop_other (holds.recorded runId gone had).1 known
          intro same
          subst same
          exact here (holds.once id runId lease held had)
    · intro id other lease held again
      rw [owners] at held again
      by_cases here : id = runId
      · simp [here] at held
      · by_cases there : other = runId
        · simp [there] at again
        · rw [if_neg here] at held
          rw [if_neg there] at again
          exact holds.once id other lease held again
  | taken runId lease free owners unchanged fresh =>
    constructor
    · intro id held owned
      rw [owners] at owned
      rw [unchanged]
      by_cases here : id = runId
      · rw [if_pos here] at owned
        obtain ⟨known, run, _⟩ := fresh held owned
        exact ⟨known, run⟩
      · rw [if_neg here] at owned
        exact holds.recorded id held owned
    · intro id other held owned again
      rw [owners] at owned again
      by_cases here : id = runId
      · by_cases there : other = runId
        · rw [here, there]
        · rw [if_pos here] at owned
          rw [if_neg there] at again
          exact absurd again ((fresh held owned).2.2 other)
      · rw [if_neg here] at owned
        by_cases there : other = runId
        · rw [if_pos there] at again
          exact absurd owned ((fresh held again).2.2 id)
        · rw [if_neg there] at again
          exact holds.once id other held owned again

/-- A lease leaves custody only when its run's cleanup is durable. -/
theorem CustodyChange.keeps (change : CustodyChange owner next gate after durable)
    {runId : String} {lease : GateLease} (held : owner runId = some lease) :
    next runId = some lease ∨ ConfirmedIn durable runId := by
  cases change with
  | same owners recorded =>
    left
    rw [owners]
    exact held
  | given other owners dropped settled =>
    by_cases here : runId = other
    · right
      rw [here]
      exact settled
    · left
      rw [owners, if_neg here]
      exact held
  | taken other lease free owners unchanged fresh =>
    left
    have apart : runId ≠ other := by
      intro same
      rw [same, free] at held
      cases held
    rw [owners, if_neg apart]
    exact held

end Change

/-! ## The change each effect makes -/

section Effects

variable {tickets : BTreeMap BeginTicket} {registry : RunRegistry}

/-- The change of custody from one registry to another. -/
abbrev CustodyStep (tickets : BTreeMap BeginTicket) (before after : RunRegistry) : Prop :=
  CustodyChange (custody tickets before) (custody tickets after) before.gate after.gate
    after.durable

/-- Custody depends on the active entries only. -/
theorem custody_active {before after : RunRegistry} (same : after.active = before.active)
    (id : String) : custody tickets after id = custody tickets before id := by
  unfold custody
  rw [same]

theorem CustodyChange.idle {before after : RunRegistry} (active : after.active = before.active)
    (gate : after.gate = before.gate) : CustodyStep tickets before after := by
  apply CustodyChange.same (custody_active active)
  intro _ _ _ _ recorded
  rw [gate]
  exact recorded

theorem custody_of_active (draft : Draft tickets registry) {runId : String} {active : Active}
    (owned : registry.active[runId]? = some active) :
    custody tickets registry runId = active.lease := by
  unfold custody
  cases ticket : tickets[runId]? with
  | none => simp [owned]
  | some held =>
    have inactive := (draft.unseen runId held ticket).1
    rw [owned] at inactive
    cases inactive

/-- Custody after one active entry was replaced. -/
theorem custody_activate (draft : Draft tickets registry) {runId : String} {active : Active}
    (owned : registry.active[runId]? = some active) (next : Active) (id : String) :
    custody tickets (activate runId next registry) id =
      if id = runId then next.lease else custody tickets registry id := by
  unfold custody
  cases ticket : tickets[id]? with
  | none =>
    by_cases here : id = runId
    · simp [activate, here]
    · simp [activate, Std.TreeMap.getElem?_insert, here, Ne.symm here]
  | some held =>
    have apart : id ≠ runId := by
      intro same
      have inactive := (draft.unseen id held ticket).1
      rw [same, owned] at inactive
      cases inactive
    simp [apart]

theorem activate_change (draft : Draft tickets registry) {runId : String} {active next : Active}
    (owned : registry.active[runId]? = some active) (same : next.lease = active.lease) :
    CustodyStep tickets registry (activate runId next registry) := by
  apply CustodyChange.same
  · intro id
    rw [custody_activate draft owned]
    by_cases here : id = runId
    · rw [if_pos here, here, custody_of_active draft owned, same]
    · rw [if_neg here]
  · intro _ _ _ _ recorded
    exact recorded

theorem settle_change (draft : Draft tickets registry) {runId : String} {cleanupConfirmed : Bool}
    (durable : cleanupConfirmed = true → ConfirmedIn registry.durable runId) :
    CustodyStep tickets registry (settle runId cleanupConfirmed registry) := by
  unfold settle
  cases owned : registry.active[runId]? with
  | none => exact .idle rfl rfl
  | some active =>
    cases cleanupConfirmed with
    | false => exact activate_change draft owned rfl
    | true =>
      apply CustodyChange.given runId
      · exact custody_activate draft owned _
      · rw [custody_of_active draft owned]
        rfl
      · exact durable rfl

theorem retired_change {formats : Formats} {next : RunRegistry}
    (holds : Durability tickets registry) (step : Retired formats registry next) :
    CustodyStep tickets registry next := by
  cases step with
  | @intro index old entry answers here rotatable room valid =>
    have member : old ∈ registry.runs := List.mem_of_getElem? here
    have untaken : tickets[old.runId]? = none := by
      cases ticket : tickets[old.runId]? with
      | none => rfl
      | some held => exact absurd rfl ((holds.unseen old.runId held ticket).2.1 old member)
    have owner : custody tickets registry old.runId =
        registry.active[old.runId]?.bind (·.lease) := by
      simp [custody, untaken]
    apply CustodyChange.given old.runId
    · intro id
      by_cases gone : id = old.runId
      · simp [custody, gone, untaken, forget, released]
      · simp [custody, gone, forget, released, stored, retire, Std.TreeMap.getElem?_erase,
          Ne.symm gone]
    · rw [owner]
      rfl
    · exact (holds.canRotate_confirmed member rotatable).cons _

/-- What an effect does to the leases in custody. -/
theorem Effect.custody {formats : Formats} {may : May} {before after : RunRegistry}
    (holds : Durability tickets before)
    (step : Effect formats tickets may before after) : CustodyStep tickets before after := by
  cases step with
  | cleaned step => exact .idle step.frame.2.1 step.frame.2.2.1
  | retired step => exact retired_change holds step
  | persisted valid => exact .idle rfl rfl
  | published clear => exact .same (fun _ => rfl) fun _ _ _ _ recorded => records_ready recorded
  | granted reserved =>
    refine CustodyChange.same (custody_active rfl) ?_
    intro _ lease _ _ recorded
    exact (SourceGate.records_reserve reserved lease).mpr (.inr recorded)
  | pended room => exact .idle rfl rfl
  | unpended taken => exact .idle rfl rfl
  | @dropped ticket floating =>
    refine CustodyChange.same (custody_active rfl) ?_
    intro id lease held _ recorded
    cases dropped : ticket.lease with
    | none => exact recorded
    | some gone =>
      -- The ticket's lease is in nobody's custody.
      obtain ⟨known, _, elsewhere⟩ := floating.leased gone dropped
      apply records_drop_other known recorded
      intro same
      rw [same] at held
      exact elsewhere id held
  | @committed ticket run entry _ floating allowed named starting observed leased valid =>
    apply CustodyChange.taken ticket.runId ticket.lease
    · simp [Idk.custody, floating.absent, floating.inactive]
    · intro id
      by_cases here : id = ticket.runId
      · simp [Idk.custody, here, floating.absent, activate, leased.1]
      · simp [Idk.custody, here, activate, stored, appended, Std.TreeMap.getElem?_insert,
          Ne.symm here]
    · rfl
    · exact floating.leased
  | lived found live same still => exact .idle rfl rfl
  | acknowledged inactive allowed found lost valid => exact .idle rfl rfl
  | ended owned same finishing => exact activate_change holds.toDraft owned same.1
  | concluded owned finishing found same stopped open_ => exact .idle rfl rfl
  | settled found agrees durable => exact settle_change holds.toDraft durable
  | pinned found stopped confirmed toggles room valid => exact .idle rfl rfl

end Effects

end Idk
