import Idk.Logic.Tables
import Idk.Verified.Git.Operation
import Idk.Verified.Git.Rules

/-!
# The operations side of the bridge

A `Docket` is what the bridge knows of plans and operations, with the channels of the
executors, the gate and the ledger; repositories, contexts, jobs and caches are not in
it.  `Docket.Step`, `Docket.Accepts` and `Docket.Reconciles` say once what a request or a
part of a tick can do to it, between two points at which the host may be cut off.

**Main results:**

- `ledger_lists`: the ledger that is written holds the records of the operations.
- `execute_keeps_docket` and its siblings: every procedure of the actor is a sequence of
  these steps, so that it keeps whatever they keep.
-/

namespace Idk.Git

open Idk.Logic
open Idk.Logic.Procedure (Ensures)

structure Docket where
  operations : String → Option Operation
  plans : String → Option OperationPlan
  executions : List ExecuteWork
  events : List Event
  executeAlive : Nat
  executionsDead : Bool
  gate : SourceGate
  durable : List GitLedger

def Bridge.docket (bridge : Bridge) : Docket where
  operations id := bridge.operations[id]?
  plans id := bridge.plans[id]?.map (·.value)
  executions := bridge.workers.executions
  events := bridge.workers.events
  executeAlive := bridge.workers.executeAlive
  executionsDead := bridge.executionsDead
  gate := bridge.gate
  durable := bridge.durable

/-- The ledger holds the records of these operations. -/
def GitLedger.Lists (ledger : GitLedger) (operations : String → Option Operation) : Prop :=
  ∀ record, record ∈ ledger.operations ↔
    ∃ id operation, operations id = some operation ∧ Bridge.record operation = record

/-- The operation that an event is about. -/
def Event.operation? : Event → Option String
  | .read _ _ _ => none
  | .terminal id _ | .executed id _ => some id

/-- A new operation for a plan. -/
structure Accepted (id : String) (plan : OperationPlan) (operation : Operation) : Prop where
  new : operation = .new operation.info
  id : operation.info.id = id
  kind : operation.info.kind = plan.preview.kind
  state : operation.info.state = .pending
  acknowledged : operation.info.cleanupAcknowledged = false
  owner : operation.info.owner = none

namespace Docket

def set (docket : Docket) (id : String) (operation : Option Operation) : Docket :=
  { docket with operations := Function.update docket.operations id operation }

def write (docket : Docket) (ledger : GitLedger) : Docket :=
  { docket with durable := ledger :: docket.durable }

/-- A plan is used up. -/
def spend (docket : Docket) (id : String) : Docket :=
  { docket with plans := Function.update docket.plans id none }

inductive Step : Docket → Docket → Prop where
  | forgot {docket : Docket} {plans : String → Option OperationPlan}
      (fewer : ∀ id plan, plans id = some plan → docket.plans id = some plan) :
      Step docket { docket with plans := plans }
  | planned {docket : Docket} {id : String} {service : Option String} {plan : OperationPlan}
      {rest : List Event} (popped : docket.events = .read id service (.ok (.plan plan)) :: rest) :
      Step docket { docket with
        events := rest
        plans := Function.update docket.plans plan.preview.id (some plan) }
  | dropped {docket : Docket} {event : Event} {rest : List Event}
      (popped : docket.events = event :: rest)
      (idle : ∀ id, event.operation? = some id → docket.operations id = none) :
      Step docket { docket with events := rest }
  | steady {docket : Docket} {operations : String → Option Operation}
      (each : ∀ id, Option.Rel Requested (docket.operations id) (operations id)) :
      Step docket { docket with operations := operations }
  | installed {docket : Docket} {id : String} {pid : Host.Pid} {rest : List Event}
      {operation : Operation} {close : Result Unit}
      (popped : docket.events = .terminal id pid :: rest)
      (found : docket.operations id = some operation) :
      Step docket (({ docket with events := rest } : Docket).set id (operation.install pid close))
  | concluded {docket : Docket} {id : String} {reported result : Result OperationResult}
      {rest : List Event} {operation : Operation} {now : Nat}
      (popped : docket.events = .executed id reported :: rest)
      (found : docket.operations id = some operation) :
      Step docket (({ docket with events := rest } : Docket).set id (operation.finish now result))
  | swept {docket : Docket} {now : Nat} (dead : docket.executeAlive = 0) :
      Step docket { docket with
        executionsDead := true
        operations := fun id => (docket.operations id).map (·.abandoned now) }
  | stored {docket : Docket} {ledger : GitLedger} (lists : ledger.Lists docket.operations) :
      Step docket (docket.write ledger)

/-- What executing a plan adds. -/
inductive Accepts : Docket → Docket → Prop where
  /-- The record of a new operation reaches the disk, but the write has failed. -/
  | declined {docket : Docket} {id : String} {operation : Operation} {ledger : GitLedger}
      (unused : docket.operations id = none)
      (lists : ledger.Lists (docket.set id operation).operations) :
      Accepts docket (docket.write ledger)
  | dispatched {docket : Docket} {id service : String} {plan : OperationPlan} {rows cols : Nat}
      {operation : Operation} {ledger : GitLedger} (unused : docket.operations id = none)
      (planned : docket.plans id = some plan) (accepted : Accepted id plan operation)
      (lists : ledger.Lists (docket.set id operation).operations) :
      Accepts docket { ((docket.set id operation).write ledger).spend id with
        executions := docket.executions ++ [⟨id, service, plan, rows, cols⟩] }
  /-- No executor takes the new operation. -/
  | undelivered {docket : Docket} {id : String} {plan : OperationPlan} {operation : Operation}
      {ledger : GitLedger} {now : Nat} {error : String} (unused : docket.operations id = none)
      (planned : docket.plans id = some plan) (accepted : Accepted id plan operation)
      (lists : ledger.Lists (docket.set id operation).operations) :
      Accepts docket (((docket.set id (some (operation.finish now (.error error)))).write ledger).spend
        id)

/-- What reconciling an operation does. -/
inductive Reconciles (id : String) : Docket → Docket → Prop where
  | reconciled {docket : Docket} {operation : Operation} {ledger : GitLedger}
      (found : docket.operations id = some operation) (unknown : operation.info.state = .unknown)
      (past : operation.active = false)
      (lists : ledger.Lists (docket.set id (Git.reconciled operation)).operations) :
      Reconciles id docket { (docket.set id (Git.reconciled operation)).write ledger with
        gate := docket.gate.unblock operation.info.repository.identity id }
  /-- The acknowledgement reaches the disk, but the write has failed. -/
  | unreconciled {docket : Docket} {operation : Operation} {ledger : GitLedger}
      (found : docket.operations id = some operation) (unknown : operation.info.state = .unknown)
      (past : operation.active = false)
      (lists : ledger.Lists (docket.set id (Git.reconciled operation)).operations) :
      Reconciles id docket (docket.write ledger)

/-- What every step keeps. -/
def Closed (inv : Docket → Prop) : Prop :=
  ∀ ⦃before after⦄, inv before → Step before after → inv after

end Docket

/-! ## How changes of the bridge show in the docket -/

theorem ledger_lists (bridge : Bridge) : bridge.ledger.Lists bridge.docket.operations := by
  intro record
  simp only [Bridge.ledger, List.mem_map, Prod.exists, Bridge.docket,
    Std.TreeMap.mem_toList_iff_getElem?_eq_some]

theorem docket_setOperation (bridge : Bridge) (id : String) (operation : Operation) :
    (bridge.setOperation id operation).docket = bridge.docket.set id operation := by
  have operations : (fun other => (bridge.operations.insert id operation)[other]?) =
      Function.update (fun other => bridge.operations[other]?) id (some operation) := by
    funext other
    by_cases same : other = id
    · simp [same]
    · simp [insert_get, same, Ne.symm same]
  simp only [Bridge.docket, Docket.set, Bridge.setOperation, operations]

theorem docket_removeOperation (bridge : Bridge) (id : String) :
    (bridge.removeOperation id).docket = bridge.docket.set id none := by
  have operations : (fun other => (bridge.operations.erase id)[other]?) =
      Function.update (fun other => bridge.operations[other]?) id none := by
    funext other
    by_cases same : other = id
    · simp [same]
    · simp [erase_get, same, Ne.symm same]
  simp only [Bridge.docket, Docket.set, Bridge.removeOperation, operations]

theorem docket_plan (bridge : Bridge) (id : String) (plan : Plan) :
    ({ bridge with plans := bridge.plans.insert id plan } : Bridge).docket =
      { bridge.docket with plans := Function.update bridge.docket.plans id (some plan.value) } := by
  have plans : (fun other => (bridge.plans.insert id plan)[other]?.map (·.value)) =
      Function.update (fun other => bridge.plans[other]?.map (·.value)) id (some plan.value) := by
    funext other
    by_cases same : other = id
    · simp [same]
    · simp [insert_get, same, Ne.symm same]
  simp only [Bridge.docket, plans]

theorem docket_stored (bridge : Bridge) :
    bridge.stored.docket = bridge.docket.write bridge.ledger := rfl

theorem docket_modifyOperation (bridge : Bridge) (id : String) (change : Operation → Operation) :
    (bridge.modifyOperation id change).docket =
      bridge.docket.set id ((bridge.docket.operations id).map change) := by
  have operations : (fun other => (bridge.operations.modify id change)[other]?) =
      Function.update (fun other => bridge.operations[other]?) id
        (bridge.operations[id]?.map change) := by
    funext other
    by_cases same : other = id
    · simp [same]
    · simp [modify_get, same, Ne.symm same]
  simp only [Bridge.docket, Docket.set, Bridge.modifyOperation, operations]

theorem docket_spend (bridge : Bridge) (id : String) :
    ({ bridge with plans := bridge.plans.erase id } : Bridge).docket = bridge.docket.spend id := by
  have plans : (fun other => (bridge.plans.erase id)[other]?.map (·.value)) =
      Function.update (fun other => bridge.plans[other]?.map (·.value)) id none := by
    funext other
    by_cases same : other = id
    · simp [same]
    · simp [erase_get, same, Ne.symm same]
  simp only [Bridge.docket, Docket.spend, plans]

/-- A new operation, changed once its record is durable and its plan used up. -/
theorem docket_spent (bridge : Bridge) (id : String) (key : PathBuf) (busy : Option String)
    (operation : Operation) (change : Operation → Operation) :
    (Bridge.modifyOperation id change (Bridge.setBusy key none (Bridge.setBusy key busy
      { (bridge.setOperation id operation).stored with plans := bridge.plans.erase id }))).docket =
      ((bridge.docket.set id (change operation)).write
        (bridge.setOperation id operation).ledger).spend id := by
  have spent := docket_spend (bridge.setOperation id operation).stored id
  rw [docket_stored, docket_setOperation] at spent
  rw [docket_modifyOperation]
  change Docket.set (Bridge.docket { (bridge.setOperation id operation).stored with
    plans := (bridge.setOperation id operation).stored.plans.erase id }) id _ = _
  rw [spent]
  simp [Docket.set, Docket.write, Docket.spend, Bridge.setBusy, Bridge.stored, Bridge.setOperation,
    Bridge.docket]

section Procedures

variable (formats : GitFormats) {answers : Nat → Answers} {inv : Docket → Prop}
  (closed : Docket.Closed inv)
include closed

/-- Fewer plans, and nothing else. -/
theorem forgets {before after : Bridge} (holds : inv before.docket)
    (same : after.docket = { before.docket with plans := after.docket.plans })
    (fewer : ∀ (id : String) (plan : Plan), after.plans[id]? = some plan →
      before.plans[id]? = some plan) : inv after.docket := by
  rw [same]
  refine closed holds (.forgot fun id plan found => ?_)
  obtain ⟨record, there, rfl⟩ := Option.map_eq_some_iff.mp found
  exact Option.map_eq_some_iff.mpr ⟨record, fewer id record there, rfl⟩

theorem prune_keeps_docket {bridge : Bridge} (holds : inv bridge.docket) (now : Nat) :
    inv (bridge.prune now).docket := by
  refine forgets closed holds rfl fun id plan found => ?_
  simp only [Bridge.prune, Std.TreeMap.getElem?_filter', Option.filter_eq_some_iff] at found
  exact found.1

theorem removeRepo_keeps_docket {bridge : Bridge} (holds : inv bridge.docket) (key : PathBuf) :
    inv (bridge.removeRepo key).docket := by
  refine forgets closed holds rfl fun id plan found => ?_
  simp only [Bridge.removeRepo, Bridge.invalidateRepo, Std.TreeMap.getElem?_filter',
    Option.filter_eq_some_iff] at found
  exact found.1

/-- An invariant of the docket, of the bridge. -/
abbrev OnDocket (inv : Docket → Prop) (bridge : Bridge) : Prop := inv bridge.docket

omit closed in
theorem evictJob_keeps_docket : Keeps answers evictJob (OnDocket inv) :=
  .known fun _ holds => .thenRead (.branch
    (fun _ => .thenCheck holds fun _ _ => .thenUpdate (.done holds)) fun _ => .done holds)

theorem jobCapacity_keeps_docket : Keeps answers jobCapacity (OnDocket inv) := by
  refine .known fun bridge holds => .thenAsk fun asked => .thenUpdate (.thenRead ?_)
  have pruned := prune_keeps_docket closed holds (answers asked).now
  refine .thenCall (Ensures.iterate evictJob_keeps_docket _) pruned fun _ last holds => ?_
  exact .thenRead (.checked holds fun _ _ => holds)

theorem openRepo_keeps_docket (binding : Repository) (env : List (String × String)) :
    Keeps answers (openRepo formats binding env) (OnDocket inv) := by
  have replaced : Keeps answers (replaceRepo binding (formats.environmentDigest env))
      (OnDocket inv) := by
    refine .known fun bridge holds => .thenRead ?_
    split
    · exact .branch (fun _ => .thenCheck holds fun _ _ =>
        .updated (removeRepo_keeps_docket closed holds _)) fun _ => .done holds
    · exact .done holds
  have roomy : Keeps answers repoCapacity (OnDocket inv) :=
    .known fun bridge holds => .thenRead (.branch (fun _ => .thenCheck holds fun _ _ =>
      .updated (removeRepo_keeps_docket closed holds _)) fun _ => .done holds)
  refine .known fun bridge holds => .thenCall replaced holds fun _ last holds => .thenRead ?_
  refine .branch (fun _ => .thenCall roomy holds fun _ last holds => ?_) fun _ => .done holds
  exact .thenAsk fun asked => .updated holds

omit closed in
theorem contextCapacity_keeps_docket : Keeps answers contextCapacity (OnDocket inv) :=
  .known fun _ holds => .thenRead (.branch
    (fun _ => .thenCheck holds fun _ _ => .updated holds) fun _ => .done holds)

theorem targetOf_keeps_docket (client : String) (task : GitTask) :
    Keeps answers (targetOf formats client task) (OnDocket inv) := by
  cases task with
  | openContext project selection env =>
    refine .known fun bridge holds => .thenAsk fun asked => .thenCheck holds ?_
    rintro ⟨binding, primary⟩ _
    refine .thenCall (openRepo_keeps_docket formats closed binding env) holds fun _ opened holds => ?_
    refine .thenCall contextCapacity_keeps_docket holds fun _ last holds => ?_
    exact .thenAsk fun asked => .thenRead (.thenCheck holds fun _ _ => .thenUpdate (.done holds))
  | other id =>
    refine .known fun bridge holds => ?_
    refine .thenCall (contextOf_keeps id client) holds fun record last known => ?_
    exact .thenAsk fun asked => .thenCheck known.1 fun _ _ => .thenUpdate (.done known.1)

theorem submit_keeps_docket (client : String) (task : GitTask) :
    Keeps answers (submit formats client task) (OnDocket inv) := by
  refine .known fun bridge holds => .thenAsk fun asked => .thenCheck holds fun _ _ => ?_
  refine .thenCall (jobCapacity_keeps_docket closed) holds fun _ roomy holds => ?_
  refine .thenCall (targetOf_keeps_docket formats closed client task) holds fun target last holds => ?_
  exact .thenAsk fun asked => .thenUpdate (.thenUpdate (.done holds))

omit closed in
theorem sweepReads_keeps_docket : Keeps answers sweepReads (OnDocket inv) :=
  .known fun _ holds => .thenRead (.branch (fun _ => .updated holds) fun _ => .done holds)

omit closed in
theorem dispatchRead_keeps_docket : Keeps answers dispatchRead (OnDocket inv) := by
  refine .known fun bridge holds => .thenRead (.branch (fun _ => ?_) fun _ => .done holds)
  dsimp only
  split
  · refine .thenUpdate (.thenCheck holds fun _ _ => .thenCheck holds fun _ _ => ?_)
    refine .thenCheck holds fun _ _ => .branch (fun _ => ?_) fun _ => .updated holds
    exact .thenUpdate (.thenUpdate (.thenUpdate (.updated holds)))
  · exact .done holds

/-! ### Read events -/

/-- The event has been taken, but counts as there until it shows. -/
def Docket.Held (event : Event) (inv : Docket → Prop) (docket : Docket) : Prop :=
  inv { docket with events := event :: docket.events }

omit closed in
theorem evictPlan_keeps_docket (bytes : Nat) {held : Docket → Prop}
    (forgetful : ∀ docket plans, held docket →
      (∀ id plan, plans id = some plan → docket.plans id = some plan) →
      held { docket with plans := plans }) :
    Keeps answers (evictPlan bytes) (OnDocket held) := by
  refine .known fun bridge holds => .thenRead (.branch (fun _ => ?_) fun _ => .done holds)
  refine .thenCheck holds fun id _ => .thenUpdate (.done ?_)
  refine forgetful bridge.docket (fun other => (bridge.plans.erase id)[other]?.map (·.value)) holds ?_
  intro other plan found
  obtain ⟨record, there, rfl⟩ := Option.map_eq_some_iff.mp found
  simp only [erase_get] at there
  split at there
  · simp at there
  · simp [Bridge.docket, there]

theorem held_forgets {event : Event} (docket : Docket) (plans : String → Option OperationPlan)
    (holds : docket.Held event inv)
    (fewer : ∀ id plan, plans id = some plan → docket.plans id = some plan) :
    ({ docket with plans := plans } : Docket).Held event inv :=
  closed holds (.forgot fewer)

theorem publish_keeps_docket (job : Job) {id : String} {service : Option String} (payload : Payload) :
    Ensures answers (OnDocket (Docket.Held (.read id service (.ok payload)) inv)) (publish job payload)
      (fun _ => OnDocket fun docket => docket.Held (.read id service (.ok payload)) inv ∨ inv docket)
      (OnDocket (Docket.Held (.read id service (.ok payload)) inv)) := by
  cases payload with
  | openContext =>
    refine .known fun bridge holds => .thenCheck holds fun _ _ => .thenRead ?_
    exact .thenCheck holds fun _ _ => .thenUpdate (.done (.inl holds))
  | display content =>
    exact .known fun bridge holds => .thenCheck holds fun _ _ => .done (.inl holds)
  | plan plan =>
    refine .known fun bridge holds => .thenCheck holds fun _ _ => .thenAsk fun asked => ?_
    refine .thenCheck holds fun bytes _ => .thenRead ?_
    refine .thenCall (Ensures.iterate (evictPlan_keeps_docket bytes (held_forgets closed)) _) holds ?_
    refine fun _ last holds => .thenUpdate (.done (.inr ?_))
    rw [docket_plan]
    exact closed holds (.planned rfl)

theorem publishIn_keeps_docket (valid : Bool) (job : Job) (id : String) (service : Option String)
    (result : Result Payload) :
    Ensures answers (OnDocket (Docket.Held (.read id service result) inv))
      (publishIn valid job result)
      (fun _ => OnDocket fun docket => docket.Held (.read id service result) inv ∨ inv docket)
      (OnDocket fun docket => docket.Held (.read id service result) inv ∨ inv docket) := by
  refine .known fun bridge held => .thenCheck (.inl held) fun _ _ => ?_
  refine .thenCheck (.inl held) fun payload same => ?_
  obtain rfl : result = .ok payload := same
  refine .thenCall ((publish_keeps_docket closed job payload).relax fun _ => .inl) held ?_
  refine fun value last holds => ?_
  exact .thenAsk fun asked => .thenCheck holds fun _ _ => .done holds

omit closed in
theorem settleJob_keeps_docket (id : String) (job : Job) (published : Result GitValue)
    {held : Docket → Prop} : Keeps answers (settleJob id job published) (OnDocket held) := by
  have room : ∀ bytes fuel, Keeps answers (roomFor bytes fuel) (OnDocket held) := by
    intro bytes fuel
    induction fuel with
    | zero => exact .known fun bridge holds => .done holds
    | succ fuel inductionHypothesis =>
      have round : Keeps answers (evictResult bytes) (OnDocket held) := by
        refine .known fun bridge holds => .thenRead (.branch (fun _ => ?_) fun _ => .done holds)
        split
        · exact .thenUpdate (.done holds)
        · exact .done holds
      refine round.bind fun room => ?_
      cases room with
      | none => exact inductionHypothesis
      | some room => exact .known fun bridge holds => .done holds
  refine .known fun bridge holds => .thenAsk fun asked => .thenRead ?_
  refine .thenCall (room _ _) holds fun fits last holds => .branch (fun _ => .updated holds) fun _ => ?_
  exact .thenAsk fun asked => .updated holds

theorem readEvent_keeps_docket (id : String) (service : Option String) (result : Result Payload) :
    Ensures answers (OnDocket (Docket.Held (.read id service result) inv))
      (readEvent id service result) (fun _ => OnDocket inv) (OnDocket inv) := by
  -- What has not shown is dropped at the end.
  have drops : ∀ docket : Docket, docket.Held (.read id service result) inv ∨ inv docket →
      inv docket := by
    intro docket holds
    cases holds with
    | inl held => exact closed held (.dropped rfl nofun)
    | inr holds => exact holds
  refine .known fun bridge held => .thenUpdate (.thenRead ?_)
  split
  · exact .done (drops _ (.inl held))
  · rename_i job _
    refine .thenAsk fun asked => .thenUpdate (.thenUpdate ?_)
    have settled : ∀ published, Ensures answers
        (OnDocket fun docket => docket.Held (.read id service result) inv ∨ inv docket)
        (settleJob id job published) (fun _ => OnDocket inv) (OnDocket inv) := fun published =>
      (settleJob_keeps_docket id job published).consequence (fun _ holds => holds)
        (fun _ last holds => drops last.docket holds) fun last holds => drops last.docket holds
    exact .thenAttempt (publishIn_keeps_docket closed _ job id service result) held
      (fun _ _ holds => .tail (settled _) holds) fun _ _ holds => .tail (settled _) holds

/-! ### Operations -/

theorem stored_keeps_docket {bridge : Bridge} (holds : inv bridge.docket) :
    inv bridge.stored.docket :=
  closed holds (.stored (ledger_lists bridge))

theorem persist_keeps_docket : Keeps answers persist (OnDocket inv) :=
  persist_keeps fun _ holds => stored_keeps_docket closed holds

/-- What a request found, with the invariant. -/
structure Bridge.Handles (inv : Docket → Prop) (id : String) (operation : Operation)
    (bridge : Bridge) : Prop where
  holds : inv bridge.docket
  found : bridge.operations[id]? = some operation

omit closed in
theorem operationOf_handles (id : String) :
    Ensures answers (OnDocket inv) (operationOf id) (Bridge.Handles inv id) (OnDocket inv) :=
  (operationOf_keeps id).consequence (fun _ holds => holds) (fun _ _ known => ⟨known.1, known.2⟩)
    fun _ holds => holds

theorem persist_handles (id : String) (operation : Operation) :
    Keeps answers persist (Bridge.Handles inv id operation) :=
  persist_keeps fun _ handles => ⟨stored_keeps_docket closed handles.holds, handles.found⟩

theorem requested_handles {bridge : Bridge} {id : String} {before after : Operation}
    (handles : bridge.Handles inv id before) (requested : Requested before after) :
    (bridge.setOperation id after).Handles inv id after := by
  refine ⟨?_, by simp [Bridge.setOperation]⟩
  rw [docket_setOperation]
  refine closed handles.holds (.steady fun other => ?_)
  by_cases same : other = id
  · subst same
    simp only [Function.update_self, Bridge.docket, handles.found]
    exact .some requested
  · simp only [Function.update_of_ne same]
    cases bridge.docket.operations other with
    | none => exact .none
    | some operation => exact .some (.refl operation)

omit closed in
/-- `reconcile` shows as one step, or as none. -/
theorem reconcile_keeps_docket {id : String} (repository : Repository)
    (reconciles : ∀ before after, inv before → Docket.Reconciles id before after → inv after) :
    Keeps answers (reconcile id repository) (OnDocket inv) := by
  refine .known fun bridge holds => .thenCall (operationOf_handles id) holds ?_
  refine fun saved last handles => .thenCheck handles.holds fun _ ready => ?_
  refine .thenCheck handles.holds fun _ same => .thenUpdate ?_
  replace ready := ensure_eq_ok.mp ready
  simp only [Bool.and_eq_true, beq_iff_eq, Bool.not_eq_true'] at ready
  obtain ⟨⟨unknown, past⟩, _⟩ := ready
  obtain rfl : saved.info.repository = repository := by simpa using ensure_eq_ok.mp same
  have lists := ledger_lists (last.setOperation id (reconciled saved))
  rw [docket_setOperation] at lists
  have found : last.docket.operations id = some saved := handles.found
  refine .thenAttempt (persist_ends _) rfl (fun _ durable same => ?_) fun _ durable same => ?_
  · subst same
    have step := reconciles _ _ handles.holds (.reconciled found unknown past lists)
    refine .updated ?_
    rw [← docket_setOperation] at step
    exact step
  · -- the operation is put back as it was
    have back : (last.docket.set id (reconciled saved)).set id saved = last.docket := by
      simp only [Docket.set, Function.update_idem, ← found, Function.update_eq_self]
    refine .thenUpdate (.failing ?_)
    change inv (Bridge.docket _)
    cases same with
    | inl same =>
      subst same
      rw [docket_setOperation, docket_setOperation, back]
      exact handles.holds
    | inr same =>
      subst same
      have step := reconciles _ _ handles.holds (.unreconciled found unknown past lists)
      rw [docket_setOperation, docket_stored, docket_setOperation]
      rw [← back] at step
      exact step

theorem cancelOperation_keeps_docket (client id : String) (epoch : Nat) (force : Bool) :
    Keeps answers (cancelOperation client id epoch force) (OnDocket inv) := by
  refine .known fun bridge holds => .thenCall (operationOf_handles id) holds ?_
  refine fun operation last handles => .thenAsk fun asked => .thenUpdate ?_
  have cancelled := requested_handles closed handles
    (cancel_requested operation client epoch force (answers asked).terminal)
  refine .thenCheck cancelled.holds fun _ _ => .thenAttempt (persist_handles closed id _) cancelled
    (fun _ _ handles => .done handles.holds) fun _ _ handles => .updated ?_
  exact (requested_handles closed handles (noted_requested _ _)).holds

theorem operationRequest_keeps_docket (client id : String) (request : OperationRequest)
    (reconciles : ∀ repository, request = .reconcile repository → ∀ before after, inv before →
      Docket.Reconciles id before after → inv after) :
    Keeps answers (operationRequest client id request) (OnDocket inv) := by
  cases request with
  | attach takeover =>
    refine .known fun bridge holds => .thenCall (operationOf_handles id) holds ?_
    refine fun operation last handles => .thenCheck handles.holds fun after attached => .updated ?_
    exact (requested_handles closed handles (attach_requested attached)).holds
  | detach epoch =>
    refine .known fun bridge holds => .thenCall (operationOf_handles id) holds ?_
    refine fun operation last handles => .thenCheck handles.holds fun after detached => .updated ?_
    exact (requested_handles closed handles (detach_requested detached)).holds
  | input epoch bytes =>
    refine .known fun bridge holds => .thenCheck holds fun _ _ => ?_
    refine .thenCall (operationOf_handles id) holds fun operation last handles => ?_
    refine .thenCheck handles.holds fun _ _ => .thenAsk fun asked => ?_
    exact .checked handles.holds fun _ _ => handles.holds
  | resize epoch =>
    refine .known fun bridge holds => .thenCall (operationOf_handles id) holds ?_
    refine fun operation last handles => .thenCheck handles.holds fun target _ => ?_
    cases target with
    | none => exact .done handles.holds
    | some pid => exact .thenAsk fun asked => .checked handles.holds fun _ _ => handles.holds
  | cancel epoch force => exact cancelOperation_keeps_docket closed client id epoch force
  | reconcile repository => exact reconcile_keeps_docket repository (reconciles repository rfl)

/-- An operation changes in one step, is saved, and is noted where the save failed. -/
theorem saved_keeps_docket {bridge : Bridge} {id : String} {operation : Operation} {message : String}
    (handles : bridge.Handles inv id operation) :
    Ensures answers (· = bridge) (do
      match ← Procedure.attempt persist with
      | .ok () => pure ()
      | .error _ => Procedure.update (Bridge.setOperation id (operation.noted message)))
      (fun _ => OnDocket inv) (OnDocket inv) :=
  .thenAttempt (persist_handles closed id _) handles (fun _ _ handles => .done handles.holds)
    fun _ _ handles => .updated (requested_handles closed handles (noted_requested _ _)).holds

omit closed in
theorem set_holds {bridge : Bridge} {id : String} {operation : Operation}
    (holds : inv (bridge.docket.set id operation)) : inv (bridge.setOperation id operation).docket :=
  docket_setOperation bridge id operation ▸ holds

theorem terminalEvent_keeps_docket (id : String) (pid : Host.Pid) :
    Ensures answers (OnDocket (Docket.Held (.terminal id pid) inv)) (terminalEvent id pid)
      (fun _ => OnDocket inv) (OnDocket inv) := by
  refine .known fun bridge held => ?_
  have missing : ∀ last, last = bridge ∧ bridge.operations[id]? = none → OnDocket inv last := by
    rintro last ⟨rfl, unknown⟩
    exact closed held (.dropped rfl fun other same => Option.some.inj same ▸ unknown)
  refine .thenCall ((operationOf_ends id bridge).relax missing) rfl ?_
  rintro operation last ⟨rfl, found⟩
  refine .thenAsk fun asked => .thenUpdate (saved_keeps_docket closed ?_)
  exact ⟨set_holds (closed held (.installed rfl found)), by simp [Bridge.setOperation]⟩

theorem executedEvent_keeps_docket (id : String) (result : Result OperationResult) :
    Ensures answers (OnDocket (Docket.Held (.executed id result) inv)) (executedEvent id result)
      (fun _ => OnDocket inv) (OnDocket inv) := by
  refine .known fun bridge held => .thenRead ?_
  cases found : bridge.operations[id]? with
  | none =>
    exact .done (closed held (.dropped rfl fun other same => Option.some.inj same ▸ found))
  | some operation =>
    refine .thenAsk fun asked => .thenUpdate (.thenUpdate (saved_keeps_docket closed ?_))
    refine ⟨set_holds (closed held (.concluded rfl found)), ?_⟩
    simp [Bridge.setOperation, Bridge.clearBusy]

theorem nextEvent_keeps_docket : Keeps answers nextEvent (OnDocket inv) := by
  refine .known fun bridge holds => .thenRead ?_
  cases taken : bridge.workers.events with
  | nil => exact .done holds
  | cons event rest =>
    refine .thenUpdate ?_
    have held : Docket.Held event inv
        ({ bridge with workers.events := rest } : Bridge).docket := by
      have same : bridge.docket = { bridge.docket with events := event :: rest } := by
        simp only [Bridge.docket, taken]
      rw [OnDocket, same] at holds
      exact holds
    cases event with
    | read id service result => exact .tail (readEvent_keeps_docket closed id service result) held
    | terminal id pid => exact .tail (terminalEvent_keeps_docket closed id pid) held
    | executed id result => exact .tail (executedEvent_keeps_docket closed id result) held

theorem map_holds {bridge : Bridge} (holds : inv bridge.docket)
    {change : String → Operation → Operation}
    (requested : ∀ id operation, Requested operation (change id operation)) :
    inv ({ bridge with operations := bridge.operations.map change } : Bridge).docket := by
  refine closed holds (.steady fun id => ?_)
  simp only [Bridge.docket, Std.TreeMap.getElem?_map]
  cases bridge.operations[id]? with
  | none => exact .none
  | some operation => exact .some (requested id operation)

theorem forgetScreens_keeps_docket : Keeps answers forgetScreens (OnDocket inv) := by
  refine .known fun bridge holds => .thenRead (.updated (map_holds closed holds ?_))
  intro id operation
  split
  · exact forgetScreen_requested operation
  · exact .refl operation

theorem sweepExecutions_keeps_docket : Keeps answers sweepExecutions (OnDocket inv) := by
  refine .known fun bridge holds => .thenRead (.branch (fun dead => ?_) fun _ => .done holds)
  refine .thenAsk fun asked => .thenUpdate (.thenUpdate ?_)
  simp only [Bool.and_eq_true, beq_iff_eq] at dead
  have swept : inv ({ bridge with
      executionsDead := true
      operations := bridge.operations.map fun _ operation =>
        operation.abandoned (answers asked).now } : Bridge).docket := by
    have same : ({ bridge with
        executionsDead := true
        operations := bridge.operations.map fun _ operation =>
          operation.abandoned (answers asked).now } : Bridge).docket =
        { bridge.docket with
          executionsDead := true
          operations := fun id => (bridge.docket.operations id).map
            (·.abandoned (answers asked).now) } := by
      simp only [Bridge.docket, Std.TreeMap.getElem?_map]
    rw [same]
    exact closed holds (.swept dead.2)
  refine .branch (fun _ => ?_) fun _ => .done swept
  exact .thenAttempt (persist_keeps_docket closed) swept (fun _ _ holds => .done holds)
    fun _ _ holds => .done holds

/-! ### Executing a plan -/

/-- The operation that makes room for another one. -/
def Bridge.victim (bridge : Bridge) : Option String :=
  if maxOperations ≤ bridge.operations.size then
    oldest (fun _ operation => evictable operation) (·.finishedAt.getD 0) bridge.operations.toList
  else none

/-- Whatever an execution with these `shells` makes go may go. -/
def Bridge.Spares (inv : Docket → Prop) (shells : Nat) (bridge : Bridge) : Prop :=
  bridge.occupied < 4 ∧ bridge.occupied + shells < maxTerminals →
    ∀ victim docket, bridge.victim = some victim → inv docket →
      docket.operations = bridge.docket.operations → docket.durable = bridge.docket.durable →
      inv (docket.set victim none)

/-- The id of the plan is not that of an operation. -/
structure Bridge.Admits (inv : Docket → Prop) (id : String) (bridge : Bridge) : Prop where
  holds : inv bridge.docket
  unused : bridge.operations[id]? = none

omit closed in
theorem operationCapacity_admits {id : String} {bridge : Bridge} (admits : bridge.Admits inv id)
    (spared : ∀ victim, bridge.victim = some victim → inv (bridge.docket.set victim none)) :
    Ensures answers (· = bridge) operationCapacity (fun _ => Bridge.Admits inv id)
      (OnDocket inv) := by
  refine .thenRead (.branch (fun full => ?_) fun _ => .done admits)
  refine .thenCheck admits.holds fun victim picked => .updated ⟨?_, ?_⟩
  · rw [docket_removeOperation]
    exact spared victim (by simpa [Bridge.victim, full] using picked)
  · simp only [Bridge.removeOperation, erase_get, admits.unused, ite_self]

theorem admission_admits {client id : String} {shells : Nat} {bridge : Bridge}
    (admits : bridge.Admits inv id) (spares : bridge.Spares inv shells) :
    Ensures answers (· = bridge) (admission client id shells)
      (fun admitted last => last.Admits inv id ∧ last.plans[id]? = some admitted.1 ∧
        Accepted id admitted.1.value admitted.2.2) (OnDocket inv) := by
  refine .thenAsk fun asked => .thenUpdate (.thenRead ?_)
  have pruned : (bridge.prune (answers asked).now).Admits inv id :=
    ⟨prune_keeps_docket closed admits.holds _, admits.unused⟩
  refine .thenCheck pruned.holds fun _ roomy => ?_
  replace roomy := ensure_eq_ok.mp roomy
  simp only [Bool.and_eq_true, decide_eq_true_eq] at roomy
  have spared := fun victim picked => spares roomy victim _ picked pruned.holds rfl rfl
  refine .thenCall (operationCapacity_admits pruned spared) rfl ?_
  refine fun _ roomy admits => .thenRead (.thenCheck admits.holds fun plan planned => ?_)
  refine .thenCheck admits.holds fun _ _ => ?_
  have looking : Ensures answers (· = roomy) (contextOf plan.context client)
      (fun _ last => last = roomy) (OnDocket inv) :=
    (contextOf_keeps plan.context client).consequence (fun _ same => same) (fun _ _ known => known.1)
      fun _ same => same ▸ admits.holds
  refine .thenCall looking rfl fun record last same => ?_
  subst same
  refine .thenCheck admits.holds fun _ _ => .thenCheck admits.holds fun repo _ => ?_
  refine .thenCheck admits.holds fun _ _ => .thenCheck admits.holds fun service _ => .done ?_
  exact ⟨admits, context_eq_ok.mp planned, rfl, rfl, rfl, rfl, rfl, rfl⟩

omit closed in
theorem spent_holds {bridge : Bridge} {id : String} {key : PathBuf} {busy : Option String}
    {operation : Operation} {change : Operation → Operation}
    (holds : inv (((bridge.docket.set id (change operation)).write
      (bridge.setOperation id operation).ledger).spend id)) :
    inv (Bridge.docket (Bridge.modifyOperation id change (Bridge.setBusy key none
      (Bridge.setBusy key busy
        { (bridge.setOperation id operation).stored with plans := bridge.plans.erase id })))) :=
  docket_spent bridge id key busy operation change ▸ holds

/-- The durable operation goes to an executor in one step with its record. -/
theorem dispatch_keeps_docket {id service : String} {plan : Plan} {rows cols : Nat}
    {operation : Operation} {bridge : Bridge} (admits : bridge.Admits inv id)
    (accepts : ∀ before after, inv before → Docket.Accepts before after → inv after)
    (planned : bridge.plans[id]? = some plan) (accepted : Accepted id plan.value operation) :
    Ensures answers (· = (bridge.setOperation id operation).stored)
      (dispatch id service plan rows cols) (fun _ => OnDocket inv) (OnDocket inv) := by
  have lists := ledger_lists (bridge.setOperation id operation)
  have known : bridge.docket.plans id = some plan.value := by
    simp [Bridge.docket, planned]
  -- the docket once the plan is used up
  have spent : ({ (bridge.setOperation id operation).stored with
      plans := bridge.plans.erase id } : Bridge).docket =
      ((bridge.docket.set id operation).write (bridge.setOperation id operation).ledger).spend id := by
    rw [← docket_setOperation, ← docket_stored, ← docket_spend]
    rfl
  rw [docket_setOperation] at lists
  refine .thenUpdate (.thenUpdate (.thenRead (.branch (fun _ => .updated ?_) fun _ => ?_)))
  · have step : inv { ((bridge.docket.set id operation).write _).spend id with
        executions := bridge.docket.executions ++ [⟨id, service, plan.value, rows, cols⟩] } :=
      accepts _ _ admits.holds (.dispatched admits.unused known accepted lists)
    rw [← spent] at step
    exact step
  · refine .thenAsk fun asked => .thenUpdate (.thenUpdate ?_)
    refine .thenAttempt (persist_keeps_docket closed) ?_ (fun _ _ holds => .done holds)
      fun _ _ holds => .done holds
    exact spent_holds (accepts _ _ admits.holds (.undelivered admits.unused known accepted lists))

/-- Whatever becomes of it, `execute` keeps what every step keeps. -/
theorem execute_keeps_docket {client id : String} {rows cols shells : Nat} {bridge : Bridge}
    (holds : inv bridge.docket)
    (spares : bridge.operations[id]? = none → bridge.Spares inv shells)
    (accepts : ∀ before after, inv before → Docket.Accepts before after → inv after) :
    Ensures answers (· = bridge) (execute client id rows cols shells) (fun _ => OnDocket inv)
      (OnDocket inv) := by
  refine .thenRead ?_
  cases unused : bridge.operations[id]? with
  | some operation => exact .done holds
  | none =>
    refine .thenAsk fun asked => .thenCheck holds fun _ _ => ?_
    refine .thenCall (admission_admits closed ⟨holds, unused⟩ (spares unused)) rfl ?_
    rintro ⟨plan, service, operation⟩ last ⟨admits, planned, accepted⟩
    refine .thenUpdate (.thenAttempt (persist_ends _) rfl ?_ ?_)
    · rintro _ stored rfl
      refine .thenCall (dispatch_keeps_docket closed admits accepts planned accepted) rfl ?_
      refine fun _ last holds => .thenCall (operationOf_keeps id) holds ?_
      exact fun _ _ known => .done known.1
    · -- the operation is taken back; its record may have reached the disk
      have back : (last.docket.set id operation).set id none = last.docket := by
        have gone : last.docket.operations id = none := admits.unused
        simp only [Docket.set, Function.update_idem, ← gone, Function.update_eq_self]
      rintro _ _ (rfl | rfl)
      · refine .thenUpdate (.failing ?_)
        rw [OnDocket, docket_removeOperation, docket_setOperation, back]
        exact admits.holds
      · have lists := ledger_lists (last.setOperation id operation)
        rw [docket_setOperation] at lists
        have step := accepts _ _ admits.holds (.declined admits.unused lists)
        refine .thenUpdate (.failing ?_)
        rw [OnDocket, docket_removeOperation, docket_stored, docket_setOperation]
        rw [← back] at step
        exact step

end Procedures

end Idk.Git
