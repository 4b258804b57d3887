import Idk.Verified.Git.Threads

/-!
# Executors and operations

While no executor dies, each piece of work is in one place, each completion sender has a
receiver that waits for it, and a process that has not been reaped belongs to the executor
that spawned it.  `Aligned` says so; every step keeps it.
-/

namespace Idk.Git

open Idk.Logic
open Idk.Host (Pid ChildAnswer Report)

/-- What the executors share, and the processes. -/
structure Crew where
  executors : Fin 4 → Executor
  plans : String → Nat
  outcomes : String → Option CommandOutcome
  processes : String → ProcessState

def World.crew (world : World) : Crew :=
  ⟨world.executors, world.plans, world.outcomes, world.processes⟩

/-- The work whose runner has been invoked and has not been concluded. -/
def Executor.invoked? : Executor → Option ExecuteWork
  | running work _ | spawned work _ _ | waiting work _ | finished work _ _ => some work
  | _ => none

/-- The process has this id and has not been reaped. -/
def ProcessState.LedBy (pid : Pid) (state : ProcessState) : Prop :=
  state = .running pid ∨ state = .exited pid

def Event.executed? : Event → Option String
  | .executed id _ => some id
  | _ => none

/-- The event carries the completion sender of the operation. -/
def Event.announces (id : String) : Event → Bool
  | .terminal other _ => other == id
  | _ => false

/-- The ids of the pieces of work that have not been reported on. -/
def Crew.inFlight (crew : Crew) (docket : Docket) : List String :=
  docket.executions.map (·.id) ++
    ((List.finRange 4).filterMap (fun executor => (crew.executors executor).work?.map (·.id)) ++
      docket.events.filterMap Event.executed?)

/-- The executor waits for an outcome that has not been sent. -/
structure Crew.Awaits (crew : Crew) (id : String) : Prop where
  unsent : crew.outcomes id = none
  waiting : ∃ executor work lease, crew.executors executor = .waiting work lease ∧ work.id = id

/-- The completion sender of the operation is in the channel or with the operation. -/
def Docket.completes (docket : Docket) (id : String) : Bool :=
  (docket.operations id).any (·.completion) || docket.events.any (·.announces id)

structure Aligned (crew : Crew) (docket : Docket) : Prop where
  alive : docket.executeAlive = 4
  named : ∀ id operation, docket.operations id = some operation → operation.info.id = id
  plans : ∀ id plan, docket.plans id = some plan → plan.preview.id = id
  queued : ∀ work ∈ docket.executions, work.plan.preview.id = work.id
  works : ∀ executor work, (crew.executors executor).work? = some work →
    work.plan.preview.id = work.id
  single : (crew.inFlight docket).Nodup
  active : ∀ id ∈ crew.inFlight docket, ∃ operation, docket.operations id = some operation ∧
    operation.active = true
  fresh : ∀ id, crew.plans id = 0 → crew.processes id = .absent ∧ crew.outcomes id = none
  invoked : ∀ executor work, (crew.executors executor).invoked? = some work →
    crew.plans work.id ≠ 0
  running : ∀ executor work lease, crew.executors executor = .running work lease →
    crew.processes work.id = .absent ∧ crew.outcomes work.id = none
  spawned : ∀ executor work lease pid, crew.executors executor = .spawned work lease pid →
    (crew.processes work.id).LedBy pid ∧ crew.outcomes work.id = none
  announced : ∀ id pid, .terminal id pid ∈ docket.events →
    (crew.processes id).LedBy pid ∧ crew.Awaits id
  completion : ∀ id operation, docket.operations id = some operation →
    operation.completion = true → crew.Awaits id
  terminal : ∀ id operation pid, docket.operations id = some operation →
    operation.terminal = some pid → (crew.processes id).LedBy pid
  once : ∀ id, docket.events.countP (·.announces id) +
    ((docket.operations id).any (·.completion)).toNat ≤ 1
  owed : ∀ executor work lease, crew.executors executor = .waiting work lease →
    crew.outcomes work.id = none → docket.completes work.id = true
  attended : ∀ id pid, (crew.processes id).LedBy pid →
    crew.outcomes id = none ∧ ∃ executor, (crew.executors executor).waitsFor id = true
  exited : ∀ id operation, docket.operations id = some operation →
    operation.exit.isSome = true → ∃ pid, crew.processes id = .exited pid ∨
      crew.processes id = .reaped pid

/-- Nothing about its process that was not known of the operation before. -/
structure Unheard (before : Option Operation) (after : Operation) : Prop where
  completion : after.completion = true → ∃ operation, before = some operation ∧
    operation.completion = true
  terminal : ∀ pid, after.terminal = some pid → ∃ operation, before = some operation ∧
    operation.terminal = some pid
  exit : after.exit.isSome = true → ∃ operation, before = some operation ∧
    operation.exit.isSome = true

theorem Unheard.same {before after : Operation} (completion : after.completion = before.completion)
    (terminal : after.terminal = before.terminal) (exit : after.exit = before.exit) :
    Unheard (some before) after where
  completion known := ⟨before, rfl, completion ▸ known⟩
  terminal _ known := ⟨before, rfl, terminal ▸ known⟩
  exit known := ⟨before, rfl, exit ▸ known⟩

theorem Unheard.new {before : Option Operation} {after : Operation}
    (completion : after.completion = false) (terminal : after.terminal = none)
    (exit : after.exit = none) : Unheard before after where
  completion known := by simp [completion] at known
  terminal _ known := by simp [terminal] at known
  exit known := by simp [exit] at known

/-- The same piece of work with the same process, as far as that was known. -/
structure Unmoved (before after : Operation) : Prop where
  id : after.info.id = before.info.id
  active : after.active = before.active
  completion : after.completion = before.completion
  terminal : after.terminal = before.terminal
  exit : after.exit = before.exit

theorem Event.announces_iff {event : Event} {id : String} :
    event.announces id = true ↔ ∃ pid, event = .terminal id pid := by
  cases event <;> simp [Event.announces]

theorem Crew.working {crew : Crew} {docket : Docket} {executor : Fin 4} {work : ExecuteWork}
    (known : (crew.executors executor).work? = some work) : work.id ∈ crew.inFlight docket := by
  have member : work.id ∈ (List.finRange 4).filterMap
      fun executor => (crew.executors executor).work?.map (·.id) :=
    List.mem_filterMap.mpr ⟨executor, List.mem_finRange executor, by simp [known]⟩
  simp only [Crew.inFlight, List.mem_append]
  exact .inr (.inl member)

theorem Crew.Awaits.working {crew : Crew} {docket : Docket} {id : String} (awaits : crew.Awaits id) :
    id ∈ crew.inFlight docket := by
  obtain ⟨executor, work, lease, waiting, rfl⟩ := awaits.waiting
  have known : (crew.executors executor).work? = some work := by rw [waiting]; rfl
  exact Crew.working known

namespace Aligned

variable {crew : Crew} {docket : Docket} (aligned : Aligned crew docket)
include aligned

/-! ## Changes of the docket -/

/-- The ledger, the gate and the sweep do not matter. -/
theorem congr (gate : SourceGate) (durable : List GitLedger) (dead : Bool) :
    Aligned crew { docket with gate := gate, durable := durable, executionsDead := dead } where
  __ := aligned

theorem forget {plans : String → Option OperationPlan}
    (fewer : ∀ id plan, plans id = some plan → docket.plans id = some plan) :
    Aligned crew { docket with plans := plans } where
  __ := aligned
  plans id plan known := aligned.plans id plan (fewer id plan known)

theorem spend (id : String) : Aligned crew (docket.spend id) := by
  refine aligned.forget fun other plan known => ?_
  by_cases same : other = id
  · simp [same] at known
  · rwa [Function.update_of_ne same] at known

/-- The operations change; nothing is heard of a process, and nothing that is awaited ends. -/
theorem change {operations : String → Option Operation}
    (unheard : ∀ id after, operations id = some after →
      after.info.id = id ∧ Unheard (docket.operations id) after)
    (goes : ∀ id ∈ crew.inFlight docket, ∀ before, docket.operations id = some before →
      before.active = true → ∃ after, operations id = some after ∧ after.active = true)
    (waits : ∀ id before, docket.operations id = some before → before.completion = true →
      ∃ after, operations id = some after ∧ after.completion = true) :
    Aligned crew { docket with operations := operations } where
  __ := aligned
  named id operation known := (unheard id operation known).1
  active id member := by
    obtain ⟨before, known, active⟩ := aligned.active id member
    exact goes id member before known active
  completion id operation known sender := by
    obtain ⟨before, found, sender⟩ := (unheard id operation known).2.completion sender
    exact aligned.completion id before found sender
  terminal id operation pid known owned := by
    obtain ⟨before, found, owned⟩ := (unheard id operation known).2.terminal pid owned
    exact aligned.terminal id before pid found owned
  exited id operation known seen := by
    obtain ⟨before, found, seen⟩ := (unheard id operation known).2.exit seen
    exact aligned.exited id before found seen
  once id := by
    have bound := aligned.once id
    have fewer : ((operations id).any (·.completion)).toNat ≤
        ((docket.operations id).any (·.completion)).toNat := by
      apply Bool.toNat_le_toNat
      intro sends
      obtain ⟨after, known, sender⟩ := (Option.any_eq_true _ _).mp sends
      obtain ⟨before, found, sender⟩ := (unheard id after known).2.completion sender
      simp [found, sender]
    simp only
    omega
  owed executor work lease waiting unsent := by
    have completes := aligned.owed executor work lease waiting unsent
    simp only [Docket.completes, Bool.or_eq_true, Option.any_eq_true] at completes ⊢
    cases completes with
    | inl sender =>
      obtain ⟨before, found, sender⟩ := sender
      exact .inl (waits work.id before found sender)
    | inr announced => exact .inr announced

theorem set {id : String} {after : Operation} (named : after.info.id = id)
    (unheard : Unheard (docket.operations id) after)
    (goes : id ∈ crew.inFlight docket → after.active = true)
    (waits : ∀ before, docket.operations id = some before → before.completion = true →
      after.completion = true) : Aligned crew (docket.set id after) := by
  refine aligned.change (fun other operation known => ?_) (fun other member before known active => ?_)
    fun other before known sender => ?_
  · by_cases same : other = id
    · subst same
      obtain rfl : after = operation := by simpa using known
      exact ⟨named, unheard⟩
    · rw [Function.update_of_ne same] at known
      exact ⟨aligned.named other operation known, known ▸ .same rfl rfl rfl⟩
  · by_cases same : other = id
    · subst same
      exact ⟨after, by simp, goes member⟩
    · exact ⟨before, by rw [Function.update_of_ne same, known], active⟩
  · by_cases same : other = id
    · subst same
      exact ⟨after, by simp, waits before known sender⟩
    · exact ⟨before, by rw [Function.update_of_ne same, known], sender⟩

/-- Every operation stays where it is. -/
theorem unmoved {operations : String → Option Operation}
    (each : ∀ id, Option.Rel Unmoved (docket.operations id) (operations id)) :
    Aligned crew { docket with operations := operations } := by
  have back : ∀ id after, operations id = some after →
      ∃ before, docket.operations id = some before ∧ Unmoved before after := by
    intro id after known
    have pair := each id
    rw [known] at pair
    generalize docket.operations id = found at pair ⊢
    cases pair with
    | some unmoved => exact ⟨_, rfl, unmoved⟩
  have forth : ∀ id before, docket.operations id = some before →
      ∃ after, operations id = some after ∧ Unmoved before after := by
    intro id before known
    have pair := each id
    rw [known] at pair
    generalize operations id = found at pair ⊢
    cases pair with
    | some unmoved => exact ⟨_, rfl, unmoved⟩
  refine aligned.change (fun id after known => ?_) (fun id member before known active => ?_)
    fun id before known sender => ?_
  · obtain ⟨before, found, unmoved⟩ := back id after known
    refine ⟨unmoved.id.trans (aligned.named id before found), ?_⟩
    exact found ▸ .same unmoved.completion unmoved.terminal unmoved.exit
  · obtain ⟨after, found, unmoved⟩ := forth id before known
    exact ⟨after, found, unmoved.active.trans active⟩
  · obtain ⟨after, found, unmoved⟩ := forth id before known
    exact ⟨after, found, unmoved.completion.trans sender⟩

/-- An operation goes that nothing is in flight for. -/
theorem remove {id : String} (landed : id ∉ crew.inFlight docket) :
    Aligned crew (docket.set id none) := by
  -- a completion sender would be awaited by an executor with this work
  have idle : ∀ before, docket.operations id = some before → before.completion = false := by
    intro before known
    by_contra sender
    have awaits := aligned.completion id before known (by simpa using sender)
    exact landed awaits.working
  refine aligned.change (fun other operation known => ?_) (fun other member before known active => ?_)
    fun other before known sender => ?_
  · by_cases same : other = id
    · simp [same] at known
    · rw [Function.update_of_ne same] at known
      exact ⟨aligned.named other operation known, known ▸ .same rfl rfl rfl⟩
  · have different : other ≠ id := fun same => landed (same ▸ member)
    exact ⟨before, by rw [Function.update_of_ne different, known], active⟩
  · by_cases same : other = id
    · subst same
      simp [idle before known] at sender
    · exact ⟨before, by rw [Function.update_of_ne same, known], sender⟩

/-- A piece of work is handed to the executors. -/
theorem push {work : ExecuteWork} {operation : Operation}
    (known : docket.operations work.id = some operation) (active : operation.active = true)
    (planned : work.plan.preview.id = work.id) (unused : work.id ∉ crew.inFlight docket) :
    Aligned crew { docket with executions := docket.executions ++ [work] } where
  __ := aligned
  queued other member := by
    cases List.mem_append.mp member with
    | inl before => exact aligned.queued other before
    | inr new => exact List.mem_singleton.mp new ▸ planned
  single := by
    have grown : (crew.inFlight { docket with executions := docket.executions ++ [work] }).Perm
        (work.id :: crew.inFlight docket) := by
      simp only [Crew.inFlight, List.map_append, List.map_cons, List.map_nil, List.append_assoc]
      exact List.perm_middle
    exact grown.nodup_iff.mpr (List.nodup_cons.mpr ⟨unused, aligned.single⟩)
  active id member := by
    simp only [Crew.inFlight, List.map_append, List.map_cons, List.map_nil, List.append_assoc,
      List.mem_append, List.mem_singleton] at member
    by_cases same : id = work.id
    · exact ⟨operation, same ▸ known, active⟩
    · refine aligned.active id ?_
      simp only [Crew.inFlight, List.mem_append]
      simpa [same] using member

/-- An event goes that carries no completion sender. -/
theorem pop {event : Event} {rest : List Event} (popped : docket.events = event :: rest)
    (silent : ∀ id, event.announces id = false) :
    Aligned crew { docket with events := rest } where
  __ := aligned
  single := by
    refine aligned.single.sublist ?_
    simp only [Crew.inFlight, popped]
    refine (List.Sublist.refl _).append ((List.Sublist.refl _).append ?_)
    exact (List.sublist_cons_self _ _).filterMap _
  active id member := by
    refine aligned.active id ?_
    simp only [Crew.inFlight, popped, List.mem_append] at member ⊢
    refine member.imp_right (Or.imp_right fun listed => ?_)
    exact (List.Sublist.filterMap _ (List.sublist_cons_self _ _)).subset listed
  announced id pid member := aligned.announced id pid (by simp [popped, member])
  once id := by
    have bound := aligned.once id
    rw [popped, List.countP_cons_of_neg (by simp [silent id])] at bound
    exact bound
  owed executor work lease waiting unsent := by
    have completes := aligned.owed executor work lease waiting unsent
    simpa only [Docket.completes, popped, List.any_cons, silent, Bool.false_or] using completes

/-- Nothing is in flight for an operation that is not there. -/
theorem landed {id : String} (unused : docket.operations id = none) :
    id ∉ crew.inFlight docket := by
  intro member
  obtain ⟨operation, known, _⟩ := aligned.active id member
  simp [unused] at known

/-- A new operation, in flight. -/
theorem accept {id : String} {plan : OperationPlan} {operation : Operation} (service : String)
    (rows cols : Nat) (unused : docket.operations id = none)
    (planned : docket.plans id = some plan) (accepted : Accepted id plan operation) :
    Aligned crew { docket.set id operation with
      executions := docket.executions ++ [⟨id, service, plan, rows, cols⟩] } := by
  have out := aligned.landed unused
  have new := accepted.new
  have set := aligned.set accepted.id (.new (by rw [new]; rfl) (by rw [new]; rfl) (by rw [new]; rfl))
    (fun member => absurd member out) (by simp [unused])
  have known : (docket.set id operation).operations id = some operation := by simp [Docket.set]
  have active : operation.active = true := by rw [new]; rfl
  exact set.push known active (aligned.plans id plan planned) out

/-- A terminal is taken over, with the completion sender. -/
theorem install {id : String} {pid : Pid} {rest : List Event} {operation : Operation}
    {close : Result Unit} (popped : docket.events = .terminal id pid :: rest)
    (found : docket.operations id = some operation) :
    Aligned crew (({ docket with events := rest } : Docket).set id (operation.install pid close)) := by
  have quiet := install_quiet operation pid close
  have taken := aligned.announced id pid (by simp [popped])
  have sole := aligned.once id
  rw [popped, List.countP_cons_of_pos (by simp [Event.announces])] at sole
  have flights : crew.inFlight (({ docket with events := rest } : Docket).set id
      (operation.install pid close)) = crew.inFlight docket := by
    simp only [Crew.inFlight, Docket.set, popped]
    rw [List.filterMap_cons_none rfl]
  have changed : ∀ other after, ((docket.set id (operation.install pid close)).operations other) =
      some after → other = id ∧ after = operation.install pid close ∨
        other ≠ id ∧ docket.operations other = some after := by
    intro other after known
    by_cases same : other = id
    · subst same
      exact .inl ⟨rfl, by simpa [Docket.set, eq_comm] using known⟩
    · exact .inr ⟨same, by simpa [Docket.set, same] using known⟩
  exact {
    aligned with
    named := fun other after known => by
      obtain ⟨rfl, rfl⟩ | ⟨_, found⟩ := changed other after known
      · exact quiet.id.trans (aligned.named other operation found)
      · exact aligned.named other after found
    single := flights ▸ aligned.single
    active := fun other member => by
      obtain ⟨before, known, active⟩ := aligned.active other (flights ▸ member)
      by_cases same : other = id
      · subst same
        obtain rfl := Option.some.inj (found.symm.trans known)
        refine ⟨operation.install pid close, by simp [Docket.set], ?_⟩
        rw [(install_sustained operation pid close).active, active]
      · exact ⟨before, by simpa [Docket.set, same] using known, active⟩
    announced := fun other leader member => aligned.announced other leader (by
      simp only [popped]
      exact .tail _ member)
    completion := fun other after known sender => by
      obtain ⟨rfl, rfl⟩ | ⟨_, found⟩ := changed other after known
      · exact taken.2
      · exact aligned.completion other after found sender
    terminal := fun other after leader known owned => by
      obtain ⟨rfl, rfl⟩ | ⟨_, found⟩ := changed other after known
      · rw [quiet.terminal] at owned
        obtain rfl := Option.some.inj owned
        exact taken.1
      · exact aligned.terminal other after leader found owned
    once := fun other => by
      by_cases same : other = id
      · subst same
        have bound := Bool.toNat_le
          (((docket.set other (operation.install pid close)).operations other).any (·.completion))
        simp only [Docket.set] at bound ⊢
        omega
      · have bound := aligned.once other
        rw [popped, List.countP_cons_of_neg (by simp [Event.announces, Ne.symm same])] at bound
        simpa [Docket.set, same] using bound
    owed := fun executor work lease waiting unsent => by
      by_cases same : work.id = id
      · simp [Docket.completes, Docket.set, same, quiet.completion, Operation.installed]
      · have completes := aligned.owed executor work lease waiting unsent
        simpa [Docket.completes, Docket.set, same, popped, Event.announces, Ne.symm same]
          using completes
    exited := fun other after known seen => by
      obtain ⟨rfl, rfl⟩ | ⟨_, found⟩ := changed other after known
      · exact aligned.exited other operation found (install_exit operation pid close ▸ seen)
      · exact aligned.exited other after found seen }

end Aligned

/-- The actor keeps its executors aligned. -/
theorem aligned_closed (crew : Crew) : Docket.Closed (Aligned crew) := by
  intro before after aligned step
  cases step with
  | forgot fewer => exact aligned.forget fewer
  | @planned id service plan rest popped =>
    have popped := aligned.pop popped fun _ => rfl
    exact {
      popped with
      plans := fun other record known => by
        by_cases same : other = plan.preview.id
        · simp only [same, Function.update_self, Option.some.injEq] at known
          rw [same, known]
        · simp only [Function.update_of_ne same] at known
          exact aligned.plans other record known }
  | @dropped event rest popped idle =>
    -- the operation of a piece of work that is in flight is there
    have landed : ∀ id, id ∈ crew.inFlight before → event.operation? ≠ some id := by
      intro id member about
      obtain ⟨operation, known, _⟩ := aligned.active id member
      simp [idle id about] at known
    cases event with
    | read id service result => exact aligned.pop popped fun _ => rfl
    | terminal id pid =>
      have taken := aligned.announced id pid (by simp [popped])
      exact absurd rfl (landed id taken.2.working)
    | executed id result =>
      exact absurd rfl (landed id (by simp [Crew.inFlight, popped, Event.executed?]))
  | @steady operations each =>
    refine aligned.unmoved fun id => ?_
    have pair := each id
    generalize before.operations id = found, operations id = changed at pair ⊢
    cases pair with
    | none => exact .none
    | some requested =>
      exact .some ⟨requested.id, requested.active, requested.completion, requested.terminal,
        requested.exit⟩
  | installed popped found => exact aligned.install popped found
  | @concluded id reported result rest operation now popped found =>
    obtain ⟨terminal, completion, exit, _⟩ := finish_process operation now result
    have landed : id ∉ crew.inFlight { before with events := rest } := by
      have shrunk : (crew.inFlight before).Perm
          (id :: crew.inFlight { before with events := rest }) := by
        simp only [Crew.inFlight, popped, List.filterMap_cons, Event.executed?]
        exact (List.perm_middle.append_left _).trans List.perm_middle
      exact (List.nodup_cons.mp (shrunk.nodup_iff.mp aligned.single)).1
    have silent : ∀ other, Event.announces other (.executed id reported) = false := fun _ => rfl
    have remaining := aligned.pop popped silent
    refine remaining.set ?_ ?_ (fun member => absurd member landed) ?_
    · exact (finish_kept operation now result).id.trans (aligned.named id operation found)
    · exact found ▸ .same completion terminal exit
    · intro other known sender
      obtain rfl := Option.some.inj (found.symm.trans known)
      exact completion.trans sender
  | swept dead => exact absurd (aligned.alive.symm.trans dead) (by decide)
  | stored lists => exact aligned.congr before.gate _ before.executionsDead

/-- An operation that is accepted goes to an executor, or is over at once. -/
theorem aligned_accepts {crew : Crew} {before after : Docket} (aligned : Aligned crew before)
    (step : Docket.Accepts before after) : Aligned crew after := by
  cases step with
  | declined unused lists => exact aligned.congr before.gate _ before.executionsDead
  | @dispatched id service plan rows cols operation ledger unused planned accepted lists =>
    have accepted := aligned.accept service rows cols unused planned accepted
    exact (accepted.congr before.gate _ before.executionsDead).spend id
  | @undelivered id plan operation ledger now error unused planned accepted lists =>
    obtain ⟨terminal, completion, exit, _⟩ := finish_process operation now (.error error)
    have new := accepted.new
    have out := aligned.landed unused
    have ended := aligned.set ((finish_kept operation now (.error error)).id.trans accepted.id)
      (.new (by rw [completion, new]; rfl) (by rw [terminal, new]; rfl) (by rw [exit, new]; rfl))
      (fun member => absurd member out) (by simp [unused])
    exact (ended.congr before.gate _ before.executionsDead).spend id

theorem aligned_reconciles {crew : Crew} {id : String} {before after : Docket}
    (aligned : Aligned crew before) (step : Docket.Reconciles id before after) :
    Aligned crew after := by
  cases step with
  | @reconciled operation ledger found unknown past lists =>
    have unheard : Unheard (before.operations id) (reconciled operation) := by
      rw [found]
      exact .same rfl rfl rfl
    have named : (reconciled operation).info.id = id := aligned.named id operation found
    have set : Aligned crew (before.set id (reconciled operation)) := by
      refine aligned.set named unheard ?_ ?_
      · intro member
        obtain ⟨other, known, active⟩ := aligned.active id member
        obtain rfl := Option.some.inj (found.symm.trans known)
        exact active
      · intro other known sender
        obtain rfl := Option.some.inj (found.symm.trans known)
        exact sender
    exact set.congr _ _ before.executionsDead
  | unreconciled found unknown past lists => exact aligned.congr before.gate _ before.executionsDead

/-- What makes room for another operation is not in flight. -/
theorem aligned_spares (crew : Crew) (shells : Nat) (bridge : Bridge) :
    bridge.Spares (Aligned crew) shells := by
  intro _ victim docket picked aligned operations _
  unfold Bridge.victim at picked
  split at picked
  · obtain ⟨old, known, oldest⟩ := oldest_found picked
    refine aligned.remove fun member => ?_
    obtain ⟨operation, found, active⟩ := aligned.active victim member
    rw [operations] at found
    obtain rfl := Option.some.inj (known.symm.trans found)
    simp [evictable, active] at oldest
  · cases picked

theorem aligned_inventory {crew : Crew} {docket : Docket} (aligned : Aligned crew docket)
    (host : Pid) (answer : Pid → ChildAnswer) (report : Report) :
    Aligned crew { docket with operations := fun id =>
      (docket.operations id).map (·.inventory host answer report) } := by
  refine aligned.unmoved fun id => ?_
  cases docket.operations id with
  | none => exact .none
  | some operation =>
    have steady := inventory_steady operation host answer report
    exact .some ⟨steady.id, steady.active, steady.completion, steady.terminal,
      (inventory_watch operation host answer report).1⟩

/-! ## Steps of the executors and of the processes -/

def Crew.set (crew : Crew) (executor : Fin 4) (state : Executor) : Crew :=
  { crew with executors := Function.update crew.executors executor state }

/-- What holds of the new state and of every state before holds of every state now. -/
theorem Crew.set_each {crew : Crew} {executor : Fin 4} {state : Executor} {motive : Executor → Prop}
    (here : motive state) (there : ∀ other, motive (crew.executors other)) (other : Fin 4) :
    motive ((crew.set executor state).executors other) := by
  by_cases same : other = executor
  · simpa [Crew.set, same] using here
  · simpa [Crew.set, same] using there other

theorem Crew.set_other {crew : Crew} {executor other : Fin 4} {state : Executor}
    (different : other ≠ executor) :
    (crew.set executor state).executors other = crew.executors other := by
  simp [Crew.set, different]

theorem Crew.inFlight_set {crew : Crew} {executor : Fin 4} {state : Executor} (docket : Docket)
    (same : state.work? = (crew.executors executor).work?) :
    (crew.set executor state).inFlight docket = crew.inFlight docket := by
  simp only [Crew.inFlight]
  congr 2
  refine List.filterMap_congr fun other _ => ?_
  by_cases here : other = executor
  · simp [Crew.set, here, same]
  · rw [Crew.set_other here]

theorem waitsFor_work {state : Executor} {id : String} (waits : state.waitsFor id = true) :
    ∃ work, state.work? = some work ∧ work.id = id := by
  cases state <;> simp [Executor.waitsFor, Executor.work?] at waits ⊢ <;> exact waits

namespace Aligned

variable {crew : Crew} {docket : Docket} (aligned : Aligned crew docket)
include aligned

/-- No two executors have the same work. -/
theorem sole {first second : Fin 4} {one two : ExecuteWork}
    (left : (crew.executors first).work? = some one)
    (right : (crew.executors second).work? = some two) (same : one.id = two.id) :
    first = second := by
  have single := (List.nodup_append.mp (List.nodup_append.mp aligned.single).2.1).1
  have here : (crew.executors first).work?.map (·.id) = some one.id := by simp [left]
  have there : (crew.executors second).work?.map (·.id) = some one.id := by simp [right, same]
  exact filterMap_single crew.executors (fun state => state.work?.map (·.id)) single here there

/-- An executor whose work serves no process goes on, and may report. -/
theorem move {executor : Fin 4} {state : Executor} {plans : String → Nat}
    {executions : List ExecuteWork} {extra : List Event}
    (flights : (Crew.inFlight (crew.set executor state) { docket with
      executions := executions, events := docket.events ++ extra }).Perm (crew.inFlight docket))
    (queued : ∀ work ∈ executions, work ∈ docket.executions)
    (silent : ∀ event ∈ extra, ∀ id, event.announces id = false)
    (works : ∀ work, state.work? = some work → work.plan.preview.id = work.id)
    (monotone : ∀ id, plans id = 0 → crew.plans id = 0)
    (invoked : ∀ work, state.invoked? = some work → plans work.id ≠ 0)
    (running : ∀ work lease, state = .running work lease →
      crew.processes work.id = .absent ∧ crew.outcomes work.id = none)
    (still : ∀ id, (crew.executors executor).waitsFor id = true → crew.outcomes id ≠ none)
    (quiet : ∀ id, state.waitsFor id = false) :
    Aligned { crew.set executor state with plans := plans }
      { docket with executions := executions, events := docket.events ++ extra } := by
  have awaits : ∀ id, crew.Awaits id →
      Crew.Awaits { crew.set executor state with plans := plans } id := by
    rintro id ⟨unsent, other, work, lease, waiting, rfl⟩
    refine ⟨unsent, other, work, lease, ?_, rfl⟩
    have different : other ≠ executor := by
      rintro rfl
      exact still work.id (by simp [waiting, Executor.waitsFor]) unsent
    exact (Crew.set_other different).trans waiting
  exact {
    aligned with
    queued := fun work member => aligned.queued work (queued work member)
    works := Crew.set_each (motive := fun state => ∀ work, state.work? = some work →
      work.plan.preview.id = work.id) works aligned.works
    single := flights.nodup_iff.mpr aligned.single
    active := fun id member => aligned.active id (flights.mem_iff.mp member)
    fresh := fun id first => aligned.fresh id (monotone id first)
    invoked := Crew.set_each (motive := fun state => ∀ work, state.invoked? = some work →
      plans work.id ≠ 0) invoked
      fun other work known first => aligned.invoked other work known (monotone work.id first)
    running := Crew.set_each (motive := fun state => ∀ work lease, state = .running work lease →
      crew.processes work.id = .absent ∧ crew.outcomes work.id = none) running aligned.running
    spawned := Crew.set_each (motive := fun state => ∀ work lease pid,
      state = .spawned work lease pid →
      (crew.processes work.id).LedBy pid ∧ crew.outcomes work.id = none)
      (fun work lease pid same => by simpa [same, Executor.waitsFor] using quiet work.id)
      aligned.spawned
    announced := fun id pid member => by
      have there : .terminal id pid ∈ docket.events := by
        refine (List.mem_append.mp member).resolve_right fun new => ?_
        simpa [Event.announces] using silent _ new id
      exact ⟨(aligned.announced id pid there).1, awaits id (aligned.announced id pid there).2⟩
    completion := fun id operation known sender =>
      awaits id (aligned.completion id operation known sender)
    once := fun id => by
      have none : extra.countP (·.announces id) = 0 :=
        List.countP_eq_zero.mpr fun event member => by simp [silent event member id]
      simpa [List.countP_append, none] using aligned.once id
    owed := Crew.set_each (motive := fun state => ∀ work lease, state = .waiting work lease →
      crew.outcomes work.id = none → Docket.completes { docket with
        executions := executions, events := docket.events ++ extra } work.id = true)
      (fun work lease same => by simpa [same, Executor.waitsFor] using quiet work.id)
      fun other work lease waiting unsent => by
        have completes := aligned.owed other work lease waiting unsent
        simp only [Docket.completes, List.any_append, Bool.or_eq_true] at completes ⊢
        exact completes.imp_right .inl
    attended := fun id pid led => by
      obtain ⟨unsent, other, waits⟩ := aligned.attended id pid led
      have different : other ≠ executor := by
        rintro rfl
        exact still id waits unsent
      exact ⟨unsent, other, (congrArg (Executor.waitsFor id) (Crew.set_other different)).trans waits⟩ }

/-- An executor goes on with work that serves no process. -/
theorem advance {executor : Fin 4} {state : Executor} {plans : String → Nat}
    (same : state.work? = (crew.executors executor).work?)
    (monotone : ∀ id, plans id = 0 → crew.plans id = 0)
    (invoked : ∀ work, state.invoked? = some work → plans work.id ≠ 0)
    (running : ∀ work lease, state = .running work lease →
      crew.processes work.id = .absent ∧ crew.outcomes work.id = none)
    (still : ∀ id, (crew.executors executor).waitsFor id = true → crew.outcomes id ≠ none)
    (quiet : ∀ id, state.waitsFor id = false) :
    Aligned { crew.set executor state with plans := plans } docket := by
  have flights : (Crew.inFlight (crew.set executor state) { docket with
      executions := docket.executions, events := docket.events ++ [] }).Perm
      (crew.inFlight docket) := by
    rw [List.append_nil]
    exact .of_eq (Crew.inFlight_set docket same)
  have silent : ∀ event ∈ ([] : List Event), ∀ id, event.announces id = false := by simp
  have moved := aligned.move flights (fun _ member => member) silent
    (fun work known => aligned.works executor work (same.symm.trans known)) monotone invoked running
    still quiet
  rw [List.append_nil] at moved
  exact moved

end Aligned

end Idk.Git
