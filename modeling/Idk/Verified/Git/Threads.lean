import Idk.Gate.Custody
import Idk.Logic.Tables
import Idk.Verified.Git.Docket
import Idk.Verified.Git.Steps

/-!
# The threads around the actor

`Threaded` says once what a step of a thread, a process or another user of the gate can
do.  The leases of the executors and of the runs are what the gate records, in every step
of every world.
-/

namespace Idk.Git

open Idk.Logic
open Idk.Host (Pid ChildAnswer Report)

/-! ## Steps of the threads -/

/-- What a thread's step does. -/
inductive Threaded (world : World) : Act → World → Prop where
  | tookRead {reader : Fin 2} {work : ReadWork} {rest : List ReadWork}
      (queued : world.bridge.workers.reads = work :: rest) :
      Threaded world (.takeRead reader)
        ({ world with bridge.workers.reads := rest }.setReader reader (.reading work))
  | answered {reader : Fin 2} {work : ReadWork} {service : Option String} {result : Result Payload}
      (reading : world.readers reader = .reading work) :
      Threaded world (.read reader service result)
        { world.setReader reader .idle with bridge.workers.events :=
            world.bridge.workers.events ++ [.read work.id service result] }
  | readerDied {reader : Fin 2} :
      Threaded world (.readerDies reader) ({ world with
        bridge.workers.readAlive := world.bridge.workers.readAlive - 1 }.setReader reader .dead)
  | took {executor : Fin 4} {work : ExecuteWork} {rest : List ExecuteWork}
      (idle : world.executors executor = .idle)
      (queued : world.bridge.workers.executions = work :: rest) :
      Threaded world (.takeExecution executor)
        ({ world with bridge.workers.executions := rest }.setExecutor executor (.started work))
  | refused {executor : Fin 4} {work : ExecuteWork} {error : String}
      (started : world.executors executor = .started work) :
      Threaded world (.refuse executor error)
        (world.setExecutor executor (.returned work (.error error)))
  | abandoned {executor : Fin 4} {work : ExecuteWork} {lease : Option GateLease} {error : String}
      (leased : world.executors executor = .leased work lease ∨
        world.executors executor = .validated work lease) :
      Threaded world (.refuse executor error)
        ((world.dropLease lease).setExecutor executor (.returned work (.error error)))
  | reserved {executor : Fin 4} {work : ExecuteWork} {gate : SourceGate} {lease : GateLease}
      (started : world.executors executor = .started work)
      (needed : work.plan.preview.requiresSourceLease = true)
      (granted : world.bridge.gate.reserveMutation work.plan.preview.repository.identity
        work.plan.preview.id = .ok (gate, lease)) :
      Threaded world (.reserve executor)
        ((world.regate gate).setExecutor executor (.leased work (some lease)))
  | unreserved {executor : Fin 4} {work : ExecuteWork}
      (started : world.executors executor = .started work)
      (free : work.plan.preview.requiresSourceLease = false) :
      Threaded world (.reserve executor) (world.setExecutor executor (.leased work none))
  | revalidated {executor : Fin 4} {work : ExecuteWork} {lease : Option GateLease}
      (leased : world.executors executor = .leased work lease)
      (accepted : work.plan.preview.accepts
        (world.revisions work.plan.preview.repository.gitDir) = true) :
      Threaded world (.revalidate executor) (world.setExecutor executor (.validated work lease))
  | invoked {executor : Fin 4} {work : ExecuteWork} {lease : Option GateLease}
      (validated : world.executors executor = .validated work lease)
      (first : world.plans work.plan.preview.id = 0) :
      Threaded world (.run executor)
        ((world.setPlan work.plan.preview.id 1).setExecutor executor (.running work lease))
  | cancelled {executor : Fin 4} {work : ExecuteWork} {lease : Option GateLease}
      {execution : Result CommandOutcome} (running : world.executors executor = .running work lease) :
      Threaded world (.cancelled executor)
        (world.setExecutor executor (.finished work lease execution))
  | unspawned {executor : Fin 4} {work : ExecuteWork} {lease : Option GateLease} {error : String}
      {execution : Result CommandOutcome} (running : world.executors executor = .running work lease) :
      Threaded world (.spawnFails executor error)
        (world.setExecutor executor (.finished work lease execution))
  | spawned {executor : Fin 4} {work : ExecuteWork} {lease : Option GateLease} {pid : Pid}
      (running : world.executors executor = .running work lease) :
      Threaded world (.spawn executor pid)
        ((world.setProcess work.id (.running pid)).setExecutor executor (.spawned work lease pid))
  | announced {executor : Fin 4} {work : ExecuteWork} {lease : Option GateLease} {pid : Pid}
      (spawned : world.executors executor = .spawned work lease pid) :
      Threaded world (.announce executor)
        { world.setExecutor executor (.waiting work lease) with bridge.workers.events :=
            world.bridge.workers.events ++ [.terminal work.id pid] }
  | received {executor : Fin 4} {work : ExecuteWork} {lease : Option GateLease}
      {outcome : CommandOutcome} (waiting : world.executors executor = .waiting work lease)
      (sent : world.outcomes work.id = some outcome) :
      Threaded world (.receive executor)
        (world.setExecutor executor (.finished work lease (.ok outcome)))
  | disconnected {executor : Fin 4} {work : ExecuteWork} {lease : Option GateLease}
      {execution : Result CommandOutcome} (waiting : world.executors executor = .waiting work lease)
      (unsent : world.outcomes work.id = none) (lost : world.completes work.id = false) :
      Threaded world (.disconnected executor)
        (world.setExecutor executor (.finished work lease execution))
  | concluded {executor : Fin 4} {work : ExecuteWork} {lease : Option GateLease}
      {execution : Result CommandOutcome} {assessment : Assessment}
      (finished : world.executors executor = .finished work lease execution) :
      Threaded world (.conclude executor assessment)
        (((world.setPlan work.plan.preview.id 2).dropLease lease).setExecutor executor
          (.returned work (.ok (work.plan.preview.concluded execution assessment))))
  | reported {executor : Fin 4} {work : ExecuteWork} {result : Result OperationResult}
      (returned : world.executors executor = .returned work result) :
      Threaded world (.report executor)
        { world.setExecutor executor .idle with bridge.workers.events :=
            world.bridge.workers.events ++ [.executed work.id result] }
  | died {executor : Fin 4} :
      Threaded world (.executorDies executor) (({ world with
        bridge.workers.executeAlive := world.bridge.workers.executeAlive - 1 }.dropLease
          (world.executors executor).lease?).setExecutor executor .dead)
  | exited {id : String} {pid : Pid} (running : world.processes id = .running pid) :
      Threaded world (.exit id) (world.setProcess id (.exited pid))
  | edited {key : PathBuf} {revision : Revision} : Threaded world (.source key revision)
      { world with revisions := Function.update world.revisions key revision }
  | ranReserved {identity : PathBuf} {operation name : String} {gate : SourceGate}
      {lease : GateLease}
      (granted : world.bridge.gate.reserveRun identity operation name = .ok (gate, lease)) :
      Threaded world (.reserveRun identity operation name)
        { world.regate gate with runLeases := lease :: world.runLeases }
  | ranDropped {lease : GateLease} (held : lease ∈ world.runLeases) :
      Threaded world (.dropRun lease) { world.regate (world.bridge.gate.drop lease) with
        runLeases := world.runLeases.erase lease }
  | ready {identity : PathBuf} :
      Threaded world (.ready identity) (world.regate (world.bridge.gate.ready identity))
  | unavailable {identity : PathBuf} :
      Threaded world (.unavailable identity) (world.regate (world.bridge.gate.unavailable identity))

theorem send_some {world next : World} {event : Event} (sent : world.send event = some next) :
    next = { world with bridge.workers.events := world.bridge.workers.events ++ [event] } := by
  simp only [World.send, Option.ite_none_right_eq_some, Option.some.injEq] at sent
  exact sent.2.symm

variable (formats : GitFormats)

theorem step_threaded {world next : World} {event : GitEvent}
    (taken : world.step formats event = some next) (thread : Act.byActor event.act = false) :
    Threaded world event.act next := by
  obtain ⟨act, answers⟩ := event
  cases act <;> simp only [Act.byActor, Bool.true_eq_false] at thread <;>
    simp only [World.step] at taken
  case takeRead reader =>
    split at taken
    · obtain rfl := Option.some.inj taken
      exact .tookRead ‹_›
    · cases taken
  case read reader service result =>
    split at taken
    · obtain rfl := send_some taken
      exact .answered ‹_›
    · cases taken
  case readerDies reader =>
    split at taken
    · cases taken
    · obtain rfl := Option.some.inj taken
      exact .readerDied
  case takeExecution executor =>
    split at taken
    · obtain rfl := Option.some.inj taken
      exact .took ‹_› ‹_›
    · cases taken
  case refuse executor error =>
    split at taken
    · obtain rfl := Option.some.inj taken
      exact .refused ‹_›
    · obtain rfl := Option.some.inj taken
      exact .abandoned (.inl ‹_›)
    · obtain rfl := Option.some.inj taken
      exact .abandoned (.inr ‹_›)
    · cases taken
  case reserve executor =>
    split at taken
    · split at taken
      · cases taken
      · split at taken
        · rename_i work started _ needed
          split at taken
          · obtain rfl := Option.some.inj taken
            exact .reserved started needed ‹_›
          · cases taken
        · rename_i work started _ free
          obtain rfl := Option.some.inj taken
          exact .unreserved started (by simpa using free)
    · cases taken
  case revalidate executor =>
    split at taken
    · split at taken
      · obtain rfl := Option.some.inj taken
        exact .revalidated ‹_› ‹_›
      · cases taken
    · cases taken
  case run executor =>
    split at taken
    · split at taken
      · obtain rfl := Option.some.inj taken
        exact .invoked ‹_› ‹_›
      · cases taken
    · cases taken
  case cancelled executor =>
    split at taken
    · split at taken
      · obtain rfl := Option.some.inj taken
        exact .cancelled ‹_›
      · cases taken
    · cases taken
  case spawnFails executor error =>
    split at taken
    · obtain rfl := Option.some.inj taken
      exact .unspawned ‹_›
    · cases taken
  case spawn executor pid =>
    split at taken
    · obtain rfl := Option.some.inj taken
      exact .spawned ‹_›
    · cases taken
  case announce executor =>
    split at taken
    · obtain rfl := send_some taken
      exact .announced ‹_›
    · cases taken
  case receive executor =>
    split at taken
    · obtain ⟨outcome, sent, rfl⟩ := Option.map_eq_some_iff.mp taken
      exact .received ‹_› sent
    · cases taken
  case disconnected executor =>
    split at taken
    · split at taken
      · rename_i waiting lost
        obtain rfl := Option.some.inj taken
        exact .disconnected waiting lost.1 lost.2
      · cases taken
    · cases taken
  case conclude executor assessment =>
    split at taken
    · obtain rfl := Option.some.inj taken
      exact .concluded ‹_›
    · cases taken
  case report executor =>
    split at taken
    · obtain rfl := send_some taken
      exact .reported ‹_›
    · cases taken
  case executorDies executor =>
    split at taken
    · cases taken
    · obtain rfl := Option.some.inj taken
      exact .died
  case exit id =>
    split at taken
    · obtain rfl := Option.some.inj taken
      exact .exited ‹_›
    · cases taken
  case source key revision =>
    obtain rfl := Option.some.inj taken
    exact .edited
  case reserveRun identity operation name =>
    split at taken
    · obtain rfl := Option.some.inj taken
      exact .ranReserved ‹_›
    · cases taken
  case dropRun lease =>
    split at taken
    · obtain rfl := Option.some.inj taken
      exact .ranDropped ‹_›
    · cases taken
  case ready identity =>
    obtain rfl := Option.some.inj taken
    exact .ready
  case unavailable identity =>
    obtain rfl := Option.some.inj taken
    exact .unavailable

/-! ## Steps of the actor -/

/-- The actor's steps in which the docket changes by steps of the docket. -/
def Act.byDocket : Act → Bool
  | .submit _ _ | .execute _ _ _ _ _ | .operation _ _ _ | .event | .sweepReads | .sweepExecutions
  | .forgetScreens | .dispatchRead => true
  | _ => false

/-- The clause of an invariant for the operation that a step makes go. -/
def World.Spares (inv : Docket → Prop) (world : World) (event : GitEvent) : Prop :=
  ∀ client id rows cols shells, event.act = .execute client id rows cols shells →
    world.bridge.operations[id]? = none → (event.answers 0).runUse = .ok () →
    world.bridge.Spares inv shells

theorem acts_docket {world : World} {inv : Docket → Prop} {answers : Nat → Answers} {α : Type}
    {op : Op α} {pre : Bridge → Prop}
    (triple : Procedure.Ensures answers pre op (fun _ => OnDocket inv) (OnDocket inv))
    (holds : pre world.bridge) : inv (world.acts op answers).bridge.docket :=
  triple.last 0 holds

/-- Without the lock, nothing happens. -/
theorem execute_unlocked {client id error : String} {rows cols shells : Nat} {bridge : Bridge}
    {answers : Nat → Answers} (locked : (answers 0).runUse = .error error) :
    (execute client id rows cols shells answers 0 bridge).state = bridge := by
  cases found : bridge.operations[id]? with
  | some operation =>
    simp [execute, Procedure.current, Bind.bind, found, Pure.pure]
  | none =>
    simp only [execute, Procedure.current, Procedure.answer, Bind.bind, found, locked]
    rfl

/-- What the steps of the docket keep, the actor keeps. -/
theorem step_docket {inv : Docket → Prop} (closed : Docket.Closed inv) {world next : World}
    {event : GitEvent} (taken : world.step formats event = some next)
    (actor : Act.byDocket event.act = true) (holds : inv world.bridge.docket)
    (spares : world.Spares inv event)
    (accepts : ∀ before after, inv before → Docket.Accepts before after → inv after)
    (reconciles : ∀ client id repository, event.act = .operation client id (.reconcile repository) →
      ∀ before after, inv before → Docket.Reconciles id before after → inv after) :
    inv next.bridge.docket ∧ next = { world with bridge := next.bridge } := by
  obtain ⟨act, answers⟩ := event
  cases act <;> simp only [Act.byDocket, Bool.false_eq_true] at actor <;>
    simp only [World.step] at taken
  case submit client task =>
    split at taken
    · cases taken
    · obtain rfl := Option.some.inj taken
      exact ⟨acts_docket (submit_keeps_docket formats closed client task) holds, rfl⟩
  case execute client id rows cols shells =>
    split at taken
    · cases taken
    · obtain rfl := Option.some.inj taken
      refine ⟨?_, rfl⟩
      cases locked : (answers 0).runUse with
      | ok done =>
        exact acts_docket (execute_keeps_docket closed holds
          (fun unused => spares client id rows cols shells rfl unused locked) accepts) rfl
      | error error =>
        simp only [World.acts, execute_unlocked locked]
        exact holds
  case operation client id request =>
    obtain rfl := Option.some.inj taken
    refine ⟨acts_docket (operationRequest_keeps_docket closed client id request ?_) holds, rfl⟩
    intro repository same
    exact reconciles client id repository (same ▸ rfl)
  case event =>
    obtain rfl := Option.some.inj taken
    exact ⟨acts_docket (nextEvent_keeps_docket closed) holds, rfl⟩
  case sweepReads =>
    obtain rfl := Option.some.inj taken
    exact ⟨acts_docket sweepReads_keeps_docket holds, rfl⟩
  case sweepExecutions =>
    obtain rfl := Option.some.inj taken
    exact ⟨acts_docket (sweepExecutions_keeps_docket closed) holds, rfl⟩
  case forgetScreens =>
    obtain rfl := Option.some.inj taken
    exact ⟨acts_docket (forgetScreens_keeps_docket closed) holds, rfl⟩
  case dispatchRead =>
    obtain rfl := Option.some.inj taken
    exact ⟨acts_docket dispatchRead_keeps_docket holds, rfl⟩

/-! ## Ticks and inventories -/

theorem inventory_docket (world : World) (host : Pid) (answer : Pid → ChildAnswer)
    (report : Report) (answers : Nat → Answers) :
    (world.acts (inventories host answer report) answers).bridge.docket =
      { world.bridge.docket with operations := fun id =>
          (world.bridge.docket.operations id).map (·.inventory host answer report) } := by
  simp only [World.acts, inventories, Procedure.update, Bridge.docket, Std.TreeMap.getElem?_map]

theorem ticked_missing {world : World} {id : String} {terminal : Operation.TickAnswers}
    {answers : Nat → Answers} (missing : world.bridge.operations[id]? = none) :
    world.ticked id terminal answers = world := by
  have failed : tickOperation id terminal (world.receives id) answers 0 world.bridge =
      ⟨.error "Git operation is unknown or its completed history expired", 0, world.bridge⟩ := by
    simp only [tickOperation, operationOf, Procedure.current, Bind.bind, missing]
    rfl
  simp only [World.ticked, failed, missing, Option.any_none, Bool.false_and]

/-- The outcome that a tick sends arrives. -/
def World.sending (world : World) (id : String) (sent : Option CommandOutcome) :
    String → Option CommandOutcome :=
  if sent.isSome then Function.update world.outcomes id sent else world.outcomes

/-- The leader of an operation's session is reaped with its terminal. -/
def World.reaping (world : World) (id : String) (reaps : Bool) : String → ProcessState :=
  match reaps, world.processes id with
  | true, .exited pid => Function.update world.processes id (.reaped pid)
  | _, _ => world.processes

theorem ticked_found {world : World} {id : String} {terminal : Operation.TickAnswers}
    {answers : Nat → Answers} {operation after : Operation} {sent : Option CommandOutcome}
    (found : world.bridge.operations[id]? = some operation)
    (ticks : operation.tick terminal (world.receives id) = (after, sent)) :
    world.ticked id terminal answers = { world with
      bridge := world.bridge.setOperation id after
      outcomes := world.sending id sent
      processes := world.reaping id (operation.terminal.isSome && after.terminal.isNone) } := by
  have done : tickOperation id terminal (world.receives id) answers 0 world.bridge =
      ⟨.ok sent, 0, world.bridge.setOperation id after⟩ := by
    simp only [tickOperation, operationOf, Procedure.current, Bind.bind, found, context]
    change (⟨.ok (operation.tick terminal (world.receives id)).2, 0, world.bridge.setOperation id
      (operation.tick terminal (world.receives id)).1⟩ : Outcome _ _ _) = _
    rw [ticks]
  simp only [World.ticked, done, found, Bridge.setOperation, insert_get, if_true, Option.any_some,
    World.reaping]
  cases (operation.terminal.isSome && after.terminal.isNone) <;> cases world.processes id <;>
    cases sent <;> rfl
/-! ## Leases -/

/-- The leases that the executors and the runs hold. -/
def World.leases (world : World) : List GateLease :=
  (List.finRange 4).filterMap (fun executor => (world.executors executor).lease?) ++ world.runLeases

/-- An executor goes from one lease to another. -/
theorem leases_swap (world : World) (executor : Fin 4) (state : Executor) :
    ((world.executors executor).lease?.toList ++ (world.setExecutor executor state).leases).Perm
      (state.lease?.toList ++ world.leases) := by
  simp only [World.leases, World.setExecutor, ← List.append_assoc]
  exact (filterMap_update world.executors executor state Executor.lease?).append_right _

theorem leases_keep {world : World} {executor : Fin 4} {state : Executor}
    (same : state.lease? = (world.executors executor).lease?) :
    (world.setExecutor executor state).leases.Perm world.leases := by
  have swap := leases_swap world executor state
  rw [same] at swap
  exact (List.perm_append_left_iff _).mp swap

theorem leases_take {world : World} {executor : Fin 4} {state : Executor} {lease : GateLease}
    (free : (world.executors executor).lease? = none) (taken : state.lease? = some lease) :
    (world.setExecutor executor state).leases.Perm (lease :: world.leases) := by
  have swap := leases_swap world executor state
  rw [free, taken] at swap
  exact swap

theorem leases_drop {world : World} {executor : Fin 4} {state : Executor} {lease : GateLease}
    (held : (world.executors executor).lease? = some lease) (dropped : state.lease? = none) :
    world.leases.Perm (lease :: (world.setExecutor executor state).leases) := by
  have swap := leases_swap world executor state
  rw [held, dropped] at swap
  exact swap.symm

/-- The gate records the leases that are held. -/
def Custody (world : World) : Prop := Accounts world.bridge.gate world.leases

section Custody

variable {world : World} (custody : Custody world)
include custody

theorem Custody.keep {executor : Fin 4} {state : Executor}
    (same : state.lease? = (world.executors executor).lease?) :
    Custody (world.setExecutor executor state) :=
  Accounts.perm custody (leases_keep same).symm

/-- An executor drops what it holds. -/
theorem Custody.drop {executor : Fin 4} {state : Executor} (dropped : state.lease? = none) :
    Custody ((world.dropLease (world.executors executor).lease?).setExecutor executor state) := by
  cases held : (world.executors executor).lease? with
  | none => exact custody.keep (dropped.trans held.symm)
  | some lease =>
    have split := leases_drop held dropped
    have member : lease ∈ world.leases := split.mem_iff.mpr List.mem_cons_self
    have rest : (world.leases.erase lease).Perm (world.setExecutor executor state).leases := by
      simpa using split.erase lease
    exact Accounts.perm (Accounts.drop custody member) rest

theorem Custody.threaded {act : Act} {next : World} (threaded : Threaded world act next) :
    Custody next := by
  cases threaded with
  | tookRead | answered | readerDied | exited | edited => exact custody
  | took idle => exact custody.keep (by simp [idle, Executor.lease?])
  | refused started => exact custody.keep (by simp [started, Executor.lease?])
  | @abandoned executor work lease error leased =>
    have held : (world.executors executor).lease? = lease := by
      cases leased with
      | inl leased => simp [leased, Executor.lease?]
      | inr validated => simp [validated, Executor.lease?]
    exact held ▸ custody.drop rfl
  | @reserved executor work gate lease started needed granted =>
    have taken : (world.setExecutor executor (.leased work (some lease))).leases.Perm
        (lease :: world.leases) := leases_take (by simp [started, Executor.lease?]) rfl
    exact Accounts.perm (Accounts.reserve custody granted) taken.symm
  | unreserved started => exact custody.keep (by simp [started, Executor.lease?])
  | revalidated leased => exact custody.keep (by simp [leased, Executor.lease?])
  | invoked validated => exact custody.keep (by simp [validated, Executor.lease?])
  | cancelled running | unspawned running | spawned running =>
    exact custody.keep (by simp [running, Executor.lease?])
  | announced spawned => exact custody.keep (by simp [spawned, Executor.lease?])
  | received waiting | disconnected waiting =>
    exact custody.keep (by simp [waiting, Executor.lease?])
  | @concluded executor work lease execution assessment finished =>
    have held : (world.executors executor).lease? = lease := by simp [finished, Executor.lease?]
    exact held ▸ custody.drop rfl
  | reported returned => exact custody.keep (by simp [returned, Executor.lease?])
  | died => exact custody.drop rfl
  | ranReserved granted =>
    exact Accounts.perm (Accounts.reserve custody granted) List.perm_middle.symm
  | @ranDropped lease held =>
    have split : world.leases.Perm (lease :: (((List.finRange 4).filterMap fun executor =>
        (world.executors executor).lease?) ++ world.runLeases.erase lease)) :=
      ((List.perm_cons_erase held).append_left _).trans List.perm_middle
    have member : lease ∈ world.leases := split.mem_iff.mpr List.mem_cons_self
    have rest := split.erase lease
    rw [List.erase_cons_head] at rest
    exact Accounts.perm (Accounts.drop custody member) rest
  | @ready identity =>
    have modified : Accounts (world.bridge.gate.ready identity) world.leases :=
      Accounts.modify custody (fun _ => rfl) fun _ => rfl
    exact modified
  | @unavailable identity =>
    have modified : Accounts (world.bridge.gate.unavailable identity) world.leases :=
      Accounts.modify custody (fun _ => rfl) fun _ => rfl
    exact modified

end Custody

end Idk.Git
