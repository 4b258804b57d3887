import Idk.Git.Lives
import Idk.Verified.Git.Flight
import Idk.Verified.Git.Rules
import Idk.Verified.Git.Steps

/-!
# No repository stays busy

Every request and every part of a tick keeps `Flight`, whatever its environment answers,
except the tick that reaps the process of an operation whose executor is gone.
-/

namespace Idk.Git

open Idk.Logic
open Idk.Logic.Procedure (Ensures)

variable (formats : GitFormats) {answers : Nat → Answers}

theorem Flight.stored {bridge : Bridge} (flight : Flight bridge) : Flight bridge.stored :=
  flight.congr rfl rfl rfl rfl

theorem persist_keeps_flight : Keeps answers persist Flight :=
  persist_keeps fun _ flight => flight.stored

/-! ## Submitting a job -/

/-- While a job is being accepted, the ids that `free` picks are those of no job. -/
structure Accepting (free : String → Prop) (bridge : Bridge) : Prop where
  flight : Flight bridge
  vacant : ∀ id, free id → bridge.jobs[id]? = none

section Submit

variable {free : String → Prop}

theorem evictJob_keeps : Keeps answers evictJob (Accepting free) := by
  refine .known fun bridge ⟨flight, vacant⟩ => .thenRead ?_
  refine .branch (fun _ => ?_) fun _ => .done ⟨flight, vacant⟩
  refine .thenCheck ⟨flight, vacant⟩ fun id picked => .thenUpdate (.done ?_)
  obtain ⟨old, there, ended⟩ := oldest_found (context_eq_ok.mp picked)
  have shut : ∀ job, bridge.jobs[id]? = some job → job.info.state.isOpen = false := by
    intro job found
    obtain rfl := Option.some.inj (found.symm.trans there)
    simpa using ended
  refine ⟨flight.removeJob shut, fun other isFree => ?_⟩
  simp only [Bridge.removeJob, erase_get, vacant other isFree, ite_self]

theorem jobCapacity_keeps : Keeps answers jobCapacity (Accepting free) := by
  refine .known fun bridge ⟨flight, vacant⟩ => .thenAsk fun asked => .thenUpdate (.thenRead ?_)
  have pruned : Accepting free (bridge.prune (answers asked).now) := by
    refine ⟨flight.prune _, fun id isFree => ?_⟩
    simp [Bridge.prune, vacant id isFree]
  refine .thenCall (Ensures.iterate evictJob_keeps _) pruned fun _ last accepting => ?_
  exact .thenRead (.checked accepting fun _ _ => accepting)

theorem Accepting.removeRepo {bridge : Bridge} (accepting : Accepting free bridge) {key : PathBuf}
    (unqueued : bridge.queued key = false) : Accepting free (bridge.removeRepo key) :=
  ⟨accepting.flight.removeRepo unqueued, accepting.vacant⟩

theorem replaceRepo_keeps (binding : Repository) (digest : String) :
    Keeps answers (replaceRepo binding digest) (Accepting free) := by
  refine .known fun bridge accepting => .thenRead ?_
  split
  · refine .branch (fun _ => .thenCheck accepting fun _ unused => .updated ?_) fun _ => .done accepting
    exact accepting.removeRepo (by simp_all)
  · exact .done accepting

/-- It adds no slot. -/
theorem repoCapacity_keeps (key : PathBuf) :
    Ensures answers (fun bridge => Accepting free bridge ∧ bridge.repos[key]? = none) repoCapacity
      (fun _ bridge => Accepting free bridge ∧ bridge.repos[key]? = none) (Accepting free) := by
  refine .known fun bridge ⟨accepting, absent⟩ => .thenRead ?_
  refine .branch (fun _ => .thenCheck accepting fun victim picked => .updated ?_) fun _ =>
    .done ⟨accepting, absent⟩
  obtain ⟨repo, there, idle⟩ := oldest_found (context_eq_ok.mp picked)
  have gone : (bridge.removeRepo victim).repos[key]? = none := by
    simp only [Bridge.removeRepo, Bridge.invalidateRepo, erase_get, absent, ite_self]
  exact ⟨accepting.removeRepo (by simp_all), gone⟩

theorem openRepo_keeps (binding : Repository) (env : List (String × String)) :
    Keeps answers (openRepo formats binding env) (Accepting free) := by
  refine .known fun bridge accepting => .thenCall (replaceRepo_keeps binding _) accepting ?_
  refine fun _ replaced accepting => .thenRead (.branch (fun absent => ?_) fun _ => .done accepting)
  refine .thenCall (repoCapacity_keeps binding.gitDir) ⟨accepting, by simpa using absent⟩ ?_
  refine fun _ last ⟨accepting, absent⟩ => .thenAsk fun asked => .updated ?_
  exact ⟨accepting.flight.addRepo absent rfl rfl, accepting.vacant⟩

theorem contextCapacity_keeps : Keeps answers contextCapacity (Accepting free) := by
  refine .known fun bridge ⟨flight, vacant⟩ => .thenRead ?_
  refine .branch (fun _ => .thenCheck ⟨flight, vacant⟩ fun victim _ => .updated ?_) fun _ =>
    .done ⟨flight, vacant⟩
  exact ⟨flight.congr rfl rfl rfl rfl, vacant⟩

/-- A target's slot is there, in the generation of the target. -/
theorem targetOf_keeps (client : String) (task : GitTask) :
    Ensures answers (Accepting free) (targetOf formats client task)
      (fun target bridge => Accepting free bridge ∧ ∃ repo,
        bridge.repos[target.repository]? = some repo ∧ repo.generation = target.generation)
      (Accepting free) := by
  cases task with
  | openContext project selection env =>
    refine .known fun bridge accepting => .thenAsk fun asked => .thenCheck accepting ?_
    rintro ⟨binding, primary⟩ _
    refine .thenCall (openRepo_keeps formats binding env) accepting fun _ opened accepting => ?_
    refine .thenCall contextCapacity_keeps accepting fun _ last accepting => ?_
    refine .thenAsk fun asked => .thenRead (.thenCheck accepting fun repo slot => ?_)
    refine .thenUpdate (.done ⟨?_, repo, context_eq_ok.mp slot, rfl⟩)
    exact ⟨accepting.flight.congr rfl rfl rfl rfl, accepting.vacant⟩
  | other id =>
    refine .known fun bridge accepting => ?_
    refine .thenCall (contextOf_keeps id client) accepting fun record last known => ?_
    obtain ⟨accepting, repo, slot, same⟩ := known
    refine .thenAsk fun asked => .thenCheck accepting fun task _ => .thenUpdate (.done ?_)
    exact ⟨⟨accepting.flight.congr rfl rfl rfl rfl, accepting.vacant⟩, repo, slot, same⟩

/-- A job enters under an id of no other job. -/
theorem submit_keeps (client : String) (task : GitTask) :
    Ensures answers (Accepting fun id => ∃ asked, (answers asked).newId = id)
      (submit formats client task) (fun _ => Flight) Flight := by
  have whole : Ensures answers (Accepting fun id => ∃ asked, (answers asked).newId = id)
      (submit formats client task) (fun _ => Flight)
      (Accepting fun id => ∃ asked, (answers asked).newId = id) := by
    refine .known fun bridge accepting => .thenAsk fun asked => .thenCheck accepting fun _ _ => ?_
    refine .thenCall jobCapacity_keeps accepting fun _ roomy accepting => ?_
    refine .thenCall (targetOf_keeps formats client task) accepting fun target last known => ?_
    obtain ⟨accepting, repo, slot, same⟩ := known
    refine .thenAsk fun asked => .thenUpdate (.thenUpdate (.done ?_))
    have unused := accepting.vacant _ ⟨asked, rfl⟩
    refine (accepting.flight.addJob unused fun _ => ?_).enqueue fun job found => ?_
    · exact ⟨repo, slot, same⟩
    · obtain rfl : _ = job := by simpa [Bridge.setJob] using found
      exact ⟨repo, slot, same⟩
  exact whole.relax fun _ => Accepting.flight

end Submit

/-! ## Executing a plan -/

/-- Nothing has the id of the plan yet. -/
structure Admitting (id : String) (bridge : Bridge) : Prop where
  flight : Flight bridge
  unused : bridge.operations[id]? = none

theorem operationCapacity_keeps (id : String) : Keeps answers operationCapacity (Admitting id) := by
  refine .known fun bridge ⟨flight, unused⟩ => .thenRead ?_
  refine .branch (fun _ => .thenCheck ⟨flight, unused⟩ fun victim picked => .updated ?_) fun _ =>
    .done ⟨flight, unused⟩
  obtain ⟨old, there, past⟩ := oldest_found (context_eq_ok.mp picked)
  have ended : ∀ operation, bridge.operations[victim]? = some operation →
      operation.active = false := by
    intro operation found
    obtain rfl := Option.some.inj (found.symm.trans there)
    simp only [evictable, Bool.and_eq_true, Bool.not_eq_true'] at past
    exact past.1
  refine ⟨flight.removeOperation ended, ?_⟩
  simp only [Bridge.removeOperation, erase_get, unused, ite_self]

/-- The operation that is accepted belongs to the repository of its plan. -/
theorem admission_keeps (client id : String) (shells : Nat) :
    Ensures answers (Admitting id) (admission client id shells)
      (fun admitted bridge => Admitting id bridge ∧
        Operation.In admitted.1.repository admitted.2.2) (Admitting id) := by
  refine .known fun bridge ⟨flight, unused⟩ => .thenAsk fun asked => .thenUpdate (.thenRead ?_)
  have pruned : Admitting id (bridge.prune (answers asked).now) := ⟨flight.prune _, unused⟩
  refine .thenCheck pruned fun _ _ => .thenCall (operationCapacity_keeps id) pruned ?_
  refine fun _ roomy admitting => .thenRead (.thenCheck admitting fun plan _ => ?_)
  refine .thenCheck admitting fun _ _ => .thenCall (contextOf_keeps _ client) admitting ?_
  refine fun record last ⟨same, _⟩ => .thenCheck same fun _ _ => .thenCheck same fun repo slot => ?_
  refine .thenCheck same fun _ _ => .thenCheck same fun service _ => .done ⟨same, rfl, ?_⟩
  exact admitting.flight.bindings _ repo (context_eq_ok.mp slot)

/-- The new operation is there, and nothing depends on it yet. -/
structure Executing (id : String) (operation : Operation) (bridge : Bridge) : Prop where
  flight : Flight bridge
  found : bridge.operations[id]? = some operation
  without : Flight (bridge.removeOperation id)

theorem Executing.stored {id : String} {operation : Operation} {bridge : Bridge}
    (executing : Executing id operation bridge) : Executing id operation bridge.stored :=
  ⟨executing.flight.stored, executing.found, executing.without.congr rfl rfl rfl rfl⟩

theorem Admitting.enters {id : String} {bridge : Bridge} (admitting : Admitting id bridge)
    (operation : Operation) : Executing id operation (bridge.setOperation id operation) := by
  refine ⟨admitting.flight.addOperation operation admitting.unused, by simp [Bridge.setOperation],
    admitting.flight.kept (.of_eq rfl) (.of_eq rfl) (fun other old there active => ?_)
      fun _ member => member⟩
  have different : id ≠ other := by
    rintro rfl
    simp [admitting.unused] at there
  refine ⟨old, ?_, active, rfl⟩
  simpa [Bridge.removeOperation, Bridge.setOperation, erase_get, insert_get, different] using there

theorem dispatch_keeps {id service : String} {plan : Plan} {rows cols : Nat} {operation : Operation}
    (inside : Operation.In plan.repository operation) :
    Ensures answers (Executing id operation) (dispatch id service plan rows cols)
      (fun _ => Flight) Flight := by
  refine .known fun bridge ⟨flight, found, _⟩ => .thenUpdate (.thenUpdate (.thenRead ?_))
  have planless : Flight { bridge with plans := bridge.plans.erase id } := flight.congr rfl rfl rfl rfl
  have marked : Flight (Bridge.setBusy plan.repository (some id)
      { bridge with plans := bridge.plans.erase id }) := by
    refine planless.setBusy fun repo other _ same => ?_
    obtain rfl := Option.some.inj same
    exact .inr ⟨operation, found, inside⟩
  refine .branch (fun _ => .updated (marked.congr rfl rfl rfl rfl)) fun _ => .thenAsk fun asked => ?_
  -- No executor is left: the mark goes first, then the operation ends.
  refine .thenUpdate (.thenUpdate ?_)
  have unmarked : Flight (Bridge.setBusy plan.repository none (Bridge.setBusy plan.repository (some id)
      { bridge with plans := bridge.plans.erase id })) := marked.setBusy (by simp)
  refine .thenAttempt persist_keeps_flight (unmarked.endModified _ found ?_)
    (fun _ _ flight => .done flight) fun _ _ flight => .done flight
  intro repo slot
  rw [inside.repository] at slot
  simp only [Bridge.setBusy, modify_get, if_true, Option.map_map, Option.map_eq_some_iff] at slot
  obtain ⟨_, _, rfl⟩ := slot
  simp

theorem execute_keeps (client id : String) (rows cols shells : Nat) :
    Keeps answers (execute client id rows cols shells) Flight := by
  refine .known fun bridge flight => .thenRead ?_
  cases unused : bridge.operations[id]? with
  | some operation => exact .done flight
  | none =>
    refine .thenAsk fun asked => .thenCheck flight fun _ _ => ?_
    have admitting : Admitting id bridge := ⟨flight, unused⟩
    refine .thenCall ((admission_keeps client id shells).relax fun _ => Admitting.flight) admitting ?_
    rintro ⟨plan, service, operation⟩ accepted ⟨admitting, inside⟩
    have stored : ∀ bridge, Executing id operation bridge → Executing id operation bridge.stored :=
      fun _ => Executing.stored
    refine .thenUpdate (.thenAttempt (persist_keeps stored) (admitting.enters operation) ?_ ?_)
    · refine fun _ durable executing => .thenCall (dispatch_keeps inside) executing ?_
      refine fun _ last flight => .thenCall (operationOf_keeps id) flight ?_
      exact fun _ _ known => .done known.1
    · exact fun _ last executing => .thenUpdate (.failing executing.without)

/-! ## Requests about an operation -/

/-- The operation that a request found. -/
structure Holding (id : String) (operation : Operation) (bridge : Bridge) : Prop where
  flight : Flight bridge
  found : bridge.operations[id]? = some operation

theorem Holding.set {id : String} {before after : Operation} {bridge : Bridge}
    (holding : Holding id before bridge) (sustained : Sustained before after) :
    Holding id after (bridge.setOperation id after) :=
  ⟨holding.flight.setOperation holding.found sustained, by simp [Bridge.setOperation]⟩

theorem persist_keeps_holding (id : String) (operation : Operation) :
    Keeps answers persist (Holding id operation) :=
  persist_keeps fun _ holding => ⟨holding.flight.stored, holding.found⟩

theorem operationOf_holds (id : String) :
    Ensures answers Flight (operationOf id) (Holding id) Flight :=
  (operationOf_keeps id).consequence (fun _ flight => flight) (fun _ _ known => ⟨known.1, known.2⟩)
    fun _ flight => flight

theorem reconcile_keeps (id : String) (repository : Repository) :
    Keeps answers (reconcile id repository) Flight := by
  refine .known fun bridge flight => .thenCall (operationOf_holds id) flight ?_
  refine fun saved last holding => .thenCheck holding.flight fun _ _ => ?_
  refine .thenCheck holding.flight fun _ _ => .thenUpdate ?_
  refine .thenAttempt (persist_keeps_holding id _) (holding.set (reconciled_sustained saved)) ?_ ?_
  · exact fun _ _ holding => .updated (holding.flight.congr rfl rfl rfl rfl)
  · have back : Sustained (reconciled saved) saved := ⟨⟨rfl, rfl, rfl, rfl, rfl⟩, rfl⟩
    exact fun _ _ holding => .thenUpdate (.failing (holding.set back).flight)

theorem cancelOperation_keeps (client id : String) (epoch : Nat) (force : Bool) :
    Keeps answers (cancelOperation client id epoch force) Flight := by
  refine .known fun bridge flight => .thenCall (operationOf_holds id) flight ?_
  refine fun operation last holding => .thenAsk fun asked => .thenUpdate ?_
  have cancelled := holding.set
    (cancel_requested operation client epoch force (answers asked).terminal).toSustained
  refine .thenCheck cancelled.flight fun _ _ => ?_
  refine .thenAttempt (persist_keeps_holding id _) cancelled (fun _ _ holding => .done holding.flight) ?_
  exact fun _ _ holding => .updated (holding.set (noted_quiet _ _).sustained).flight

theorem operationRequest_keeps (client id : String) (request : OperationRequest) :
    Keeps answers (operationRequest client id request) Flight := by
  cases request with
  | attach takeover =>
    refine .known fun bridge flight => .thenCall (operationOf_holds id) flight ?_
    refine fun operation last holding => .thenCheck holding.flight fun after attached => .updated ?_
    exact (holding.set (attach_requested attached).toSustained).flight
  | detach epoch =>
    refine .known fun bridge flight => .thenCall (operationOf_holds id) flight ?_
    refine fun operation last holding => .thenCheck holding.flight fun after detached => .updated ?_
    exact (holding.set (detach_requested detached).toSustained).flight
  | input epoch bytes =>
    refine .known fun bridge flight => .thenCheck flight fun _ _ => ?_
    refine .thenCall (operationOf_holds id) flight fun operation last holding => ?_
    refine .thenCheck holding.flight fun _ _ => .thenAsk fun asked => ?_
    exact .checked holding.flight fun _ _ => holding.flight
  | resize epoch =>
    refine .known fun bridge flight => .thenCall (operationOf_holds id) flight ?_
    refine fun operation last holding => .thenCheck holding.flight fun target _ => ?_
    cases target with
    | none => exact .done holding.flight
    | some pid =>
      refine .thenAsk fun asked => ?_
      exact .checked holding.flight fun _ _ => holding.flight
  | cancel epoch force => exact cancelOperation_keeps client id epoch force
  | reconcile repository => exact reconcile_keeps id repository

/-! ## Events of the workers -/

/-- The job has left, and its place in the queue, if it had one, still has its slot. -/
structure Landing (id : String) (job : Job) (bridge : Bridge) : Prop where
  flight : Flight bridge
  vacant : bridge.jobs[id]? = none
  homed : id ∈ bridge.queue → Homed bridge job

theorem Landing.congr {id : String} {job : Job} {before after : Bridge}
    (landing : Landing id job before) (repos : after.repos = before.repos)
    (jobs : after.jobs = before.jobs) (operations : after.operations = before.operations)
    (queue : after.queue = before.queue) : Landing id job after := by
  refine ⟨landing.flight.congr repos jobs operations queue, jobs ▸ landing.vacant, ?_⟩
  simpa only [Homed, repos, queue] using landing.homed

section Landing

variable {id : String} {job : Job}

theorem evictPlan_keeps (bytes : Nat) : Keeps answers (evictPlan bytes) (Landing id job) := by
  refine .known fun bridge landing => .thenRead ?_
  refine .branch (fun _ => .thenCheck landing fun _ _ => .thenUpdate (.done ?_)) fun _ =>
    .done landing
  exact landing.congr rfl rfl rfl rfl

theorem publish_keeps (owner : Job) (payload : Payload) :
    Keeps answers (publish owner payload) (Landing id job) := by
  cases payload with
  | openContext =>
    refine .known fun bridge landing => .thenCheck landing fun _ _ => .thenRead ?_
    refine .thenCheck landing fun _ _ => .thenUpdate (.done ?_)
    exact landing.congr rfl rfl rfl rfl
  | plan plan =>
    refine .known fun bridge landing => .thenCheck landing fun _ _ => .thenAsk fun asked => ?_
    refine .thenCheck landing fun bytes _ => .thenRead ?_
    refine .thenCall (Ensures.iterate (evictPlan_keeps bytes) _) landing fun _ last landing => ?_
    exact .thenUpdate (.done (landing.congr rfl rfl rfl rfl))
  | display content =>
    exact .known fun bridge landing => .thenCheck landing fun _ _ => .done landing

theorem publishIn_keeps (valid : Bool) (owner : Job) (result : Result Payload) :
    Keeps answers (publishIn valid owner result) (Landing id job) := by
  refine .known fun bridge landing => .thenCheck landing fun _ _ => ?_
  refine .thenCheck landing fun payload _ => .thenCall (publish_keeps owner payload) landing ?_
  exact fun value last landing => .thenAsk fun asked => .thenCheck landing fun _ _ => .done landing

theorem evictResult_keeps (bytes : Nat) : Keeps answers (evictResult bytes) (Landing id job) := by
  refine .known fun bridge landing => .thenRead (.branch (fun _ => ?_) fun _ => .done landing)
  split
  · rename_i victim picked
    obtain ⟨old, there, ended⟩ := oldest_found picked
    have shut : ∀ job, bridge.jobs[victim]? = some job → job.info.state.isOpen = false := by
      intro job found
      obtain rfl := Option.some.inj (found.symm.trans there)
      simpa using ended
    refine .thenUpdate (.done ⟨landing.flight.removeJob shut, ?_, landing.homed⟩)
    simp only [Bridge.removeJob, erase_get, landing.vacant, ite_self]
  · exact .done landing

theorem roomFor_keeps (bytes fuel : Nat) : Keeps answers (roomFor bytes fuel) (Landing id job) := by
  induction fuel with
  | zero => exact .known fun bridge landing => .done landing
  | succ fuel inductionHypothesis =>
    refine (evictResult_keeps bytes).bind fun room => ?_
    cases room with
    | none => exact inductionHypothesis
    | some room => exact .known fun bridge landing => .done landing

end Landing

theorem Landing.returns {id : String} {job after : Job} {bridge : Bridge}
    (landing : Landing id job bridge) (repository : after.repository = job.repository)
    (generation : after.generation = job.generation) : Flight (bridge.setJob id after) :=
  landing.flight.addJob landing.vacant fun member => by
    simpa only [Homed, repository, generation] using landing.homed member

theorem ended_keeps (job : Job) (result : Result GitValue) (bytes : Nat) :
    (job.ended result bytes).repository = job.repository ∧
      (job.ended result bytes).generation = job.generation := by
  cases result <;> exact ⟨rfl, rfl⟩

theorem settleJob_keeps (id : String) (job : Job) (published : Result GitValue) :
    Ensures answers (Landing id job) (settleJob id job published) (fun _ => Flight) Flight := by
  refine .known fun bridge landing => .thenAsk fun asked => .thenRead ?_
  obtain ⟨repository, generation⟩ := ended_keeps job published (answers asked).size
  refine .thenCall ((roomFor_keeps _ _).relax fun _ => Landing.flight) landing ?_
  refine fun fits last landing => ?_
  refine .branch (fun _ => .updated (landing.returns repository generation)) fun _ => ?_
  exact .thenAsk fun asked => .updated (landing.returns repository generation)

theorem readEvent_keeps (id : String) (service : Option String) (result : Result Payload) :
    Keeps answers (readEvent id service result) Flight := by
  refine .known fun bridge flight => .thenUpdate (.thenRead ?_)
  replace flight : Flight { bridge with reading := bridge.reading - 1 } := flight.congr rfl rfl rfl rfl
  split
  · exact .done flight
  · rename_i job found
    refine .thenAsk fun asked => .thenUpdate (.thenUpdate ?_)
    have landing : Landing id job (landIn job id service (answers asked).now
        (Bridge.removeJob id { bridge with reading := bridge.reading - 1 })) :=
      ⟨flight.landed found service _, by simp [landIn, Bridge.removeJob],
        fun member => (flight.queued id member job found).landed job id service _⟩
    exact .thenAttempt (publishIn_keeps _ job result) landing
      (fun _ last landing => .tail (settleJob_keeps id job _) landing)
      fun _ last landing => .tail (settleJob_keeps id job _) landing

theorem terminalEvent_keeps (id : String) (pid : Host.Pid) :
    Keeps answers (terminalEvent id pid) Flight := by
  refine .known fun bridge flight => .thenCall (operationOf_holds id) flight ?_
  refine fun operation last holding => .thenAsk fun asked => .thenUpdate ?_
  have installed := holding.set (install_sustained operation pid (answers asked).terminal)
  refine .thenAttempt (persist_keeps_holding id _) installed (fun _ _ holding => .done holding.flight) ?_
  exact fun _ _ holding => .updated (holding.set (noted_quiet _ _).sustained).flight

/-- The outcome of an operation is recorded together with the end of its mark. -/
theorem Flight.concluded {bridge : Bridge} (flight : Flight bridge) {id : String}
    {operation finished : Operation} (found : bridge.operations[id]? = some operation)
    (kept : Kept operation finished) : Holding id finished (Bridge.clearBusy
      finished.info.repository.gitDir id (bridge.setOperation id finished)) := by
  refine ⟨?_, by simp [Bridge.clearBusy, Bridge.setOperation]⟩
  refine (flight.clearBusy finished.info.repository.gitDir id).endSet finished found ?_
  intro repo slot
  simp only [Bridge.clearBusy, kept.repository, modify_get, if_true, Option.map_eq_some_iff] at slot
  obtain ⟨old, _, rfl⟩ := slot
  split
  · simp
  · assumption

theorem executedEvent_keeps (id : String) (result : Result OperationResult) :
    Keeps answers (executedEvent id result) Flight := by
  refine .known fun bridge flight => .thenRead ?_
  cases found : bridge.operations[id]? with
  | none => exact .done flight
  | some operation =>
    refine .thenAsk fun asked => .thenUpdate (.thenUpdate ?_)
    refine .thenAttempt (persist_keeps_holding id _)
      (flight.concluded found (finish_kept operation _ _))
      (fun _ _ holding => .done holding.flight) ?_
    exact fun _ _ holding => .updated (holding.set (noted_quiet _ _).sustained).flight

theorem nextEvent_keeps : Keeps answers nextEvent Flight := by
  refine .known fun bridge flight => .thenRead ?_
  cases bridge.workers.events with
  | nil => exact .done flight
  | cons event rest =>
    refine .thenUpdate ?_
    have popped : Flight { bridge with workers.events := rest } := flight.congr rfl rfl rfl rfl
    cases event with
    | read id service result => exact .tail (readEvent_keeps id service result) popped
    | terminal id pid => exact .tail (terminalEvent_keeps id pid) popped
    | executed id result => exact .tail (executedEvent_keeps id result) popped

/-! ## The death of a pool -/

theorem sweepReads_keeps : Keeps answers sweepReads Flight := by
  refine .known fun bridge flight => .thenRead ?_
  refine .branch (fun _ => .updated ?_) fun _ => .done flight
  constructor
  · intro key repo slot
    simp only [Std.TreeMap.getElem?_map, Option.map_eq_some_iff] at slot
    obtain ⟨old, there, rfl⟩ := slot
    have binding := flight.bindings key old there
    split <;> exact binding
  · intro key repo id slot marked
    simp only [Std.TreeMap.getElem?_map, Option.map_eq_some_iff] at slot
    obtain ⟨old, there, rfl⟩ := slot
    -- a mark that is left is not the id of a job
    split at marked
    · simp at marked
    · rename_i foreign
      rw [if_neg foreign]
      cases flight.busy key old id there marked with
      | inl owed =>
        obtain ⟨job, known, _⟩ := owed
        have present : bridge.jobs.contains id = true := by
          simp [Std.TreeMap.contains_eq_isSome_getElem?, known]
        simp [marked, present] at foreign
      | inr going => exact .inr going
  · simp

/-- Marks of operations that the sweep has ended go with them. -/
theorem Flight.swept {bridge : Bridge} (flight : Flight bridge) {change : String → Operation → Operation}
    (kept : ∀ id operation, Kept operation (change id operation)) :
    Flight { bridge with
      executionsDead := true
      operations := bridge.operations.map change
      repos := bridge.repos.map fun _ repo =>
        if repo.busy.any (fun id => (bridge.operations.map change)[id]?.any (!·.active)) then
          { repo with busy := none }
        else repo } := by
  constructor
  · intro key repo slot
    simp only [Std.TreeMap.getElem?_map, Option.map_eq_some_iff] at slot
    obtain ⟨old, there, rfl⟩ := slot
    have binding := flight.bindings key old there
    split <;> exact binding
  · intro key repo id slot marked
    simp only [Std.TreeMap.getElem?_map, Option.map_eq_some_iff] at slot
    obtain ⟨old, there, rfl⟩ := slot
    split at marked
    · simp at marked
    · rename_i going
      rw [if_neg going]
      cases flight.busy key old id there marked with
      | inl owed => exact .inl owed
      | inr earlier =>
        obtain ⟨operation, known, inside⟩ := earlier
        refine .inr ⟨change id operation, by simp [known], ?_, ?_⟩
        · simpa [marked, known] using going
        · exact (congrArg _ (kept id operation).repository).trans inside.repository
  · intro id member job found
    obtain ⟨repo, home, accepted⟩ := flight.queued id member job found
    simp only [Homed, Std.TreeMap.getElem?_map, home, Option.map_some]
    refine ⟨_, rfl, ?_⟩
    split <;> exact accepted

theorem sweepExecutions_keeps : Keeps answers sweepExecutions Flight := by
  refine .known fun bridge flight => .thenRead ?_
  refine .branch (fun _ => .thenAsk fun asked => .thenUpdate (.thenUpdate ?_)) fun _ => .done flight
  have swept := flight.swept fun _ operation => abandoned_kept operation (answers asked).now
  refine .branch (fun _ => ?_) fun _ => .done swept
  exact .thenAttempt persist_keeps_flight swept (fun _ _ flight => .done flight)
    fun _ _ flight => .done flight

/-! ## Operations, screens and queued jobs -/

theorem forgetScreens_keeps : Keeps answers forgetScreens Flight := by
  refine .known fun bridge flight => .thenRead (.updated (flight.mapOperations fun id operation => ?_))
  split
  · exact (forgetScreen_requested operation).toSustained
  · exact .refl operation

theorem inventories_keeps (host : Host.Pid) (answer : Host.Pid → Host.ChildAnswer)
    (report : Host.Report) : Keeps answers (inventories host answer report) Flight :=
  .known fun _ flight => .updated (flight.mapOperations fun _ operation =>
    (inventory_steady operation host answer report).toSustained)

theorem dispatchRead_keeps : Keeps answers dispatchRead Flight := by
  refine .known fun bridge flight => .thenRead (.branch (fun _ => ?_) fun _ => .done flight)
  dsimp only
  split
  · rename_i id next
    refine .thenUpdate ?_
    have waiting : Flight { bridge with queue := bridge.queue.erase id } :=
      flight.kept (.of_eq rfl) (.of_eq rfl) (.of_eq rfl) fun _ => List.mem_of_mem_erase
    refine .thenCheck waiting fun job found => .thenCheck waiting fun repo slot => ?_
    refine .thenCheck waiting fun task _ => ?_
    replace found := context_eq_ok.mp found
    replace slot := context_eq_ok.mp slot
    refine .branch (fun _ => .thenUpdate (.thenUpdate (.thenUpdate (.updated ?_)))) fun _ => .updated ?_
    · have homed : Homed bridge job :=
        flight.queued id (List.mem_of_find?_eq_some next) job found
      have handed : Flight { bridge with
          queue := bridge.queue.erase id
          workers.reads := bridge.workers.reads ++
            [⟨id, repo.binding, repo.service, repo.environment, task⟩] } :=
        waiting.congr rfl rfl rfl rfl
      have started := handed.startJob { job with task := none, info.state := .running }
        found homed rfl rfl rfl
      exact started.congr rfl rfl rfl rfl
    · refine waiting.endJob found ?_ rfl rfl
      intro other there
      obtain rfl := Option.some.inj (slot.symm.trans there)
      have idle := List.find?_some next
      simp only [found, slot, Option.any_some, Option.isNone_iff_eq_none] at idle
      simp [idle]
  · exact .done flight

/-! ## Starting -/

/-- A bridge that has not served anything. -/
structure Fresh (bridge : Bridge) : Prop where
  repos : bridge.repos = ∅
  queue : bridge.queue = []

theorem Fresh.flight {bridge : Bridge} (fresh : Fresh bridge) : Flight bridge where
  bindings key repo slot := by simp [fresh.repos] at slot
  busy key repo id slot := by simp [fresh.repos] at slot
  queued id member := by simp [fresh.queue] at member

theorem restoreRecord_fresh (record : GitRecord) :
    Keeps answers (restoreRecord formats record) Fresh := by
  refine .known fun bridge fresh => .thenCheck fresh fun _ _ => .thenCheck fresh fun _ _ => ?_
  refine .thenCheck fresh fun _ _ => .thenCheck fresh fun _ _ => .thenCheck fresh fun _ _ => ?_
  refine .thenCheck fresh fun _ _ => .thenRead (.thenCheck fresh fun _ _ => ?_)
  exact .thenAsk fun asked => .updated ⟨fresh.repos, fresh.queue⟩

theorem openBridge_fresh : Keeps answers (openBridge formats) Fresh := by
  have restored : Keeps answers (restoreLedger formats) Fresh := by
    refine .known fun bridge fresh => .thenAsk fun asked => .thenCheck fresh fun _ _ => .thenRead ?_
    split
    · exact .done fresh
    · refine .thenCheck fresh fun _ _ => ?_
      exact .tail (Ensures.forM (restoreRecord_fresh formats) _) fresh
  have started : Keeps answers (newBridge formats) Fresh :=
    restored.bind fun _ => persist_keeps fun _ fresh => ⟨fresh.repos, fresh.queue⟩
  refine started.bind fun _ => ?_
  exact .known fun bridge fresh => .updated ⟨fresh.repos, fresh.queue⟩

/-! ## Ticks of operations -/

/-- The leader of an operation is reaped whose executor is gone, with the repository still
    marked. -/
structure Orphaned (bridge : Bridge) (id : String) (terminal : Operation.TickAnswers)
    (receiver : Bool) (operation : Operation) : Prop where
  found : bridge.operations[id]? = some operation
  completion : operation.completion = true
  gone : receiver = false
  reaps : Operation.reaps operation terminal = true
  marked : ∃ repo, bridge.repos[operation.info.repository.gitDir]? = some repo ∧
    repo.busy = some id

theorem Flight.ticked {bridge : Bridge} (flight : Flight bridge) {id : String}
    {operation : Operation} {terminal : Operation.TickAnswers} {receiver : Bool}
    {outcome : Operation × Option CommandOutcome} (found : bridge.operations[id]? = some operation)
    (ticked : Ticked operation terminal receiver outcome)
    (attended : ¬ Orphaned bridge id terminal receiver operation) :
    Flight (bridge.setOperation id outcome.1) := by
  cases ticked with
  | quiet after quiet => exact flight.setOperation found quiet.sustained
  | reaped pid seen exit settled _ _ _ _ reaps quiet =>
    by_cases lost : operation.completion = true ∧ receiver = false
    · refine flight.endSet _ found fun repo slot marked => attended ?_
      exact ⟨found, lost.1, lost.2, reaps, repo, slot, marked⟩
    · exact flight.setOperation found (reapedWith_sustained quiet lost)

theorem tickOperation_keeps {id : String} {terminal : Operation.TickAnswers} {receiver : Bool}
    {bridge : Bridge} (flight : Flight bridge)
    (attended : ∀ operation, ¬ Orphaned bridge id terminal receiver operation) :
    Flight (tickOperation id terminal receiver answers 0 bridge).state := by
  have kept : Ensures answers (· = bridge) (tickOperation id terminal receiver)
      (fun _ => Flight) Flight := by
    have reading : Ensures answers (· = bridge) (operationOf id)
        (fun operation state => state = bridge ∧ state.operations[id]? = some operation) Flight :=
      (operationOf_keeps id).relax fun _ same => same ▸ flight
    refine .thenCall reading rfl fun operation state ⟨same, found⟩ => ?_
    subst same
    have last := flight.ticked found (tick_cases operation terminal receiver) (attended operation)
    exact .thenUpdate (.done last)
  exact kept.last 0 rfl

/-! ## Runs -/

/-- No leader is reaped in the step that `Orphaned` describes. -/
def Attended (life : Life) (event : LifeEvent) : Prop :=
  ∀ world id terminal streams, life = .up world → event = .stepped ⟨.tick id terminal, streams⟩ →
    ∀ operation, ¬ Orphaned world.bridge id terminal (world.receives id) operation

/-- Every repository is busy with a job that is pending or running, or with an operation
    that has not finished. -/
def SingleFlight (bridge : Bridge) : Prop :=
  ∀ (key : PathBuf) (repo : GitRepo) (id : String), bridge.repos[key]? = some repo →
    repo.busy = some id →
      (∃ job, bridge.jobs[id]? = some job ∧
        (job.info.state = .pending ∨ job.info.state = .running)) ∨
      ∃ operation, bridge.operations[id]? = some operation ∧ operation.active = true

theorem Flight.single {bridge : Bridge} (flight : Flight bridge) : SingleFlight bridge := by
  intro key repo id slot marked
  cases flight.busy key repo id slot marked with
  | inl owed =>
    obtain ⟨job, known, owes⟩ := owed
    refine .inl ⟨job, known, ?_⟩
    have isOpen := owes.isOpen
    cases state : job.info.state <;> simp_all [JobState.isOpen]
  | inr going =>
    obtain ⟨operation, known, inside⟩ := going
    exact .inr ⟨operation, known, inside.active⟩

theorem Flight.beside {before after : Bridge} (flight : Flight before)
    (beside : Beside before after) : Flight after := by
  rw [beside]
  exact flight.congr rfl rfl rfl rfl

theorem acts_ensures {world : World} {α : Type} {op : Op α} {pre inv : Bridge → Prop}
    (triple : Ensures answers pre op (fun _ => inv) inv) (holds : pre world.bridge) :
    inv (world.acts op answers).bridge :=
  triple.last 0 holds

theorem step_flight {world next : World} {event : GitEvent} (flight : Flight world.bridge)
    (enabled : world.Enabled event) (taken : world.step formats event = some next)
    (attended : ∀ id terminal, event.act = .tick id terminal →
      ∀ operation, ¬ Orphaned world.bridge id terminal (world.receives id) operation) :
    Flight next.bridge := by
  cases actor : Act.byActor event.act with
  | false => exact flight.beside (step_beside formats taken actor)
  | true =>
    obtain ⟨act, answers⟩ := event
    cases act <;> simp only [Act.byActor, Bool.false_eq_true] at actor <;>
      simp only [World.step] at taken
    case submit client task =>
      split at taken
      · cases taken
      · obtain rfl := Option.some.inj taken
        have accepting : Accepting (fun id => ∃ asked, (answers asked).newId = id) world.bridge :=
          ⟨flight, fun id supplied => supplied.elim fun asked same => same ▸ (enabled asked).job⟩
        exact acts_ensures (submit_keeps formats client task) accepting
    case execute client id rows cols shells =>
      split at taken
      · cases taken
      · obtain rfl := Option.some.inj taken
        exact acts_ensures (execute_keeps client id rows cols shells) flight
    case operation client id request =>
      obtain rfl := Option.some.inj taken
      exact acts_ensures (operationRequest_keeps client id request) flight
    case event =>
      obtain rfl := Option.some.inj taken
      exact acts_ensures (nextEvent_keeps) flight
    case sweepReads =>
      obtain rfl := Option.some.inj taken
      exact acts_ensures (sweepReads_keeps) flight
    case sweepExecutions =>
      obtain rfl := Option.some.inj taken
      exact acts_ensures (sweepExecutions_keeps) flight
    case tick id terminal =>
      split at taken
      · obtain rfl := Option.some.inj taken
        rw [ticked_bridge]
        exact tickOperation_keeps flight (attended id terminal rfl)
      · cases taken
    case forgetScreens =>
      obtain rfl := Option.some.inj taken
      exact acts_ensures (forgetScreens_keeps) flight
    case dispatchRead =>
      obtain rfl := Option.some.inj taken
      exact acts_ensures (dispatchRead_keeps) flight
    case inventory host answer report =>
      obtain rfl := Option.some.inj taken
      exact acts_ensures (inventories_keeps host answer report) flight

/-- What an attended life keeps. -/
def InFlight : Life → Prop
  | .up world => Flight world.bridge
  | .down _ => True

theorem life_flight : ((lifeSystem formats).restrict Attended).Invariant InFlight where
  initial life initial := by
    cases life with
    | up world => exact absurd initial nofun
    | down disk => trivial
  preserved before event after holds taken := by
    obtain ⟨step, attended⟩ := taken
    cases step with
    | opened revisions succeeded =>
      exact (openBridge_fresh formats).last 0 ⟨rfl, rfl⟩ |>.flight
    | @stepped world next event enabled taken =>
      refine step_flight formats holds enabled taken fun id terminal acts operation => ?_
      obtain ⟨act, answers⟩ := event
      obtain rfl : act = .tick id terminal := acts
      exact attended world id terminal answers rfl rfl operation
    | cut | cutOpening => trivial

/-- Where no leader of an abandoned operation is reaped under its mark, every mark names a
    job that is open or an operation that goes on. -/
theorem single_flight {world : World}
    (reachable : ((lifeSystem formats).restrict Attended).Reachable (.up world)) :
    SingleFlight world.bridge :=
  ((life_flight formats).reachable reachable : Flight world.bridge).single

/-! ## A repository that stays busy -/

def sampleFormats : GitFormats where
  isUuid _ := true
  environmentDigest _ := "environment"

/-- Everything succeeds, and new ids are `id`. -/
def sampleAnswers (id : String) : Answers where
  now := 0
  newId := id
  write := .ok ()
  replaced := false
  read := .ok ()
  runUse := .ok ()
  binding := .ok (⟨["/", "work"], ["/", "work", ".git"], ["/", "work", ".git"]⟩, true)
  validate := .ok ()
  resolve := .ok (.other "plan")
  size := 1
  terminal := .ok ()

def sampleRepository : Repository := ⟨["/", "work"], ["/", "work", ".git"], ["/", "work", ".git"]⟩

def sampleRevision : Revision := ⟨sampleRepository, .detached "oid", "index"⟩

/-- A reviewed switch of branches. -/
def samplePlan : OperationPlan := ⟨⟨"plan", .switchBranch, sampleRepository, sampleRevision⟩, "git"⟩

def sampleWorld : World :=
  .opened (openDisk sampleFormats "host" [] fun _ => sampleAnswers "id").state
    fun _ => sampleRevision

theorem sampleWorld_reachable {condition : Life → LifeEvent → Prop}
    (meets : condition (.down []) (.opened "host" fun _ => sampleAnswers "id")) :
    ((lifeSystem sampleFormats).restrict condition).Reachable (.up sampleWorld) :=
  ⟨.down [], [_], Nat.zero_le 1, System.Run.single ⟨.opened (fun _ => sampleRevision) rfl, meets⟩⟩

/-- A context is being opened. -/
def openingSteps : List (Act × Answers) :=
  [(.submit "client" (.openContext "project" none []), sampleAnswers "context"),
   (.dispatchRead, sampleAnswers "id")]

theorem attended_tickless {life : Life} {act : Act} {streams : Nat → Answers}
    (tickless : ∀ id terminal, act ≠ .tick id terminal) :
    Attended life (.stepped ⟨act, streams⟩) := by
  intro world id terminal others _ same
  injection same with same
  injection same with same
  exact absurd same (tickless id terminal)

theorem single_flight_sample : ∃ (world : World) (repo : GitRepo),
    world.bridge.repos[sampleRepository.gitDir]? = some repo ∧ repo.busy = some "context" ∧
      SingleFlight world.bridge := by
  have busy : (plays sampleFormats sampleWorld openingSteps).any
      (·.bridge.repos[sampleRepository.gitDir]?.any (·.busy == some "context")) = true := by
    decide
  obtain ⟨world, played, marked⟩ := (Option.any_eq_true _ _).mp busy
  obtain ⟨repo, slot, marked⟩ := (Option.any_eq_true _ _).mp marked
  have tickless : ∀ step ∈ openingSteps, ∀ id terminal, step.1 ≠ .tick id terminal := by
    simp [openingSteps]
  have start : ((lifeSystem sampleFormats).restrict Attended).Reachable (.up sampleWorld) :=
    sampleWorld_reachable fun _ _ _ _ _ same => by cases same
  have reachable := plays_reachable sampleFormats played
    (fun step member _ => attended_tickless (tickless step member)) start
  exact ⟨world, repo, slot, by simpa using marked, single_flight sampleFormats reachable⟩

/-- The reader has closed, and the leader has exited. -/
def sampleTick : Operation.TickAnswers where
  now := 0
  status := .ok ⟨0, true, none⟩
  observed := .ok (some ⟨0, none⟩)
  closed := .ok ⟨0, true, none⟩
  closedAgain := .ok ⟨0, true, none⟩
  endCollection := .ok ()
  snapshot := .ok ⟨0, false, none⟩
  reapExit := .ok ⟨0, none⟩

/-- A plan is reviewed and executed; its executor dies while it waits for the outcome, then
    the process exits and is reaped. -/
def abandonedSteps : List (Act × Answers) :=
  openingSteps ++
  [(.takeRead 0, sampleAnswers "id"),
   (.read 0 (some "git") (.ok .openContext), sampleAnswers "id"),
   (.event, sampleAnswers "id"),
   (.submit "client" (.other "context"), sampleAnswers "job"),
   (.dispatchRead, sampleAnswers "id"),
   (.takeRead 0, sampleAnswers "id"),
   (.read 0 none (.ok (.plan samplePlan)), sampleAnswers "id"),
   (.event, sampleAnswers "id"),
   (.execute "client" "plan" 24 80 0, sampleAnswers "id"),
   (.ready sampleRepository.identity, sampleAnswers "id"),
   (.takeExecution 0, sampleAnswers "id"),
   (.reserve 0, sampleAnswers "id"),
   (.revalidate 0, sampleAnswers "id"),
   (.run 0, sampleAnswers "id"),
   (.spawn 0 7, sampleAnswers "id"),
   (.announce 0, sampleAnswers "id"),
   (.event, sampleAnswers "id"),
   (.executorDies 0, sampleAnswers "id"),
   (.exit "plan", sampleAnswers "id"),
   (.tick "plan" sampleTick, sampleAnswers "id"),
   (.inventory 1 (fun _ => ⟨.ok .exited, .ok (), .ok ()⟩) ⟨[⟨"plan", 7⟩], [], true, none⟩,
    sampleAnswers "id"),
   (.tick "plan" sampleTick, sampleAnswers "id")]

/-- A mark that nothing will clear: its operation has finished. -/
def leaks (world : World) : Bool :=
  world.bridge.repos[sampleRepository.gitDir]?.any (·.busy == some "plan") &&
    world.bridge.jobs["plan"]?.isNone &&
    world.bridge.operations["plan"]?.all (!·.active)

/-- The tick that reaps the process of an abandoned operation ends the operation and leaves
    its repository busy. -/
theorem abandoned_repository_stays_busy : ∃ world,
    (lifeSystem sampleFormats).Reachable (.up world) ∧ ¬ SingleFlight world.bridge := by
  have leaked : (plays sampleFormats sampleWorld abandonedSteps).any leaks = true := by
    decide +kernel
  obtain ⟨world, played, leaked⟩ := (Option.any_eq_true _ _).mp leaked
  have start : ((lifeSystem sampleFormats).restrict fun _ _ => True).Reachable (.up sampleWorld) :=
    sampleWorld_reachable trivial
  have reachable := plays_reachable sampleFormats played (fun _ _ _ => trivial) start
  refine ⟨world, System.restrict_reachable reachable, fun single => ?_⟩
  simp only [leaks, Bool.and_eq_true, Option.any_eq_true, beq_iff_eq] at leaked
  obtain ⟨⟨⟨repo, slot, marked⟩, unknown⟩, ended⟩ := leaked
  cases single _ repo "plan" slot marked with
  | inl owed =>
    obtain ⟨job, known, _⟩ := owed
    simp [known] at unknown
  | inr going =>
    obtain ⟨operation, known, active⟩ := going
    simp [known, active] at ended

end Idk.Git
