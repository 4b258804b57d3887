import Idk.Git.Tick
import Idk.Logic.Tables
import Idk.Verified.Git.Operation
import Idk.Verified.Git.Rules

/-!
# One piece of work for each repository

A repository is marked busy with the id of a job that was handed to a reader, or of an
operation that was handed to an executor.  `Flight` ties every mark to its job or
operation, and every queued job to the slot of its repository; all requests and all
parts of a tick keep it, except the tick that reaps the process of an operation whose
executor is gone.
-/

namespace Idk.Git

open Idk.Logic
open Idk.Logic.Procedure (Ensures)

/-! ## The invariant -/

/-- The job still owes its result to the repository slot of this generation. -/
structure Job.Owes (key : PathBuf) (generation : String) (job : Job) : Prop where
  isOpen : job.info.state.isOpen = true
  repository : job.repository = key
  generation : job.generation = generation

/-- The operation is going on in the repository. -/
structure Operation.In (key : PathBuf) (operation : Operation) : Prop where
  active : operation.active = true
  repository : operation.info.repository.gitDir = key

/-- What makes a repository busy with `id`. -/
def Justified (bridge : Bridge) (key : PathBuf) (generation id : String) : Prop :=
  (∃ job, bridge.jobs[id]? = some job ∧ Job.Owes key generation job) ∨
    ∃ operation, bridge.operations[id]? = some operation ∧ Operation.In key operation

/-- The slot a queued job was accepted for. -/
def Homed (bridge : Bridge) (job : Job) : Prop :=
  ∃ repo, bridge.repos[job.repository]? = some repo ∧ repo.generation = job.generation

structure Flight (bridge : Bridge) : Prop where
  bindings : ∀ (key : PathBuf) (repo : GitRepo), bridge.repos[key]? = some repo →
    repo.binding.gitDir = key
  busy : ∀ (key : PathBuf) (repo : GitRepo) (id : String), bridge.repos[key]? = some repo →
    repo.busy = some id → Justified bridge key repo.generation id
  queued : ∀ id ∈ bridge.queue, ∀ job : Job, bridge.jobs[id]? = some job → Homed bridge job

/-! ## Changes that keep it -/

/-- The slots are the same, except that marks may have been removed. -/
structure SameSlots (before after : Bridge) : Prop where
  back : ∀ (key : PathBuf) (repo : GitRepo), after.repos[key]? = some repo → ∃ old : GitRepo,
    before.repos[key]? = some old ∧ repo.binding = old.binding ∧ repo.generation = old.generation ∧
    (repo.busy = old.busy ∨ repo.busy = none)
  forth : ∀ (key : PathBuf) (old : GitRepo), before.repos[key]? = some old →
    ∃ repo : GitRepo, after.repos[key]? = some repo ∧ repo.generation = old.generation

/-- No job is new, and none that is open has gone. -/
structure SameJobs (before after : Bridge) : Prop where
  back : ∀ (id : String) (job : Job), after.jobs[id]? = some job →
    ∃ old : Job, before.jobs[id]? = some old ∧ job.repository = old.repository ∧
      job.generation = old.generation
  forth : ∀ (id : String) (old : Job), before.jobs[id]? = some old → old.info.state.isOpen = true →
    ∃ job : Job, after.jobs[id]? = some job ∧ job.info.state.isOpen = true ∧
      job.repository = old.repository ∧ job.generation = old.generation

/-- No operation that is going on has gone. -/
def SameOperations (before after : Bridge) : Prop :=
  ∀ (id : String) (old : Operation), before.operations[id]? = some old → old.active = true →
    ∃ operation : Operation, after.operations[id]? = some operation ∧ operation.active = true ∧
      operation.info.repository = old.info.repository

theorem SameSlots.of_eq {before after : Bridge} (same : after.repos = before.repos) :
    SameSlots before after :=
  ⟨fun _ repo found => ⟨repo, same ▸ found, rfl, rfl, .inl rfl⟩,
    fun _ old found => ⟨old, same ▸ found, rfl⟩⟩

theorem SameJobs.of_eq {before after : Bridge} (same : after.jobs = before.jobs) :
    SameJobs before after :=
  ⟨fun _ job found => ⟨job, same ▸ found, rfl, rfl⟩,
    fun _ old found isOpen => ⟨old, same ▸ found, isOpen, rfl, rfl⟩⟩

theorem SameOperations.of_eq {before after : Bridge} (same : after.operations = before.operations) :
    SameOperations before after :=
  fun _ old found active => ⟨old, same ▸ found, active, rfl⟩

theorem Justified.kept {before after : Bridge} {key : PathBuf} {generation id : String}
    (justified : Justified before key generation id) (jobs : SameJobs before after)
    (operations : SameOperations before after) : Justified after key generation id := by
  cases justified with
  | inl owed =>
    obtain ⟨job, found, owes⟩ := owed
    obtain ⟨new, here, isOpen, repository, same⟩ := jobs.forth id job found owes.isOpen
    exact .inl ⟨new, here, isOpen, repository.trans owes.repository, same.trans owes.generation⟩
  | inr going =>
    obtain ⟨operation, found, inside⟩ := going
    obtain ⟨new, here, active, repository⟩ := operations id operation found inside.active
    exact .inr ⟨new, here, active, repository ▸ inside.repository⟩

/-- The frame rule of the invariant. -/
theorem Flight.kept {before after : Bridge} (flight : Flight before)
    (slots : SameSlots before after) (jobs : SameJobs before after)
    (operations : SameOperations before after) (queue : ∀ id ∈ after.queue, id ∈ before.queue) :
    Flight after where
  bindings key repo found := by
    obtain ⟨old, there, binding, _⟩ := slots.back key repo found
    rw [binding]
    exact flight.bindings key old there
  busy key repo id found marked := by
    obtain ⟨old, there, _, generation, busy⟩ := slots.back key repo found
    cases busy with
    | inr idle => simp [marked] at idle
    | inl same =>
      rw [generation]
      exact (flight.busy key old id there (same ▸ marked)).kept jobs operations
  queued id member job found := by
    obtain ⟨old, there, repository, generation⟩ := jobs.back id job found
    obtain ⟨repo, home, accepted⟩ := flight.queued id (queue id member) old there
    obtain ⟨new, here, same⟩ := slots.forth old.repository repo home
    exact ⟨new, repository ▸ here, (same.trans accepted).trans generation.symm⟩

/-- Nothing that the invariant reads has changed. -/
theorem Flight.congr {before after : Bridge} (flight : Flight before)
    (repos : after.repos = before.repos) (jobs : after.jobs = before.jobs)
    (operations : after.operations = before.operations) (queue : after.queue = before.queue) :
    Flight after :=
  flight.kept (.of_eq repos) (.of_eq jobs) (.of_eq operations) fun _ member => queue ▸ member

/-- An operation is replaced by the same piece of work. -/
theorem Flight.setOperation {bridge : Bridge} (flight : Flight bridge) {id : String}
    {before after : Operation} (found : bridge.operations[id]? = some before)
    (sustained : Sustained before after) : Flight (bridge.setOperation id after) := by
  refine flight.kept (.of_eq rfl) (.of_eq rfl) (fun other old there active => ?_)
    fun _ member => member
  by_cases same : id = other
  · subst same
    obtain rfl := Option.some.inj (found.symm.trans there)
    exact ⟨after, by simp [Bridge.setOperation], sustained.active.trans active, sustained.repository⟩
  · exact ⟨old, by simpa [Bridge.setOperation, insert_get, same] using there, active, rfl⟩

/-- Every operation is replaced by the same piece of work. -/
theorem Flight.mapOperations {bridge : Bridge} (flight : Flight bridge)
    {change : String → Operation → Operation}
    (sustained : ∀ id operation, Sustained operation (change id operation)) :
    Flight { bridge with operations := bridge.operations.map change } := by
  refine flight.kept (.of_eq rfl) (.of_eq rfl) (fun other old there active => ?_)
    fun _ member => member
  exact ⟨change other old, by simp [there], (sustained other old).active.trans active,
    (sustained other old).repository⟩

/-- A job that is not open goes. -/
theorem Flight.removeJob {bridge : Bridge} (flight : Flight bridge) {id : String}
    (ended : ∀ job, bridge.jobs[id]? = some job → job.info.state.isOpen = false) :
    Flight (bridge.removeJob id) := by
  refine flight.kept (.of_eq rfl) ⟨fun other job found => ?_, fun other old there isOpen => ?_⟩
    (.of_eq rfl) fun _ member => member
  · simp only [Bridge.removeJob, erase_get] at found
    split at found
    · simp at found
    · exact ⟨job, found, rfl, rfl⟩
  · by_cases same : id = other
    · subst same
      simp [ended old there] at isOpen
    · exact ⟨old, by simp [Bridge.removeJob, erase_get, same, there], isOpen, rfl, rfl⟩

/-- An operation that is over goes. -/
theorem Flight.removeOperation {bridge : Bridge} (flight : Flight bridge) {id : String}
    (ended : ∀ operation, bridge.operations[id]? = some operation → operation.active = false) :
    Flight (bridge.removeOperation id) := by
  refine flight.kept (.of_eq rfl) (.of_eq rfl) (fun other old there active => ?_)
    fun _ member => member
  by_cases same : id = other
  · subst same
    simp [ended old there] at active
  · exact ⟨old, by simp [Bridge.removeOperation, erase_get, same, there], active, rfl⟩

theorem Flight.prune {bridge : Bridge} (flight : Flight bridge) (now : Nat) :
    Flight (bridge.prune now) := by
  refine flight.kept (.of_eq rfl) ⟨fun id job found => ?_, fun id old there isOpen => ?_⟩
    (.of_eq rfl) fun _ member => member
  · simp only [Bridge.prune, Std.TreeMap.getElem?_filter', Option.filter_eq_some_iff] at found
    exact ⟨job, found.1, rfl, rfl⟩
  · refine ⟨old, ?_, isOpen, rfl, rfl⟩
    simp [Bridge.prune, Option.filter_eq_some_iff, there, isOpen]

/-- A slot that is neither busy nor waited for goes. -/
theorem Flight.removeRepo {bridge : Bridge} (flight : Flight bridge) {key : PathBuf}
    (unqueued : bridge.queued key = false) : Flight (bridge.removeRepo key) where
  bindings other repo found := by
    simp only [Bridge.removeRepo, erase_get] at found
    split at found
    · simp at found
    · exact flight.bindings other repo found
  busy other repo id found marked := by
    simp only [Bridge.removeRepo, erase_get] at found
    split at found
    · simp at found
    · exact (flight.busy other repo id found marked).kept (.of_eq rfl) (.of_eq rfl)
  queued id member job found := by
    obtain ⟨repo, home, accepted⟩ := flight.queued id member job found
    refine ⟨repo, ?_, accepted⟩
    have elsewhere : key ≠ job.repository := by
      intro same
      have waits : bridge.queued key = true := by
        refine List.any_eq_true.mpr ⟨id, member, ?_⟩
        have there : bridge.jobs[id]? = some job := found
        simp [there, same]
      simp [waits] at unqueued
    simpa [Bridge.removeRepo, erase_get, elsewhere] using home

/-- A new slot. -/
theorem Flight.addRepo {bridge : Bridge} (flight : Flight bridge) {key : PathBuf} {repo : GitRepo}
    (absent : bridge.repos[key]? = none) (binding : repo.binding.gitDir = key)
    (idle : repo.busy = none) : Flight (bridge.setRepo key repo) where
  bindings other found there := by
    simp only [Bridge.setRepo, insert_get] at there
    split at there
    · obtain rfl := Option.some.inj there
      exact binding.trans ‹_›
    · exact flight.bindings other found there
  busy other found id there marked := by
    simp only [Bridge.setRepo, insert_get] at there
    split at there
    · obtain rfl := Option.some.inj there
      simp [idle] at marked
    · exact (flight.busy other found id there marked).kept (.of_eq rfl) (.of_eq rfl)
  queued id member job found := by
    obtain ⟨old, home, accepted⟩ := flight.queued id member job found
    refine ⟨old, ?_, accepted⟩
    have different : key ≠ job.repository := by
      intro same
      simp [← same, absent] at home
    simpa [Bridge.setRepo, insert_get, different] using home

/-- Marks change at one slot, to something that is justified there. -/
theorem Flight.setBusy {bridge : Bridge} (flight : Flight bridge) {key : PathBuf}
    {busy : Option String}
    (justified : ∀ repo id, bridge.repos[key]? = some repo → busy = some id →
      Justified bridge key repo.generation id) : Flight (bridge.setBusy key busy) where
  bindings other repo found := by
    simp only [Bridge.setBusy, modify_get] at found
    split at found
    · obtain ⟨old, there, rfl⟩ := Option.map_eq_some_iff.mp found
      exact flight.bindings other old there
    · exact flight.bindings other repo found
  busy other repo id found marked := by
    simp only [Bridge.setBusy, modify_get] at found
    split at found
    · rename_i same
      subst same
      obtain ⟨old, there, rfl⟩ := Option.map_eq_some_iff.mp found
      exact (justified old id there marked).kept (.of_eq rfl) (.of_eq rfl)
    · exact (flight.busy other repo id found marked).kept (.of_eq rfl) (.of_eq rfl)
  queued id member job found := by
    obtain ⟨repo, home, accepted⟩ := flight.queued id member job found
    simp only [Homed, Bridge.setBusy, modify_get, home, Option.map_some]
    split
    · exact ⟨_, rfl, accepted⟩
    · exact ⟨repo, rfl, accepted⟩

/-- A mark is removed. -/
theorem Flight.clearBusy {bridge : Bridge} (flight : Flight bridge) (key : PathBuf) (id : String) :
    Flight (bridge.clearBusy key id) := by
  have slots : SameSlots bridge (bridge.clearBusy key id) := by
    constructor
    · intro other repo found
      simp only [Bridge.clearBusy, modify_get] at found
      split at found
      · obtain ⟨old, there, rfl⟩ := Option.map_eq_some_iff.mp found
        refine ⟨old, there, ?_⟩
        split <;> simp
      · exact ⟨repo, found, rfl, rfl, .inl rfl⟩
    · intro other old there
      simp only [Bridge.clearBusy, modify_get, there, Option.map_some]
      split
      · refine ⟨_, rfl, ?_⟩
        split <;> rfl
      · exact ⟨old, rfl, rfl⟩
  exact flight.kept slots (.of_eq rfl) (.of_eq rfl) fun _ member => member

/-- A new operation. -/
theorem Flight.addOperation {bridge : Bridge} (flight : Flight bridge) {id : String}
    (operation : Operation) (unused : bridge.operations[id]? = none) :
    Flight (bridge.setOperation id operation) := by
  refine flight.kept (.of_eq rfl) (.of_eq rfl) (fun other old there active => ?_)
    fun _ member => member
  have different : id ≠ other := by
    rintro rfl
    simp [unused] at there
  exact ⟨old, by simpa [Bridge.setOperation, insert_get, different] using there, active, rfl⟩

/-- An operation that marks nothing may change in any way. -/
theorem Flight.endOperation {before after : Bridge} (flight : Flight before) {id : String}
    {operation : Operation} (found : before.operations[id]? = some operation)
    (unmarked : ∀ repo, before.repos[operation.info.repository.gitDir]? = some repo →
      repo.busy ≠ some id) (repos : after.repos = before.repos) (jobs : after.jobs = before.jobs)
    (queue : after.queue = before.queue)
    (others : ∀ other, id ≠ other → after.operations[other]? = before.operations[other]?) :
    Flight after where
  bindings := repos ▸ flight.bindings
  queued := by
    simp only [Homed, repos, jobs, queue]
    exact flight.queued
  busy key repo other slot marked := by
    rw [repos] at slot
    cases flight.busy key repo other slot marked with
    | inl owed => exact .inl (jobs ▸ owed)
    | inr going =>
      obtain ⟨known, there, inside⟩ := going
      have different : id ≠ other := by
        rintro rfl
        obtain rfl := Option.some.inj (found.symm.trans there)
        exact unmarked repo (inside.repository ▸ slot) marked
      exact .inr ⟨known, (others other different).trans there, inside⟩

theorem Flight.endModified {bridge : Bridge} (flight : Flight bridge) {id : String}
    {operation : Operation} (change : Operation → Operation)
    (found : bridge.operations[id]? = some operation)
    (unmarked : ∀ repo, bridge.repos[operation.info.repository.gitDir]? = some repo →
      repo.busy ≠ some id) : Flight (bridge.modifyOperation id change) := by
  refine flight.endOperation found unmarked rfl rfl rfl fun other different => ?_
  simp [Bridge.modifyOperation, modify_get, different]

theorem Flight.endSet {bridge : Bridge} (flight : Flight bridge) {id : String}
    {operation : Operation} (after : Operation) (found : bridge.operations[id]? = some operation)
    (unmarked : ∀ repo, bridge.repos[operation.info.repository.gitDir]? = some repo →
      repo.busy ≠ some id) : Flight (bridge.setOperation id after) := by
  refine flight.endOperation found unmarked rfl rfl rfl fun other different => ?_
  simp [Bridge.setOperation, insert_get, different]

/-- A job that marks nothing may end. -/
theorem Flight.endJob {bridge : Bridge} (flight : Flight bridge) {id : String} {job after : Job}
    (found : bridge.jobs[id]? = some job)
    (unmarked : ∀ repo, bridge.repos[job.repository]? = some repo → repo.busy ≠ some id)
    (repository : after.repository = job.repository) (generation : after.generation = job.generation) :
    Flight (bridge.setJob id after) where
  bindings := flight.bindings
  busy key repo other slot marked := by
    cases flight.busy key repo other slot marked with
    | inl owed =>
      obtain ⟨known, there, owes⟩ := owed
      have different : id ≠ other := by
        rintro rfl
        obtain rfl := Option.some.inj (found.symm.trans there)
        exact unmarked repo (owes.repository ▸ slot) marked
      exact .inl ⟨known, by simpa [Bridge.setJob, insert_get, different] using there, owes⟩
    | inr going => exact .inr going
  queued other member known there := by
    simp only [Bridge.setJob, insert_get] at there
    split at there
    · obtain rfl := Option.some.inj there
      obtain ⟨repo, home, accepted⟩ := flight.queued id (‹id = other› ▸ member) job found
      exact ⟨repo, repository ▸ home, generation ▸ accepted⟩
    · exact flight.queued other member known there

/-- A job that is handed out is open, and marks the slot it was accepted for. -/
theorem Flight.startJob {bridge : Bridge} (flight : Flight bridge) {id : String} {job : Job}
    (after : Job) (found : bridge.jobs[id]? = some job) (homed : Homed bridge job)
    (isOpen : after.info.state.isOpen = true) (repository : after.repository = job.repository)
    (generation : after.generation = job.generation) :
    Flight ((bridge.setBusy job.repository (some id)).setJob id after) := by
  have started : Flight (bridge.setJob id after) := by
    refine flight.kept (.of_eq rfl) ⟨fun other known there => ?_, fun other old there going => ?_⟩
      (.of_eq rfl) fun _ member => member
    · simp only [Bridge.setJob, insert_get] at there
      split at there
      · obtain rfl := Option.some.inj there
        exact ⟨job, ‹id = other› ▸ found, repository, generation⟩
      · exact ⟨known, there, rfl, rfl⟩
    · by_cases same : id = other
      · subst same
        obtain rfl := Option.some.inj (found.symm.trans there)
        exact ⟨after, by simp [Bridge.setJob], isOpen, repository, generation⟩
      · exact ⟨old, by simpa [Bridge.setJob, insert_get, same] using there, going, rfl, rfl⟩
  -- The job runs before its slot is marked: the two changes do not meet.
  have marked : Flight ((bridge.setJob id after).setBusy job.repository (some id)) := by
    refine started.setBusy fun repo other there same => ?_
    obtain rfl := Option.some.inj same
    obtain ⟨home, known, accepted⟩ := homed
    obtain rfl := Option.some.inj (known.symm.trans there)
    have owes : Job.Owes job.repository home.generation after :=
      ⟨isOpen, repository, generation.trans accepted.symm⟩
    exact .inl ⟨after, by simp [Bridge.setJob], owes⟩
  exact marked

theorem Homed.landed {bridge : Bridge} {job : Job} (homed : Homed bridge job) (owner : Job)
    (id : String) (service : Option String) (now : Nat) :
    Homed (landIn owner id service now (bridge.removeJob id)) job := by
  obtain ⟨repo, home, accepted⟩ := homed
  simp only [Homed, landIn, Bridge.removeJob, modify_get, home, Option.map_some]
  split
  · refine ⟨_, rfl, ?_⟩
    split <;> exact accepted
  · exact ⟨repo, rfl, accepted⟩

/-- A job goes together with its mark. -/
theorem Flight.landed {bridge : Bridge} (flight : Flight bridge) {id : String} {job : Job}
    (found : bridge.jobs[id]? = some job) (service : Option String) (now : Nat) :
    Flight (landIn job id service now (bridge.removeJob id)) where
  bindings key repo slot := by
    simp only [landIn, Bridge.removeJob, modify_get] at slot
    split at slot
    · obtain ⟨old, there, rfl⟩ := Option.map_eq_some_iff.mp slot
      have binding := flight.bindings key old there
      split <;> exact binding
    · exact flight.bindings key repo slot
  busy key repo other slot marked := by
    -- The slot before, where the mark is another one than the job's.
    have earlier : ∃ old : GitRepo, bridge.repos[key]? = some old ∧ old.busy = some other ∧
        repo.generation = old.generation ∧
        (id = other → ¬ (job.repository = key ∧ old.generation = job.generation)) := by
      simp only [landIn, Bridge.removeJob, modify_get] at slot
      split at slot
      · obtain ⟨old, there, rfl⟩ := Option.map_eq_some_iff.mp slot
        refine ⟨old, there, ?_⟩
        split at marked
        · rename_i same
          simp only [same, if_true]
          dsimp only at marked
          split at marked
          · simp at marked
          · rename_i another
            simp only [marked, Option.some.injEq] at another
            exact ⟨marked, trivial, fun same => absurd same.symm another⟩
        · simp_all
      · simp_all
    obtain ⟨old, there, busy, generation, foreign⟩ := earlier
    rw [generation]
    cases flight.busy key old other there busy with
    | inl owed =>
      obtain ⟨known, job', owes⟩ := owed
      have different : id ≠ other := by
        rintro rfl
        obtain rfl := Option.some.inj (found.symm.trans job')
        exact foreign rfl ⟨owes.repository, owes.generation.symm⟩
      exact .inl ⟨known, by simpa [landIn, Bridge.removeJob, erase_get, different] using job', owes⟩
    | inr going => exact .inr going
  queued other member known there := by
    simp only [landIn, Bridge.removeJob, erase_get] at there
    split at there
    · simp at there
    · exact (flight.queued other member known there).landed job id service now

/-- A job under an id of no other one. -/
theorem Flight.addJob {bridge : Bridge} (flight : Flight bridge) {id : String} {job : Job}
    (unused : bridge.jobs[id]? = none) (homed : id ∈ bridge.queue → Homed bridge job) :
    Flight (bridge.setJob id job) where
  bindings := flight.bindings
  busy key repo other slot marked := by
    cases flight.busy key repo other slot marked with
    | inl owed =>
      obtain ⟨known, there, owes⟩ := owed
      have different : id ≠ other := by
        rintro rfl
        simp [unused] at there
      exact .inl ⟨known, by simpa [Bridge.setJob, insert_get, different] using there, owes⟩
    | inr going => exact .inr going
  queued other member known there := by
    simp only [Bridge.setJob, insert_get] at there
    split at there
    · obtain rfl := Option.some.inj there
      exact homed (‹id = other› ▸ member)
    · exact flight.queued other member known there

theorem Flight.enqueue {bridge : Bridge} (flight : Flight bridge) {id : String}
    (homed : ∀ job, bridge.jobs[id]? = some job → Homed bridge job) :
    Flight { bridge with queue := bridge.queue ++ [id] } where
  bindings := flight.bindings
  busy := flight.busy
  queued other member job found := by
    cases List.mem_append.mp member with
    | inl old => exact flight.queued other old job found
    | inr new => exact homed job (List.mem_singleton.mp new ▸ found)

end Idk.Git
