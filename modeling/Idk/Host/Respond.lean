import Idk.Logic.Transition
import Idk.Protocol.Envelope
import Mathlib.Data.Set.Defs

/-!
# Answering one envelope

`Actor::respond_checked` (`host/actor.rs`): identity of the client, the retry cache, and
the execution of the request.  The cache and the client identities are touched by this
function only; everything else the actor owns is `host : σ`, which `execute` may change.

The clock is read when the envelope is validated, when the client is seen, once for every
cached entry, and it has some value when the request is executed: `Readings`.
-/

namespace Idk.Respond

open Idk.Logic (System)

/-- `MAX_CACHE_BYTES`. -/
def maxCacheBytes : Nat := 4 * 1024 * 1024

/-- `MAX_CACHED_REPLY`. -/
def maxCachedReply : Nat := 64 * 1024

abbrev RetryKey := String × String

def RetryKey.compare : RetryKey → RetryKey → Ordering :=
  compareLex (compareOn Prod.fst) (compareOn Prod.snd)

instance : Std.TransCmp RetryKey.compare :=
  inferInstanceAs (Std.TransCmp (compareLex (compareOn Prod.fst) (compareOn Prod.snd)))

instance : Std.LawfulEqCmp RetryKey.compare where
  eq_of_compare {left right} equal := by
    have both : left.1 = right.1 ∧ left.2 = right.2 := by
      simpa [RetryKey.compare, compareLex, compareOn] using equal
    exact Prod.ext both.1 both.2

structure CacheEntry (δ φ : Type) where
  fingerprint : φ
  deadline : Nat
  response : Response δ
  bytes : Nat

abbrev Cache (δ φ : Type) := Std.TreeMap RetryKey (CacheEntry δ φ) RetryKey.compare

structure ClientIdentity where
  pid : Nat
  seen : Nat

/-- The fields of the actor that `respond_checked` itself reads and writes. -/
structure Actor (σ δ φ : Type) where
  hostInstance : String
  clients : BTreeMap ClientIdentity
  cache : Cache δ φ
  host : σ

variable {σ ρ δ φ : Type}

/-- `execute`, and what decides whether a silent client is remembered: a session or a Git
    operation takes its input from it. -/
structure Service (σ ρ δ φ : Type) extends RequestFormats ρ δ φ where
  execute : σ → String → ρ → Nat → Result δ × σ
  ownsInput : σ → String → Bool

/-- The clock while one envelope is answered, in milliseconds. -/
structure Readings where
  checked : Nat
  seen : Nat
  evicted : RetryKey → Nat
  executed : Nat

/-- No reading goes back. -/
structure Readings.Ordered (readings : Readings) (clock : Nat) : Prop where
  checked : clock ≤ readings.checked
  seen : readings.checked ≤ readings.seen
  evicted : ∀ key, readings.seen ≤ readings.evicted key
  executed : ∀ key, readings.evicted key ≤ readings.executed

structure Delivery (ρ : Type) where
  envelope : Envelope ρ
  pid : Nat
  readings : Readings

/-- What answering leaves behind; `performed` says whether `execute` was called. -/
structure Answer (σ δ φ : Type) where
  result : Result (Response δ)
  actor : Actor σ δ φ
  performed : Bool

variable [DecidableEq φ] (service : Service σ ρ δ φ)

namespace Actor

/-- The envelope is valid now and meant for this host. -/
def accepts (actor : Actor σ δ φ) (envelope : Envelope ρ) (now : Nat) : Result Unit := do
  envelope.validate service.toRequestFormats now
  if !service.isHello envelope.request then
    ensure (envelope.hostInstance == some actor.hostInstance)
      "host instance changed; reconnect explicitly; request was not replayed"

/-- `clients.retain(..)`. -/
def retainClients (actor : Actor σ δ φ) (now : Nat) : BTreeMap ClientIdentity :=
  actor.clients.filter fun id client =>
    now - client.seen < 30000 || service.ownsInput actor.host id

/-- The client identities once the sender has been recognised. -/
def identify (clients : BTreeMap ClientIdentity) (envelope : Envelope ρ) (pid now : Nat) :
    Result (BTreeMap ClientIdentity) := do
  match clients[envelope.clientId]? with
  | some client =>
    ensure (client.pid == pid) "client identity belongs to a different process"
    pure (clients.insert envelope.clientId { client with seen := now })
  | none =>
    ensure (service.isHello envelope.request) "client identity expired; reconnect explicitly"
    ensure (clients.size < 256) "host client identity limit reached"
    pure (clients.insert envelope.clientId { pid := pid, seen := now })

/-- `cache.retain(..)`: the clock is read anew for every entry. -/
def evict (cache : Cache δ φ) (clock : RetryKey → Nat) : Cache δ φ :=
  cache.filter fun key entry => clock key < entry.deadline

/-- The actor when the retry cache is consulted. -/
def consulted (actor : Actor σ δ φ) (clients : BTreeMap ClientIdentity) (readings : Readings) :
    Actor σ δ φ :=
  { actor with clients := clients, cache := evict actor.cache readings.evicted }

def room (cache : Cache δ φ) : Bool :=
  cache.size < 1024 && (cache.values.map (·.bytes)).sum + maxCachedReply ≤ maxCacheBytes

/-- The response to an executed request. -/
def reply (actor : Actor σ δ φ) (requestId : String) (outcome : Result δ) : Response δ :=
  match outcome with
  | .ok data => (Response.success requestId data).withHost actor.hostInstance
  | .error error => (Response.failure requestId error).withHost actor.hostInstance

/-- A response too long for the cache is replaced before it is cached. -/
def cachedReply (actor : Actor σ δ φ) (requestId : String) (response : Response δ) : Response δ :=
  if maxCachedReply < service.encodedLength response then
    (Response.failure requestId
      "mutation accepted but response exceeds retry cache limit; inspect current state").withHost
        actor.hostInstance
  else
    response

/-- The part of `respond_checked` that follows a miss in the cache. -/
def perform (actor : Actor σ δ φ) (envelope : Envelope ρ) (executed : Nat) : Answer σ δ φ :=
  let (outcome, host) := service.execute actor.host envelope.clientId envelope.request executed
  let response := actor.reply envelope.requestId outcome
  if service.isMutating envelope.request then
    let response := actor.cachedReply service envelope.requestId response
    let entry : CacheEntry δ φ :=
      { fingerprint := service.fingerprint envelope
        deadline := envelope.deadlineMs
        response := response
        bytes := service.encodedLength response }
    { result := .ok response
      actor := { actor with host := host, cache := actor.cache.insert envelope.key entry }
      performed := true }
  else
    { result := .ok response, actor := { actor with host := host }, performed := true }

/-- The part of `respond_checked` that follows the eviction. -/
def lookup (actor : Actor σ δ φ) (envelope : Envelope ρ) (executed : Nat) : Answer σ δ φ :=
  match actor.cache[envelope.key]? with
  | some cached =>
    { result := do
        ensure (cached.fingerprint == service.fingerprint envelope)
          "request ID was reused with different content; no mutation accepted"
        pure cached.response
      actor := actor
      performed := false }
  | none =>
    if service.isMutating envelope.request && !room actor.cache then
      { result := .error "host retry cache is full; no mutation accepted"
        actor := actor
        performed := false }
    else
      actor.perform service envelope executed

def respondChecked (actor : Actor σ δ φ) (delivery : Delivery ρ) : Answer σ δ φ :=
  let readings := delivery.readings
  match actor.accepts service delivery.envelope readings.checked with
  | .error message => { result := .error message, actor := actor, performed := false }
  | .ok () =>
    let retained := actor.retainClients service readings.seen
    match identify service retained delivery.envelope delivery.pid readings.seen with
    | .error message =>
      { result := .error message
        actor := { actor with clients := retained }
        performed := false }
    | .ok clients =>
      (actor.consulted clients readings).lookup service delivery.envelope readings.executed

end Actor

/-! ## The actor among its clients -/

/-- A mutation that was executed. -/
structure Execution (ρ δ : Type) where
  envelope : Envelope ρ
  time : Nat
  response : Result (Response δ)

structure World (σ ρ δ φ : Type) where
  actor : Actor σ δ φ
  clock : Nat
  executions : List (Execution ρ δ)

inductive Event (σ ρ : Type) where
  | delivered (delivery : Delivery ρ)
  /-- Anything the actor does between two envelopes. -/
  | advanced (host : σ)

namespace World

def deliver (world : World σ ρ δ φ) (delivery : Delivery ρ) : World σ ρ δ φ :=
  let answer := world.actor.respondChecked service delivery
  let execution : Execution ρ δ :=
    { envelope := delivery.envelope
      time := delivery.readings.executed
      response := answer.result }
  { actor := answer.actor
    clock := delivery.readings.executed
    executions :=
      if answer.performed && service.isMutating delivery.envelope.request then
        execution :: world.executions
      else
        world.executions }

/-- A new host: nothing cached, no client known. -/
def Initial (world : World σ ρ δ φ) : Prop :=
  world.actor.clients = ∅ ∧ world.actor.cache = ∅ ∧ world.executions = []

end World

inductive Step (sent : Set (Envelope ρ)) :
    World σ ρ δ φ → Event σ ρ → World σ ρ δ φ → Prop where
  | delivered {world : World σ ρ δ φ} {delivery : Delivery ρ}
      (known : delivery.envelope ∈ sent) (ordered : delivery.readings.Ordered world.clock) :
      Step sent world (.delivered delivery) (world.deliver service delivery)
  | advanced {world : World σ ρ δ φ} {host : σ} :
      Step sent world (.advanced host) { world with actor := { world.actor with host := host } }

end Idk.Respond
