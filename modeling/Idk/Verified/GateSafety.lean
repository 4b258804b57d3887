import Idk.Gate.Custody
import Idk.Logic.Transition

/-!
# Safety of the source-use gate

Any number of parties call one gate and hold the leases it grants.  Since each
operation takes the lock once, an interleaving of the parties is a sequence of
operations on one gate; which party holds a lease does not matter to the gate, so
the leases outstanding are one list.
-/

namespace Idk.Verified

open Idk.Logic (System Holders)
open SourceGate

/-- The gate and every lease that some party still holds. -/
structure GateWorld where
  gate : SourceGate
  leases : List GateLease

inductive GateOp where
  | block (identity : PathBuf) (id reason : String)
  | unblock (identity : PathBuf) (id : String)
  | unavailable (identity : PathBuf)
  | ready (identity : PathBuf)
  | reserve (identity : PathBuf) (operation : String) (run : Option String)
  | drop (lease : GateLease)
deriving DecidableEq

/-- One operation; only a lease that is held can be dropped. -/
def GateWorld.apply (world : GateWorld) : GateOp → Option GateWorld
  | .block identity id reason => some { world with gate := world.gate.block identity id reason }
  | .unblock identity id => some { world with gate := world.gate.unblock identity id }
  | .unavailable identity => some { world with gate := world.gate.unavailable identity }
  | .ready identity => some { world with gate := world.gate.ready identity }
  | .reserve identity operation run =>
    match world.gate.reserve identity operation run with
    | .ok (gate, lease) => some { gate, leases := lease :: world.leases }
    | .error _ => some world
  | .drop lease =>
    if lease ∈ world.leases then
      some { gate := world.gate.drop lease, leases := world.leases.erase lease }
    else
      none

/-- Every interleaving, from a fresh gate on which nobody holds a lease. -/
def gateSystem : System GateWorld GateOp where
  init world := world = { gate := SourceGate.default, leases := [] }
  step world op next := world.apply op = some next

/-- The operation completes a mutation of `identity`: its lease is dropped. -/
def GateOp.completes (identity : PathBuf) : GateOp → Bool
  | .drop lease => lease.mutation && lease.identity == identity
  | _ => false

/-! ## One step -/

/-- What one operation can do: it changes readiness or blocks, refuses, grants a
    lease or drops one that is held. -/
theorem gate_step_cases {world next : GateWorld} {op : GateOp}
    (taken : gateSystem.step world op next) :
    (∃ identity change, next = { world with gate := world.gate.modify identity change } ∧
      (∀ state, (change state).runs = state.runs) ∧
      (∀ state, (change state).mutation = state.mutation) ∧
      (∀ state, (change state).generation = state.generation) ∧
      ∀ place, op.completes place = false) ∨
    (next = world ∧ ∀ place, op.completes place = false) ∨
    (∃ identity operation run lease, op = .reserve identity operation run ∧
      world.gate.reserve identity operation run = .ok (next.gate, lease) ∧
      next.leases = lease :: world.leases) ∨
    ∃ lease, op = .drop lease ∧ lease ∈ world.leases ∧
      next = { gate := world.gate.drop lease, leases := world.leases.erase lease } := by
  cases op with
  | block identity id reason =>
    cases taken
    exact .inl ⟨identity, _, rfl, fun _ => rfl, fun _ => rfl, fun _ => rfl, fun _ => rfl⟩
  | unblock identity id =>
    cases taken
    exact .inl ⟨identity, _, rfl, fun _ => rfl, fun _ => rfl, fun _ => rfl, fun _ => rfl⟩
  | unavailable identity =>
    cases taken
    exact .inl ⟨identity, _, rfl, fun _ => rfl, fun _ => rfl, fun _ => rfl, fun _ => rfl⟩
  | ready identity =>
    cases taken
    exact .inl ⟨identity, _, rfl, fun _ => rfl, fun _ => rfl, fun _ => rfl, fun _ => rfl⟩
  | reserve identity operation run =>
    simp only [gateSystem, GateWorld.apply] at taken
    split at taken
    · rename_i gate lease granted
      cases taken
      exact .inr (.inr (.inl ⟨identity, operation, run, lease, rfl, granted, rfl⟩))
    · cases taken
      exact .inr (.inl ⟨rfl, fun _ => rfl⟩)
  | drop lease =>
    simp only [gateSystem, GateWorld.apply, Option.ite_none_right_eq_some, Option.some.injEq]
      at taken
    exact .inr (.inr (.inr ⟨lease, rfl, taken.1, taken.2.symm⟩))

/-- Every lease outstanding is recorded, and every record is some lease outstanding. -/
theorem accounts_invariant :
    gateSystem.Invariant fun world => Accounts world.gate world.leases where
  initial world start := by
    cases start
    exact Accounts.initial
  preserved world op next accounts taken := by
    rcases gate_step_cases taken with ⟨identity, change, rfl, runs, mutation, _⟩ | ⟨rfl, _⟩ |
      ⟨identity, operation, run, lease, _, granted, leases⟩ | ⟨lease, _, member, rfl⟩
    · exact accounts.modify runs mutation
    · exact accounts
    · rw [leases]
      exact accounts.reserve granted
    · exact accounts.drop member

theorem generation_step {world next : GateWorld} {op : GateOp} (identity : PathBuf)
    (accounts : Accounts world.gate world.leases) (taken : gateSystem.step world op next) :
    (next.gate identity).generation =
      (world.gate identity).generation + if op.completes identity then 1 else 0 := by
  rcases gate_step_cases taken with ⟨place, change, rfl, _, _, kept, quiet⟩ | ⟨rfl, quiet⟩ |
    ⟨place, operation, run, lease, rfl, granted, _⟩ | ⟨lease, rfl, member, rfl⟩
  · simp only [quiet, Bool.false_eq_true, ↓reduceIte, Nat.add_zero]
    exact modify_field GateState.generation kept identity
  · simp [quiet]
  · obtain ⟨_, _, _, _, _, _, written⟩ := reserve_eq_ok.mp granted
    rw [written, modify_field GateState.generation]
    · rfl
    · intro state
      cases run <;> rfl
  · rw [drop_generation ((accounts.recorded lease).mp member)]
    simp [GateOp.completes]

/-- Over any run, a generation advances by the mutations completed in it. -/
theorem generation_counts {first last : GateWorld} {trace : List GateOp} (identity : PathBuf)
    (reachable : gateSystem.Reachable first) (run : gateSystem.Run first trace last) :
    (last.gate identity).generation =
      (first.gate identity).generation + trace.countP (·.completes identity) :=
  System.Run.counts accounts_invariant.preserved
    (fun _ _ _ accounts taken => generation_step identity accounts taken) run
    (accounts_invariant.reachable reachable)

/-! ## The abstract discipline -/

/-- Every operation on the gate is, at each identity, a step of the discipline. -/
theorem gate_simulates {world next : GateWorld} {op : GateOp}
    (before : Accounts world.gate world.leases) (after : Accounts next.gate next.leases)
    (taken : gateSystem.step world op next) (identity : PathBuf) :
    ∃ act, Holders.Step (before.holders identity) act (after.holders identity) ∧
      ∀ operation, act = .releaseExclusive operation →
        op = .drop { identity, operation, mutation := true } := by
  rcases gate_step_cases taken with ⟨place, change, rfl, runs, mutation, _⟩ | ⟨rfl, _⟩ |
    ⟨place, operation, run, lease, rfl, granted, _⟩ | ⟨lease, rfl, member, rfl⟩
  · refine ⟨.idle, ?_, by simp⟩
    rw [before.holders_eq after identity (modify_field GateState.runs runs identity)
      (modify_field GateState.mutation mutation identity)]
    exact .idle _
  · exact ⟨.idle, .idle _, by simp⟩
  · obtain ⟨act, step, shared⟩ := before.holders_reserve after identity granted
    exact ⟨act, step, fun token released => absurd released (shared token)⟩
  · obtain ⟨act, step, releases⟩ := before.holders_drop after identity member rfl
    exact ⟨act, step, fun token released => by rw [releases token released]⟩

/-- A reserved mutation stays the only user of its identity until its own lease
    is dropped. -/
theorem mutation_until_dropped {first last : GateWorld} {trace : List GateOp}
    {identity : PathBuf} {operation : String} (reachable : gateSystem.Reachable first)
    (run : gateSystem.Run first trace last)
    (reserved : (first.gate identity).mutation = some operation) :
    (last.gate identity).mutation = some operation ∨
      .drop { identity, operation, mutation := true } ∈ trace := by
  have kept := System.Run.keeps_until
    (fun world => Accounts world.gate world.leases)
    (fun world => (world.gate identity).mutation = some operation)
    (fun _ op _ => op = .drop { identity, operation, mutation := true })
    accounts_invariant.preserved
    (fun world op next accounts held taken => by
      obtain ⟨act, step, releases⟩ := gate_simulates accounts
        (accounts_invariant.preserved accounts taken) taken identity
      have writing : (accounts.holders identity).exclusive = some operation := held
      rcases Holders.exclusive_blocks writing step with same | released
      · left
        exact (congrArg Holders.exclusive same).trans held
      · exact .inr (releases operation released))
    run (accounts_invariant.reachable reachable) reserved
  rcases kept with still | ⟨before, op, after, _, _, split, _, _, dropped, _⟩
  · exact .inl still
  · right
    rw [split, dropped]
    simp

/-! ## Safety -/

/-- The gate is safe under every interleaving: leases and records agree, a
    mutation is alone, nothing is granted while the provider is not ready or the
    identity is blocked, a drop removes its own reservation only, and generations
    count completed mutations. -/
theorem source_gate_safety :
    (∀ world, gateSystem.Reachable world →
      (∀ identity, (world.leases.filter (·.identity = identity)).Perm
        ((world.gate identity).reservations identity)) ∧
      (∀ identity operation, (world.gate identity).mutation = some operation →
        (world.gate identity).runs.isEmpty = true ∧
        world.leases.filter (·.identity = identity) =
          [{ identity, operation, mutation := true }]) ∧
      (∀ identity operation run,
        (world.gate identity).providerReady = false ∨
          (world.gate identity).blocks.isEmpty = false →
        ∃ message, world.gate.reserve identity operation run = .error message) ∧
      (∀ lease ∈ world.leases,
        (∀ other, (world.gate.drop lease).Records other ↔
          world.gate.Records other ∧ other ≠ lease) ∧
        world.gate.drop lease = world.gate.modify lease.identity fun state =>
          if lease.mutation then
            { state with mutation := none, generation := state.generation + 1 }
          else
            { state with runs := state.runs.erase lease.operation }) ∧
      ∀ trace, gateSystem.Run { gate := SourceGate.default, leases := [] } trace world →
        ∀ identity, (world.gate identity).generation =
          trace.countP (·.completes identity)) ∧
    (∀ first trace last identity, gateSystem.Reachable first →
      gateSystem.Run first trace last →
      (first.gate identity).generation = (last.gate identity).generation →
      ∀ op ∈ trace, op.completes identity = false) := by
  refine ⟨fun world reachable => ?_, ?_⟩
  · have accounts := accounts_invariant.reachable reachable
    refine ⟨accounts.reservations_perm, ?_, ?_, ?_, ?_⟩
    · intro identity operation writing
      have alone := accounts.exclusive identity (by simp [writing])
      refine ⟨alone, ?_⟩
      have perm := accounts.reservations_perm identity
      have nothing : (world.gate identity).runs.keys = [] := by
        simpa [Std.TreeMap.isEmpty_keys, ← List.isEmpty_iff] using alone
      simp only [GateState.reservations, writing, nothing] at perm
      exact List.perm_singleton.mp (by simpa using perm)
    · intro identity operation run withheld
      cases attempt : world.gate.reserve identity operation run with
      | error message => exact ⟨message, rfl⟩
      | ok granted =>
        obtain ⟨next, lease⟩ := granted
        obtain ⟨ready, unblocked, _⟩ := reserve_eq_ok.mp attempt
        simp [ready, unblocked] at withheld
    · intro lease member
      have recorded := (accounts.recorded lease).mp member
      exact ⟨records_drop recorded, drop_eq recorded⟩
    · intro trace run identity
      have counted := generation_counts identity (System.Reachable.start rfl) run
      rw [counted, Nat.add_eq_right]
      rfl
  · intro first trace last identity reachable run same op member
    have counted := generation_counts identity reachable run
    have none : trace.countP (·.completes identity) = 0 := by omega
    simpa using List.countP_eq_zero.mp none op member

end Idk.Verified
