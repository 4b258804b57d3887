import Idk.Gate.SourceGate
import Idk.Logic.SharedExclusive
import Mathlib.Data.List.Nodup

/-!
# Outstanding leases and recorded reservations

`Accounts gate leases` says that `leases` are the reservations the gate records,
each held once.  It is kept by every operation when a granted lease joins the
list and a dropped one leaves it, whoever holds the leases.

**Main results:**

- `records_reserve`, `records_drop`: what a grant and a drop do to every record.
- `Accounts.reserve`, `Accounts.drop`: the correspondence is kept.
- `Accounts.refuses_mutation`: one outstanding lease keeps mutations out.
- `Accounts.holders_reserve`, `Accounts.holders_drop`: an identity follows the
  abstract readers-writer discipline.
-/

namespace Idk

open Idk.Logic (Holders)

/-- The gate holds the reservation that `lease` would release. -/
def SourceGate.Records (gate : SourceGate) (lease : GateLease) : Prop :=
  if lease.mutation then (gate lease.identity).mutation = some lease.operation
  else lease.operation ∈ (gate lease.identity).runs

/-- A mutation reservation and a run reservation never stand side by side. -/
def SourceGate.Exclusive (gate : SourceGate) : Prop :=
  ∀ identity, (gate identity).mutation.isSome → (gate identity).runs.isEmpty = true

/-- The leases outstanding are the reservations recorded. -/
structure Accounts (gate : SourceGate) (leases : List GateLease) : Prop where
  nodup : leases.Nodup
  recorded : ∀ lease, lease ∈ leases ↔ gate.Records lease
  exclusive : gate.Exclusive

namespace SourceGate

theorem records_run {gate : SourceGate} {identity : PathBuf} {operation : String} :
    gate.Records { identity, operation, mutation := false } ↔
      operation ∈ (gate identity).runs := by
  simp [Records]

theorem records_mutation {gate : SourceGate} {identity : PathBuf} {operation : String} :
    gate.Records { identity, operation, mutation := true } ↔
      (gate identity).mutation = some operation := by
  simp [Records]

/-- Records depend on the two reservation fields of their own identity only. -/
theorem records_congr {gate next : SourceGate} {lease : GateLease}
    (runs : (next lease.identity).runs = (gate lease.identity).runs)
    (mutation : (next lease.identity).mutation = (gate lease.identity).mutation) :
    next.Records lease ↔ gate.Records lease := by
  simp only [Records, runs, mutation]

/-! ## Grants -/

section Grant

variable {gate next : SourceGate} {identity : PathBuf} {operation : String}
  {run : Option String} {lease : GateLease}

/-- The granted reservation was not recorded before. -/
theorem reserve_fresh (granted : gate.reserve identity operation run = .ok (next, lease)) :
    ¬ gate.Records lease := by
  obtain ⟨_, _, idle, _, absent, rfl, _⟩ := reserve_eq_ok.mp granted
  cases run with
  | none => simp [Records, idle]
  | some name => simpa [Records, ← Std.TreeMap.contains_iff_mem] using absent

theorem reserve_identity (granted : gate.reserve identity operation run = .ok (next, lease)) :
    lease.identity = identity ∧ lease.operation = operation ∧ lease.mutation = run.isNone := by
  obtain ⟨_, _, _, _, _, rfl, _⟩ := reserve_eq_ok.mp granted
  exact ⟨rfl, rfl, rfl⟩

theorem records_reserve (granted : gate.reserve identity operation run = .ok (next, lease))
    (other : GateLease) : next.Records other ↔ other = lease ∨ gate.Records other := by
  obtain ⟨_, _, idle, unused, absent, rfl, rfl⟩ := reserve_eq_ok.mp granted
  obtain ⟨place, op, kind⟩ := other
  rcases eq_or_ne place identity with rfl | different
  · cases run with
    | none => cases kind <;> simp [Records, GateState.reserved, idle, eq_comm]
    | some name => cases kind <;> simp [Records, GateState.reserved, @eq_comm _ op]
  · simp [Records, modify_other different, different]

theorem exclusive_reserve (granted : gate.reserve identity operation run = .ok (next, lease))
    (exclusive : gate.Exclusive) : next.Exclusive := by
  obtain ⟨_, _, idle, unused, _, _, rfl⟩ := reserve_eq_ok.mp granted
  intro place
  rcases eq_or_ne place identity with rfl | different
  · cases run with
    | none => simpa [GateState.reserved] using unused rfl
    | some name => simp [GateState.reserved, idle]
  · simpa [modify_other different] using exclusive place

end Grant

/-! ## Drops -/

section Drop

variable {gate : SourceGate} {lease : GateLease}

theorem records_drop (held : gate.Records lease) (other : GateLease) :
    (gate.drop lease).Records other ↔ gate.Records other ∧ other ≠ lease := by
  obtain ⟨identity, operation, mutation⟩ := lease
  obtain ⟨place, op, kind⟩ := other
  rcases eq_or_ne place identity with rfl | different
  · cases mutation with
    | true =>
      have writing := records_mutation.mp held
      cases kind <;> simp [Records, drop, GateState.dropped, writing, eq_comm]
    | false =>
      cases kind <;> simp [Records, drop, GateState.dropped, @eq_comm _ op, and_comm]
  · simp [Records, drop, modify_other different, different]

theorem exclusive_drop (exclusive : gate.Exclusive) : (gate.drop lease).Exclusive := by
  intro place
  rcases eq_or_ne place lease.identity with rfl | different
  · have before := exclusive lease.identity
    simp only [drop, modify_same, GateState.dropped]
    split
    · simp
    · split
      · intro writing
        have none := before writing
        simp [Std.TreeMap.isEmpty_erase, none]
      · exact before
  · simpa [drop, modify_other different] using exclusive place

/-- A drop by its holder writes one field of one identity, and counts a completed
    mutation. -/
theorem drop_eq (held : gate.Records lease) :
    gate.drop lease = gate.modify lease.identity fun state =>
      if lease.mutation then
        { state with mutation := none, generation := state.generation + 1 }
      else
        { state with runs := state.runs.erase lease.operation } := by
  obtain ⟨identity, operation, mutation⟩ := lease
  cases mutation with
  | true =>
    have writing := records_mutation.mp held
    simp [drop, modify, GateState.dropped, writing]
  | false => simp [drop, modify, GateState.dropped]

/-- A completed mutation counts once; dropping a run lease does not count. -/
theorem drop_generation (held : gate.Records lease) (place : PathBuf) :
    (gate.drop lease place).generation =
      (gate place).generation + if lease.mutation ∧ lease.identity = place then 1 else 0 := by
  rw [drop_eq held]
  rcases eq_or_ne place lease.identity with rfl | different
  · cases lease.mutation <;> simp
  · simp [modify_other different, different.symm]

end Drop

end SourceGate

/-! ## The state as a list of reservations -/

/-- The leases that the state of `identity` accounts for. -/
def GateState.reservations (identity : PathBuf) (state : GateState) : List GateLease :=
  state.mutation.toList.map (fun operation => { identity, operation, mutation := true }) ++
    state.runs.keys.map (fun operation => { identity, operation, mutation := false })

theorem mem_reservations {gate : SourceGate} {identity : PathBuf} {lease : GateLease} :
    lease ∈ (gate identity).reservations identity ↔
      lease.identity = identity ∧ gate.Records lease := by
  obtain ⟨place, operation, mutation⟩ := lease
  cases mutation <;> simp [GateState.reservations, SourceGate.Records] <;> grind

theorem nodup_reservations (state : GateState) (identity : PathBuf) :
    (state.reservations identity).Nodup := by
  apply List.nodup_append.mpr
  refine ⟨?_, ?_, ?_⟩
  · cases state.mutation <;> simp
  · apply List.Nodup.map
    · intro left right same
      simpa using same
    · exact Std.TreeMap.nodup_keys
  · intro writer mutation reader run
    simp only [List.mem_map] at mutation run
    obtain ⟨_, _, rfl⟩ := mutation
    obtain ⟨_, _, rfl⟩ := run
    simp

/-! ## The correspondence is kept -/

namespace Accounts

open SourceGate

variable {gate next : SourceGate} {leases : List GateLease} {lease : GateLease}

theorem initial : Accounts SourceGate.default [] where
  nodup := List.nodup_nil
  recorded lease := by simp [Records, SourceGate.default]
  exclusive identity := by simp [SourceGate.default]

theorem perm (accounts : Accounts gate leases) {others : List GateLease}
    (same : leases.Perm others) : Accounts gate others where
  nodup := same.nodup_iff.mp accounts.nodup
  recorded lease := by rw [← same.mem_iff]; exact accounts.recorded lease
  exclusive := accounts.exclusive

/-- Changes of readiness and blocks reserve and release nothing. -/
theorem modify (accounts : Accounts gate leases) {identity : PathBuf}
    {change : GateState → GateState} (runs : ∀ state, (change state).runs = state.runs)
    (mutation : ∀ state, (change state).mutation = state.mutation) :
    Accounts (gate.modify identity change) leases where
  nodup := accounts.nodup
  recorded lease := by
    rw [accounts.recorded, records_congr (modify_field _ runs _) (modify_field _ mutation _)]
  exclusive place := by
    rw [modify_field _ runs, modify_field _ mutation]
    exact accounts.exclusive place

theorem reserve (accounts : Accounts gate leases) {identity : PathBuf} {operation : String}
    {run : Option String} (granted : gate.reserve identity operation run = .ok (next, lease)) :
    Accounts next (lease :: leases) where
  nodup := by
    refine List.nodup_cons.mpr ⟨?_, accounts.nodup⟩
    rw [accounts.recorded]
    exact reserve_fresh granted
  recorded other := by
    rw [List.mem_cons, accounts.recorded, records_reserve granted]
  exclusive := exclusive_reserve granted accounts.exclusive

theorem drop (accounts : Accounts gate leases) (member : lease ∈ leases) :
    Accounts (gate.drop lease) (leases.erase lease) where
  nodup := accounts.nodup.erase lease
  recorded other := by
    rw [accounts.nodup.mem_erase_iff, records_drop ((accounts.recorded lease).mp member),
      accounts.recorded, and_comm]
  exclusive := exclusive_drop accounts.exclusive

theorem reservations_perm (accounts : Accounts gate leases) (identity : PathBuf) :
    (leases.filter (·.identity = identity)).Perm ((gate identity).reservations identity) := by
  apply (List.perm_ext_iff_of_nodup (accounts.nodup.filter _) (nodup_reservations _ _)).mpr
  intro lease
  rw [mem_reservations, List.mem_filter, accounts.recorded, decide_eq_true_iff, and_comm]

/-- Who holds a mutation lease holds the identity alone. -/
theorem mutation_alone (accounts : Accounts gate leases) (member : lease ∈ leases)
    (mutating : lease.mutation = true) {other : GateLease} (held : other ∈ leases)
    (same : other.identity = lease.identity) : other = lease := by
  obtain ⟨identity, operation, mutation⟩ := lease
  obtain ⟨place, op, kind⟩ := other
  simp only at mutating same
  subst mutating same
  have writing := records_mutation.mp ((accounts.recorded _).mp member)
  have records := (accounts.recorded _).mp held
  cases kind with
  | true => simpa [Records, writing, eq_comm] using records
  | false =>
    have empty := accounts.exclusive place (by simp [writing])
    have recorded := records_run.mp records
    simp [Std.TreeMap.isEmpty_eq_false_of_contains recorded] at empty

/-- While any lease is outstanding on an identity, no mutation is granted there. -/
theorem refuses_mutation (accounts : Accounts gate leases) (member : lease ∈ leases)
    (operation : String) : ∃ message,
      gate.reserveMutation lease.identity operation = .error message := by
  cases attempt : gate.reserveMutation lease.identity operation with
  | error message => exact ⟨message, rfl⟩
  | ok granted =>
    obtain ⟨next, fresh⟩ := granted
    obtain ⟨_, _, idle, unused, _⟩ := reserve_eq_ok.mp attempt
    have recorded := (accounts.recorded lease).mp member
    obtain ⟨identity, op, kind⟩ := lease
    cases kind with
    | true => simp [Records, idle] at recorded
    | false =>
      have empty := unused rfl
      have recorded := records_run.mp recorded
      simp [Std.TreeMap.isEmpty_eq_false_of_contains recorded] at empty

/-! ## The abstract discipline -/

/-- What an identity is to its users: a resource with shared and exclusive holders. -/
def holders (accounts : Accounts gate leases) (identity : PathBuf) : Holders String where
  shared := { operation | operation ∈ (gate identity).runs }
  exclusive := (gate identity).mutation
  apart writing := by
    have empty := accounts.exclusive identity writing
    ext operation
    simpa using Std.TreeMap.isEmpty_iff_forall_not_mem.mp empty operation

section Simulation

variable {others : List GateLease} (before : Accounts gate leases)
  (after : Accounts next others) (identity : PathBuf)

theorem holders_eq (runs : (next identity).runs = (gate identity).runs)
    (mutation : (next identity).mutation = (gate identity).mutation) :
    after.holders identity = before.holders identity := by
  ext1
  · simp only [holders, runs]
  · exact mutation

theorem holders_reserve {place : PathBuf} {operation : String} {run : Option String}
    (granted : gate.reserve place operation run = .ok (next, lease)) :
    ∃ act, Holders.Step (before.holders identity) act (after.holders identity) ∧
      ∀ token, act ≠ .releaseExclusive token := by
  obtain ⟨_, _, idle, unused, absent, _, written⟩ := reserve_eq_ok.mp granted
  rcases eq_or_ne identity place with rfl | different
  · cases run with
    | none =>
      have empty := Std.TreeMap.isEmpty_iff_forall_not_mem.mp (unused rfl)
      refine ⟨.grantExclusive operation, .grantExclusive idle ?_ ?_ ?_, by simp⟩
      · ext other
        simpa [holders] using empty other
      · ext other
        simpa [holders, written, GateState.reserved] using empty other
      · simp [holders, written, GateState.reserved]
    | some name =>
      refine ⟨.grantShared operation, .grantShared idle ?_ ?_ ?_, by simp⟩
      · simpa [holders, ← Std.TreeMap.contains_iff_mem] using absent
      · ext other
        simp [holders, written, GateState.reserved, @eq_comm _ other]
      · simp [holders, written, GateState.reserved, idle]
  · refine ⟨.idle, ?_, by simp⟩
    have unchanged : next identity = gate identity := by
      rw [written, modify_other different]
    rw [holders_eq before after identity (by rw [unchanged]) (by rw [unchanged])]
    exact .idle _

theorem holders_drop (member : lease ∈ leases) (dropped : next = gate.drop lease) :
    ∃ act, Holders.Step (before.holders identity) act (after.holders identity) ∧
      ∀ token, act = .releaseExclusive token →
        lease = { identity, operation := token, mutation := true } := by
  obtain ⟨place, operation, kind⟩ := lease
  have recorded := (before.recorded _).mp member
  rcases eq_or_ne identity place with rfl | different
  · cases kind with
    | true =>
      have writing := records_mutation.mp recorded
      refine ⟨.releaseExclusive operation, .releaseExclusive writing ?_ ?_, by simp⟩
      · simp [holders, dropped, SourceGate.drop, GateState.dropped, writing]
      · simp [holders, dropped, SourceGate.drop, GateState.dropped, writing]
    | false =>
      refine ⟨.releaseShared operation, .releaseShared (records_run.mp recorded) ?_ ?_, by simp⟩
      · ext other
        simp [holders, dropped, SourceGate.drop, GateState.dropped, @eq_comm _ other, and_comm]
      · simp [holders, dropped, SourceGate.drop, GateState.dropped]
  · refine ⟨.idle, ?_, by simp⟩
    have unchanged : next identity = gate identity := by
      rw [dropped, SourceGate.drop, modify_other different]
    rw [holders_eq before after identity (by rw [unchanged]) (by rw [unchanged])]
    exact .idle _

end Simulation

end Accounts

end Idk
