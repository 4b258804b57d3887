import Idk.Base
import Mathlib.Logic.Function.Basic

/-!
# The source-use gate

The contract shared by Git mutations and run startup (`model.rs`).  Every
operation of the source reaches a state through `entry(..).or_default()`, so the
map is a total function whose absent entries are default states.  Taking the lock
makes each operation one step.
-/

namespace Idk

structure GateState where
  providerReady : Bool := false
  blocks : BTreeMap String := ∅
  runs : BTreeMap String := ∅
  mutation : Option String := none
  generation : Nat := 0

/-- `SourceGate`, keyed by repository identity. -/
abbrev SourceGate := PathBuf → GateState

/-- `GateLease`; the reference back to its gate is the gate its holder passes along. -/
structure GateLease where
  identity : PathBuf
  operation : String
  mutation : Bool
deriving DecidableEq, Repr

/-- The entry that `reserve` writes. -/
def GateState.reserved (operation : String) (run : Option String) (state : GateState) :
    GateState :=
  match run with
  | some name => { state with runs := state.runs.insert operation name }
  | none => { state with mutation := some operation }

/-- The entry that dropping a lease leaves behind. -/
def GateState.dropped (operation : String) (mutation : Bool) (state : GateState) : GateState :=
  if mutation && state.mutation == some operation then
    { state with mutation := none, generation := state.generation + 1 }
  else if !mutation then
    { state with runs := state.runs.erase operation }
  else
    state

namespace SourceGate

/-- `SourceGate::default()`. -/
def default : SourceGate := fun _ => {}

def modify (gate : SourceGate) (identity : PathBuf) (change : GateState → GateState) :
    SourceGate :=
  Function.update gate identity (change (gate identity))

def block (gate : SourceGate) (identity : PathBuf) (id reason : String) : SourceGate :=
  gate.modify identity fun state => { state with blocks := state.blocks.insert id reason }

def unblock (gate : SourceGate) (identity : PathBuf) (id : String) : SourceGate :=
  gate.modify identity fun state => { state with blocks := state.blocks.erase id }

def unavailable (gate : SourceGate) (identity : PathBuf) : SourceGate :=
  gate.modify identity fun state => { state with providerReady := false }

def ready (gate : SourceGate) (identity : PathBuf) : SourceGate :=
  gate.modify identity fun state => { state with providerReady := true }

/-- What an observer sees: readiness is withheld while any block is recorded. -/
def state (gate : SourceGate) (identity : PathBuf) : GateState :=
  let state := gate identity
  { state with providerReady := state.providerReady && state.blocks.isEmpty }

/-- `reserve`: a run is reserved under its name, a mutation under none. -/
def reserve (gate : SourceGate) (identity : PathBuf) (operation : String)
    (run : Option String) : Result (SourceGate × GateLease) :=
  let state := gate identity
  if !state.providerReady || !state.blocks.isEmpty then
    .error "source-use state unknown; provider is not ready"
  else if state.mutation.isSome || (run.isNone && !state.runs.isEmpty) then
    .error "worktree is in use; stop/wait for owned work before changing sources"
  else if state.runs.contains operation then
    .error "duplicate operation id"
  else
    .ok (gate.modify identity (.reserved operation run),
      { identity, operation, mutation := run.isNone })

def reserveRun (gate : SourceGate) (identity : PathBuf) (operation name : String) :
    Result (SourceGate × GateLease) :=
  gate.reserve identity operation (some name)

def reserveMutation (gate : SourceGate) (identity : PathBuf) (operation : String) :
    Result (SourceGate × GateLease) :=
  gate.reserve identity operation none

/-- `GateLease::drop`. -/
def drop (gate : SourceGate) (lease : GateLease) : SourceGate :=
  gate.modify lease.identity (.dropped lease.operation lease.mutation)

/-! ## What one operation changes -/

@[simp] theorem modify_same (gate : SourceGate) (identity : PathBuf)
    (change : GateState → GateState) :
    gate.modify identity change identity = change (gate identity) := by
  simp [modify]

theorem modify_other {gate : SourceGate} {identity other : PathBuf}
    {change : GateState → GateState} (different : other ≠ identity) :
    gate.modify identity change other = gate other := by
  simp [modify, different]

/-- A field that the change leaves alone is unchanged at every identity. -/
theorem modify_field {α : Type} {gate : SourceGate} {identity : PathBuf}
    {change : GateState → GateState} (field : GateState → α)
    (unchanged : ∀ state, field (change state) = field state) (other : PathBuf) :
    field (gate.modify identity change other) = field (gate other) := by
  rcases eq_or_ne other identity with rfl | different
  · rw [modify_same, unchanged]
  · rw [modify_other different]

/-- Everything a granted reservation says about the state before it. -/
theorem reserve_eq_ok {gate next : SourceGate} {identity : PathBuf} {operation : String}
    {run : Option String} {lease : GateLease} :
    gate.reserve identity operation run = .ok (next, lease) ↔
      (gate identity).providerReady = true ∧ (gate identity).blocks.isEmpty = true ∧
      (gate identity).mutation = none ∧ (run = none → (gate identity).runs.isEmpty = true) ∧
      (gate identity).runs.contains operation = false ∧
      lease = { identity, operation, mutation := run.isNone } ∧
      next = gate.modify identity (GateState.reserved operation run) := by
  simp only [reserve, Bool.or_eq_true, Bool.and_eq_true, Bool.not_eq_true', Option.isSome_iff_ne_none,
    Option.isNone_iff_eq_none]
  by_cases isReady : (gate identity).providerReady = false ∨ (gate identity).blocks.isEmpty = false
  · rw [if_pos isReady]
    simp only [reduceCtorEq, false_iff]
    rintro ⟨ready, unblocked, _⟩
    simp [ready, unblocked] at isReady
  rw [if_neg isReady]
  by_cases busy : (gate identity).mutation ≠ none ∨
      run = none ∧ (gate identity).runs.isEmpty = false
  · rw [if_pos busy]
    simp only [reduceCtorEq, false_iff]
    rintro ⟨_, _, idle, unused, _⟩
    rcases busy with mutating | ⟨mutation, used⟩
    · exact mutating idle
    · simp [unused mutation] at used
  rw [if_neg busy]
  by_cases duplicate : (gate identity).runs.contains operation = true
  · rw [if_pos duplicate]
    simp [duplicate]
  rw [if_neg duplicate]
  simp only [not_or, Bool.not_eq_false, ne_eq, not_not, not_and] at isReady busy
  simp only [Except.ok.injEq, Prod.mk.injEq, isReady, busy, Bool.not_eq_true _ |>.mp duplicate,
    true_and]
  grind

end SourceGate

end Idk
