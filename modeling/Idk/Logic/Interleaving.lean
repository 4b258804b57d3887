import Mathlib.Logic.Relation
import Mathlib.Logic.Function.Basic
import Idk.Logic.Transition

/-!
# Sequential programs that share a state

A `Program` is a sequence of atomic actions on a state that other programs see and
change between any two of them.  An action asks its environment for an answer and
may be unable to run now.

`Safe guarantee rely post program state` is the logic: whatever the others do within
`rely`, every action of `program` is a `guarantee` step, and a result satisfies
`post`.  `Interleaving` runs any number of such programs side by side; each may be
cut off at any point.

**Main rules:**

- `Safe.bind`, `Safe.attempt`, `Safe.action`: one rule for each way to build a program.
- `Interleaving.Outline.sound`: programs that respect each other's steps keep the
  invariant of the shared state.
- `Program.alone`: what a program does when nothing interferes; `runs_alone` is the run.
-/

namespace Idk.Logic

open Relation (ReflTransGen)

/-- A program over the shared state `σ` with answers in `ρ`. -/
inductive Program (ρ σ ε α : Type) : Type 1 where
  | done (result : Except ε α)
  | act {β : Type} (action : σ → ρ → Option (σ × β)) (next : β → Program ρ σ ε α)

namespace Program

variable {ρ σ ε ε' α β : Type}

def bind : Program ρ σ ε α → (α → Program ρ σ ε β) → Program ρ σ ε β
  | done (.ok value), rest => rest value
  | done (.error error), _ => done (.error error)
  | act action next, rest => act action fun value => (next value).bind rest

instance : Monad (Program ρ σ ε) where
  pure value := done (.ok value)
  bind := bind

instance : MonadLift (Except ε) (Program ρ σ ε) := ⟨done⟩

def fail (error : ε) : Program ρ σ ε α := done (.error error)

/-- One action that may fail. -/
def action (run : σ → ρ → Option (σ × Except ε α)) : Program ρ σ ε α := act run done

/-- Runs `program` and hands its failure to the caller. -/
def attempt : Program ρ σ ε α → Program ρ σ ε' (Except ε α)
  | done result => done (.ok result)
  | act action next => act action fun value => (next value).attempt

/-! ## The logic -/

/-- Every action of the program, run after any interference, is a `guarantee` step, and
    `post` holds of a result from then on. -/
def Safe (guarantee rely : σ → σ → Prop) (post : Except ε α → σ → Prop) :
    Program ρ σ ε α → σ → Prop
  | done result, state => ∀ later, ReflTransGen rely state later → post result later
  | act action next, state => ∀ later, ReflTransGen rely state later →
      ∀ answer last value, action later answer = some (last, value) →
        guarantee later last ∧ (next value).Safe guarantee rely post last

/-- What no interference invalidates. -/
def Stable (rely : σ → σ → Prop) (fact : σ → Prop) : Prop :=
  ∀ ⦃before after⦄, fact before → rely before after → fact after

variable {guarantee rely : σ → σ → Prop} {post : Except ε α → σ → Prop}

theorem Stable.later {fact : σ → Prop} (stable : Stable rely fact) {before after : σ}
    (holds : fact before) (steps : ReflTransGen rely before after) : fact after := by
  induction steps with
  | refl => exact holds
  | tail _ step inductionHypothesis => exact stable inductionHypothesis step

theorem Stable.and {left right : σ → Prop} (first : Stable rely left)
    (second : Stable rely right) : Stable rely fun state => left state ∧ right state :=
  fun _ _ holds step => ⟨first holds.1 step, second holds.2 step⟩

theorem Stable.const (fact : Prop) : Stable rely fun _ => fact := fun _ _ holds _ => holds

theorem Safe.later {program : Program ρ σ ε α} {before after : σ}
    (safe : program.Safe guarantee rely post before) (steps : ReflTransGen rely before after) :
    program.Safe guarantee rely post after := by
  cases program with
  | done result => exact fun later more => safe later (steps.trans more)
  | act action next => exact fun later more => safe later (steps.trans more)

theorem Safe.weaken {weak : Except ε α → σ → Prop} {program : Program ρ σ ε α} {state : σ}
    (safe : program.Safe guarantee rely post state)
    (implies : ∀ result state, post result state → weak result state) :
    program.Safe guarantee rely weak state := by
  induction program generalizing state with
  | done result => exact fun later steps => implies _ _ (safe later steps)
  | act action next inductionHypothesis =>
    intro later steps answer last value run
    obtain ⟨allowed, rest⟩ := safe later steps answer last value run
    exact ⟨allowed, inductionHypothesis value rest⟩

theorem Safe.done {result : Except ε α} {state : σ} (stable : Stable rely (post result))
    (holds : post result state) :
    (Program.done result : Program ρ σ ε α).Safe guarantee rely post state :=
  fun _ steps => stable.later holds steps

theorem Safe.bind {first : Program ρ σ ε α} {rest : α → Program ρ σ ε β}
    {mid : Except ε α → σ → Prop} {post : Except ε β → σ → Prop} {state : σ}
    (start : first.Safe guarantee rely mid state)
    (returned : ∀ value state, mid (.ok value) state →
      (rest value).Safe guarantee rely post state)
    (failed : ∀ error state, mid (.error error) state → post (.error error) state) :
    (first >>= rest).Safe guarantee rely post state := by
  induction first generalizing state with
  | done result =>
    cases result with
    | ok value => exact returned value state (start state .refl)
    | error error => exact fun later steps => failed error later (start later steps)
  | act action next inductionHypothesis =>
    intro later steps answer last value run
    obtain ⟨allowed, remaining⟩ := start later steps answer last value run
    exact ⟨allowed, inductionHypothesis value remaining⟩

theorem Safe.attempt {program : Program ρ σ ε α} {state : σ}
    (safe : program.Safe guarantee rely post state) :
    (program.attempt : Program ρ σ ε' (Except ε α)).Safe guarantee rely
      (fun outcome state => ∃ result, outcome = .ok result ∧ post result state) state := by
  induction program generalizing state with
  | done result => exact fun later steps => ⟨result, rfl, safe later steps⟩
  | act action next inductionHypothesis =>
    intro later steps answer last value run
    obtain ⟨allowed, rest⟩ := safe later steps answer last value run
    exact ⟨allowed, inductionHypothesis value rest⟩

/-- One action from a stable assertion to stable assertions. -/
theorem Safe.action {run : σ → ρ → Option (σ × Except ε α)} {state : σ} (pre : σ → Prop)
    (before : Stable rely pre) (after : ∀ result, Stable rely (post result)) (holds : pre state)
    (each : ∀ state answer last result, pre state → run state answer = some (last, result) →
      guarantee state last ∧ post result last) :
    (Program.action run).Safe guarantee rely post state := by
  intro later steps answer last result ran
  obtain ⟨allowed, reached⟩ := each later answer last result (before.later holds steps) ran
  exact ⟨allowed, fun later more => (after result).later reached more⟩

/-! ### Triples

From a state with `pre`, a program returns with `post` or fails with `failed`. -/

/-- What holds of a result: `post` of a value, `failed` of an error. -/
def Ends (post : α → σ → Prop) (failed : ε → σ → Prop) : Except ε α → σ → Prop
  | .ok value => post value
  | .error error => failed error

/-- `Safe` with separate assertions for returning and failing. -/
def Triple (guarantee rely : σ → σ → Prop) (pre : σ → Prop) (program : Program ρ σ ε α)
    (post : α → σ → Prop) (failed : ε → σ → Prop) : Prop :=
  ∀ state, pre state → program.Safe guarantee rely (Ends post failed) state

namespace Triple

variable {pre : σ → Prop} {failed : ε → σ → Prop}

theorem consequence {strong : σ → Prop} {program : Program ρ σ ε α} {post weak : α → σ → Prop}
    {lost : ε → σ → Prop} (triple : Triple guarantee rely pre program post failed)
    (before : ∀ state, strong state → pre state)
    (returned : ∀ value state, post value state → weak value state)
    (fails : ∀ error state, failed error state → lost error state) :
    Triple guarantee rely strong program weak lost := by
  intro state holds
  refine (triple state (before state holds)).weaken fun result state ends => ?_
  cases result with
  | ok value => exact returned value state ends
  | error error => exact fails error state ends

theorem bind {first : Program ρ σ ε α} {rest : α → Program ρ σ ε β} {mid : α → σ → Prop}
    {post : β → σ → Prop} (start : Triple guarantee rely pre first mid failed)
    (next : ∀ value, Triple guarantee rely (mid value) (rest value) post failed) :
    Triple guarantee rely pre (first >>= rest) post failed :=
  fun state holds => (start state holds).bind (fun value state reached => next value state reached)
    fun _ _ lost => lost

theorem value {value : α} {post : α → σ → Prop} (stable : Stable rely (post value))
    (holds : ∀ state, pre state → post value state) :
    Triple guarantee rely pre (Pure.pure value : Program ρ σ ε α) post failed :=
  fun state reached => Safe.done stable (holds state reached)

/-- A value that is an outcome of its own. -/
theorem done {result : Except ε α} {post : α → σ → Prop}
    (stable : Stable rely (Ends post failed result))
    (holds : ∀ state, pre state → Ends post failed result state) :
    Triple guarantee rely pre (Program.done result : Program ρ σ ε α) post failed :=
  fun state reached => Safe.done stable (holds state reached)

/-- A fallible function of values. -/
theorem lift {result : Except ε α} {post : α → σ → Prop}
    (lost : ∀ error, Stable rely (failed error))
    (returns : ∀ value, result = .ok value → ∀ state, pre state → post value state)
    (stable : ∀ value, result = .ok value → Stable rely (post value))
    (fails : ∀ error state, pre state → failed error state) :
    Triple guarantee rely pre (Program.done result : Program ρ σ ε α) post failed := by
  intro state holds
  cases result with
  | ok value => exact Safe.done (stable value rfl) (returns value rfl state holds)
  | error error => exact Safe.done (lost error) (fails error state holds)

theorem action {run : σ → ρ → Option (σ × Except ε α)} {post : α → σ → Prop}
    (before : Stable rely pre) (after : ∀ value, Stable rely (post value))
    (lost : ∀ error, Stable rely (failed error))
    (each : ∀ state answer last result, pre state → run state answer = some (last, result) →
      guarantee state last ∧ Ends post failed result last) :
    Triple guarantee rely pre (Program.action run) post failed := by
  intro state holds
  refine Safe.action pre before (fun result => ?_) holds each
  cases result with
  | ok value => exact after value
  | error error => exact lost error

theorem attempt {program : Program ρ σ ε α} {post : α → σ → Prop} {never : ε' → σ → Prop}
    (triple : Triple guarantee rely pre program post failed) :
    Triple guarantee rely pre (program.attempt : Program ρ σ ε' (Except ε α))
      (fun outcome => Ends post failed outcome) never := by
  intro state holds
  refine (triple state holds).attempt.weaken fun outcome state ends => ?_
  obtain ⟨result, rfl, reached⟩ := ends
  exact reached

theorem branch {condition : Prop} [Decidable condition] {first second : Program ρ σ ε α}
    {post : α → σ → Prop} (yes : condition → Triple guarantee rely pre first post failed)
    (no : ¬ condition → Triple guarantee rely pre second post failed) :
    Triple guarantee rely pre (if condition then first else second) post failed := by
  split
  · exact yes ‹_›
  · exact no ‹_›

end Triple

/-- The whole program without interference, with the answers from `asked` on. -/
def alone (answers : Nat → ρ) : Program ρ σ ε α → Nat → σ → Option (σ × Except ε α)
  | done result, _, state => some (state, result)
  | act action next, asked, state =>
    match action state (answers asked) with
    | some (last, value) => (next value).alone answers (asked + 1) last
    | none => none

section Alone

variable (answer : ρ)

@[simp] theorem alone_done (result : Except ε α) (asked : Nat) (state : σ) :
    (done result : Program ρ σ ε α).alone (fun _ => answer) asked state = some (state, result) := rfl

@[simp] theorem alone_pure (value : α) (asked : Nat) (state : σ) :
    (Pure.pure value : Program ρ σ ε α).alone (fun _ => answer) asked state =
      some (state, .ok value) := rfl

@[simp] theorem alone_fail (error : ε) (asked : Nat) (state : σ) :
    (fail error : Program ρ σ ε α).alone (fun _ => answer) asked state =
      some (state, .error error) := rfl

@[simp] theorem alone_lift (result : Except ε α) (asked : Nat) (state : σ) :
    (liftM result : Program ρ σ ε α).alone (fun _ => answer) asked state = some (state, result) := rfl

/-- When every answer is the same, it does not matter which one is next. -/
theorem alone_asked (program : Program ρ σ ε α) (asked : Nat) (state : σ) :
    program.alone (fun _ => answer) asked state = program.alone (fun _ => answer) 0 state := by
  induction program generalizing asked state with
  | done result => rfl
  | act action next inductionHypothesis =>
    simp only [alone]
    cases action state answer with
    | none => rfl
    | some outcome =>
      simp only
      rw [inductionHypothesis, inductionHypothesis _ 1]

theorem alone_action (run : σ → ρ → Option (σ × Except ε α)) (state : σ) :
    (action run : Program ρ σ ε α).alone (fun _ => answer) 0 state = run state answer := by
  unfold action alone
  cases run state answer with
  | none => rfl
  | some outcome => rfl

/-- A program that returned goes on with its value. -/
theorem alone_bind {first : Program ρ σ ε α} {state middle : σ} {value : α}
    (ran : first.alone (fun _ => answer) 0 state = some (middle, .ok value))
    (rest : α → Program ρ σ ε β) :
    (first >>= rest).alone (fun _ => answer) 0 state =
      (rest value).alone (fun _ => answer) 0 middle := by
  induction first generalizing state with
  | done result =>
    obtain ⟨rfl, rfl⟩ : state = middle ∧ result = .ok value := by simpa using ran
    rfl
  | act action next inductionHypothesis =>
    cases acted : action state answer with
    | none => simp [alone, acted] at ran
    | some outcome =>
      have remaining : (next outcome.2).alone (fun _ => answer) 0 outcome.1 =
          some (middle, .ok value) := by
        rw [← alone_asked answer _ 1]
        simpa [alone, acted] using ran
      have step : (act action next >>= rest).alone (fun _ => answer) 0 state =
          (next outcome.2 >>= rest).alone (fun _ => answer) 1 outcome.1 := by
        show (act action fun value => next value >>= rest).alone (fun _ => answer) 0 state = _
        simp [alone, acted]
      rw [step, alone_asked, inductionHypothesis _ remaining]

theorem alone_attempt {program : Program ρ σ ε α} {state last : σ} {result : Except ε α}
    (ran : program.alone (fun _ => answer) 0 state = some (last, result)) :
    (program.attempt : Program ρ σ ε' (Except ε α)).alone (fun _ => answer) 0 state =
      some (last, .ok result) := by
  induction program generalizing state with
  | done final =>
    obtain ⟨rfl, rfl⟩ : state = last ∧ final = result := by simpa using ran
    rfl
  | act action next inductionHypothesis =>
    cases acted : action state answer with
    | none => simp [alone, acted] at ran
    | some outcome =>
      have remaining : (next outcome.2).alone (fun _ => answer) 0 outcome.1 =
          some (last, result) := by
        rw [← alone_asked answer _ 1]
        simpa [alone, acted] using ran
      have step : ((act action next).attempt : Program ρ σ ε' (Except ε α)).alone
          (fun _ => answer) 0 state =
          ((next outcome.2).attempt : Program ρ σ ε' (Except ε α)).alone (fun _ => answer) 1
            outcome.1 := by
        simp [attempt, alone, acted]
      rw [step, alone_asked, inductionHypothesis _ remaining]

end Alone

end Program

/-! ## Any number of programs side by side -/

/-- What a thread was started for, and what is left of it. -/
structure Pool (κ γ ρ σ ε α : Type) where
  shared : σ
  calls : κ → Option γ
  threads : κ → Option (Program ρ σ ε α)

/-- The code of every call, and what the death of its thread does to the shared state. -/
structure Interleaving (κ γ ρ σ ε α : Type) where
  code : κ → γ → Program ρ σ ε α
  bury : κ → σ → σ

inductive ThreadEvent (κ γ ε α : Type) where
  | start (id : κ) (call : γ)
  | turn (id : κ)
  | finish (id : κ) (result : Except ε α)
  | die (id : κ)

namespace Interleaving

variable {κ γ ρ σ ε α : Type} [DecidableEq κ]

/-- One step of the pool; an id is used once. -/
inductive Step (code : Interleaving κ γ ρ σ ε α) :
    Pool κ γ ρ σ ε α → ThreadEvent κ γ ε α → Pool κ γ ρ σ ε α → Prop where
  | start {pool : Pool κ γ ρ σ ε α} {id : κ} {call : γ} (unused : pool.calls id = none) :
      Step code pool (.start id call)
        { pool with
          calls := Function.update pool.calls id (some call)
          threads := Function.update pool.threads id (some (code.code id call)) }
  | turn {pool : Pool κ γ ρ σ ε α} {id : κ} {β : Type} {action : σ → ρ → Option (σ × β)}
      {next : β → Program ρ σ ε α} {answer : ρ} {last : σ} {value : β}
      (running : pool.threads id = some (.act action next))
      (run : action pool.shared answer = some (last, value)) :
      Step code pool (.turn id)
        { pool with
          shared := last
          threads := Function.update pool.threads id (some (next value)) }
  | finish {pool : Pool κ γ ρ σ ε α} {id : κ} {result : Except ε α}
      (running : pool.threads id = some (.done result)) :
      Step code pool (.finish id result)
        { pool with threads := Function.update pool.threads id none }
  | die {pool : Pool κ γ ρ σ ε α} {id : κ} (running : pool.threads id ≠ none) :
      Step code pool (.die id)
        { pool with
          shared := code.bury id pool.shared
          threads := Function.update pool.threads id none }

/-- Any order of starts, actions, ends and deaths from a shared state with `initial`. -/
def system (code : Interleaving κ γ ρ σ ε α) (initial : σ → Prop) :
    System (Pool κ γ ρ σ ε α) (ThreadEvent κ γ ε α) where
  init pool := initial pool.shared ∧ pool.calls = (fun _ => none) ∧ pool.threads = fun _ => none
  step := Step code

/-- A thread that nobody disturbs is a run of the pool. -/
theorem runs_alone (code : Interleaving κ γ ρ σ ε α) (initial : σ → Prop) (answers : Nat → ρ)
    (program : Program ρ σ ε α) (pool : Pool κ γ ρ σ ε α) (asked : Nat) {id : κ} {last : σ}
    {result : Except ε α} (running : pool.threads id = some program)
    (ran : program.alone answers asked pool.shared = some (last, result)) :
    ∃ count, (code.system initial).Run pool (List.replicate count (.turn id))
      { pool with
        shared := last
        threads := Function.update pool.threads id (some (.done result)) } := by
  induction program generalizing pool asked with
  | done final =>
    obtain ⟨rfl, rfl⟩ : pool.shared = last ∧ final = result := by
      simpa [Program.alone] using ran
    refine ⟨0, ?_⟩
    rw [← running, Function.update_eq_self]
    exact System.Run.refl pool
  | act action next inductionHypothesis =>
    cases acted : action pool.shared (answers asked) with
    | none => simp [Program.alone, acted] at ran
    | some outcome =>
      obtain ⟨middle, value⟩ := outcome
      have turned : Step code pool (.turn id) _ := Step.turn running acted
      obtain ⟨count, rest⟩ := inductionHypothesis value
        { pool with
          shared := middle
          threads := Function.update pool.threads id (some (next value)) }
        (asked + 1) (by simp) (by simpa [Program.alone, acted] using ran)
      exact ⟨count + 1, by simpa [List.replicate_succ] using rest.cons turned⟩

/-- A call from its start to its end, undisturbed. -/
theorem calls_alone (code : Interleaving κ γ ρ σ ε α) (initial : σ → Prop) (answers : Nat → ρ)
    (pool : Pool κ γ ρ σ ε α) (id : κ) (call : γ) {last : σ} {result : Except ε α}
    (unused : pool.calls id = none) (idle : pool.threads id = none)
    (ran : (code.code id call).alone answers 0 pool.shared = some (last, result)) :
    ∃ count, (code.system initial).Run pool
      (.start id call :: List.replicate count (.turn id) ++ [.finish id result])
      { pool with
        shared := last
        calls := Function.update pool.calls id (some call) } := by
  have started : Step code pool (.start id call) _ := Step.start unused
  obtain ⟨count, run⟩ := runs_alone code initial answers (code.code id call)
    { pool with
      calls := Function.update pool.calls id (some call)
      threads := Function.update pool.threads id (some (code.code id call)) }
    0 (Function.update_self id _ _) ran
  have finished := System.Run.tail run (Step.finish (Function.update_self id _ _))
  have unchanged : Function.update pool.threads id none = pool.threads := by
    rw [← idle, Function.update_eq_self]
  refine ⟨count, ?_⟩
  simpa [unchanged] using System.Run.cons started finished

/-- What the others may do while `id` runs. -/
def others (code : Interleaving κ γ ρ σ ε α) (guarantee : κ → γ → σ → σ → Prop) (id : κ)
    (before after : σ) : Prop :=
  ∃ other, other ≠ id ∧
    ((∃ call, guarantee other call before after) ∨ after = code.bury other before)

/-- A proof outline: what each call may do, what holds of the shared state, and what holds
    before a thread is started and after it has finished. -/
structure Outline (code : Interleaving κ γ ρ σ ε α) where
  guarantee : κ → γ → σ → σ → Prop
  inv : σ → Prop
  fresh : κ → σ → Prop
  post : κ → γ → Except ε α → σ → Prop
  inv_kept : ∀ id call before after, inv before → guarantee id call before after → inv after
  inv_buried : ∀ id before, inv before → inv (code.bury id before)
  fresh_kept : ∀ id, Program.Stable
    (fun before after => inv before ∧ code.others guarantee id before after) (fresh id)
  safe : ∀ id call state, inv state → fresh id state →
    (code.code id call).Safe (fun before after => inv before → guarantee id call before after)
      (fun before after => inv before ∧ code.others guarantee id before after)
      (post id call) state

namespace Outline

variable {code : Interleaving κ γ ρ σ ε α} (outline : code.Outline)

/-- What holds in every reachable pool. -/
structure Holds (pool : Pool κ γ ρ σ ε α) : Prop where
  inv : outline.inv pool.shared
  fresh : ∀ id, pool.calls id = none → outline.fresh id pool.shared
  threads : ∀ id program, pool.threads id = some program → ∃ call, pool.calls id = some call ∧
    program.Safe (fun before after => outline.inv before → outline.guarantee id call before after)
      (fun before after => outline.inv before ∧ code.others outline.guarantee id before after)
      (outline.post id call) pool.shared

/-- What each event has done. -/
inductive Took (outline : code.Outline) (before : Pool κ γ ρ σ ε α) :
    ThreadEvent κ γ ε α → Pool κ γ ρ σ ε α → Prop where
  | start {id : κ} {call : γ} {after : Pool κ γ ρ σ ε α} (same : after.shared = before.shared)
      (unused : before.calls id = none)
      (calls : after.calls = Function.update before.calls id (some call)) :
      Took outline before (.start id call) after
  | turn {id : κ} {call : γ} {after : Pool κ γ ρ σ ε α} (known : before.calls id = some call)
      (allowed : outline.guarantee id call before.shared after.shared)
      (calls : after.calls = before.calls) : Took outline before (.turn id) after
  | finish {id : κ} {call : γ} {result : Except ε α} {after : Pool κ γ ρ σ ε α}
      (known : before.calls id = some call) (same : after.shared = before.shared)
      (holds : outline.post id call result before.shared) (calls : after.calls = before.calls) :
      Took outline before (.finish id result) after
  | die {id : κ} {after : Pool κ γ ρ σ ε α} (known : before.calls id ≠ none)
      (buried : after.shared = code.bury id before.shared)
      (calls : after.calls = before.calls) : Took outline before (.die id) after

theorem holds_step {before after : Pool κ γ ρ σ ε α} {event : ThreadEvent κ γ ε α}
    (holds : outline.Holds before) (step : Step code before event after) :
    outline.Holds after ∧ outline.Took before event after := by
  cases step with
  | @start id call unused =>
    refine ⟨⟨holds.inv, ?_, ?_⟩, .start rfl unused rfl⟩
    · intro other none
      by_cases same : other = id
      · simp [same] at none
      · exact holds.fresh other (by simpa [Function.update_of_ne same] using none)
    · intro other program running
      by_cases same : other = id
      · subst same
        obtain rfl : code.code other call = program := by simpa using running
        exact ⟨call, by simp, outline.safe other call _ holds.inv (holds.fresh other unused)⟩
      · obtain ⟨known, started, safe⟩ := holds.threads other program
          (by simpa [Function.update_of_ne same] using running)
        exact ⟨known, by simpa [Function.update_of_ne same] using started, safe⟩
  | @turn id β action next answer last value running run =>
    obtain ⟨call, known, safe⟩ := holds.threads id _ running
    obtain ⟨promised, rest⟩ := safe _ .refl answer last value run
    have allowed := promised holds.inv
    have interferes : ∀ other, other ≠ id →
        code.others outline.guarantee other before.shared last :=
      fun other different => ⟨id, different.symm, .inl ⟨call, allowed⟩⟩
    refine ⟨⟨outline.inv_kept id call _ _ holds.inv allowed, ?_, ?_⟩, .turn known allowed rfl⟩
    · intro other none
      by_cases same : other = id
      · simp [same, known] at none
      · exact outline.fresh_kept other (holds.fresh other none) ⟨holds.inv, interferes other same⟩
    · intro other program running
      by_cases same : other = id
      · subst same
        obtain rfl : next value = program := by simpa using running
        exact ⟨call, known, rest⟩
      · obtain ⟨started, same_call, safe⟩ := holds.threads other program
          (by simpa [Function.update_of_ne same] using running)
        exact ⟨started, same_call, safe.later (.single ⟨holds.inv, interferes other same⟩)⟩
  | @finish id result running =>
    obtain ⟨call, known, safe⟩ := holds.threads id _ running
    refine ⟨⟨holds.inv, holds.fresh, ?_⟩, .finish known rfl (safe _ .refl) rfl⟩
    intro other program running
    by_cases same : other = id
    · simp [same] at running
    · exact holds.threads other program (by simpa [Function.update_of_ne same] using running)
  | @die id running =>
    obtain ⟨program, alive⟩ := Option.ne_none_iff_exists'.mp running
    obtain ⟨call, known, _⟩ := holds.threads id program alive
    have interferes : ∀ other, other ≠ id →
        code.others outline.guarantee other before.shared (code.bury id before.shared) :=
      fun other different => ⟨id, different.symm, .inr rfl⟩
    refine ⟨⟨outline.inv_buried id _ holds.inv, ?_, ?_⟩, .die (by simp [known]) rfl rfl⟩
    · intro other none
      by_cases same : other = id
      · simp [same, known] at none
      · exact outline.fresh_kept other (holds.fresh other none) ⟨holds.inv, interferes other same⟩
    · intro other program running
      by_cases same : other = id
      · simp [same] at running
      · obtain ⟨started, same_call, safe⟩ := holds.threads other program
          (by simpa [Function.update_of_ne same] using running)
        exact ⟨started, same_call, safe.later (.single ⟨holds.inv, interferes other same⟩)⟩

/-- Programs that respect each other's steps keep the invariant. -/
theorem sound {initial : σ → Prop}
    (starts : ∀ state, initial state → outline.inv state ∧ ∀ id, outline.fresh id state) :
    (code.system initial).Invariant outline.Holds where
  initial pool start := by
    obtain ⟨holds, calls, threads⟩ := start
    obtain ⟨inv, fresh⟩ := starts _ holds
    exact ⟨inv, fun id _ => fresh id, fun id program running => by simp [threads] at running⟩
  preserved _ _ _ holds step := (outline.holds_step holds step).1

end Outline

end Interleaving

end Idk.Logic
