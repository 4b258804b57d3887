import Mathlib.Logic.Relation

/-!
# Procedures that fail, keep their state and ask their environment

A `Procedure ε ρ σ α` changes a state `σ`, may stop with an error `ε` and then
keeps the changes made so far, and asks its environment for answers in `ρ`.  The
answers are a stream given from outside: a statement about every stream covers
every behaviour of the environment.

`Takes answers R pre op post` is the logic: from a state with `pre`, whatever `op`
did before it returned or failed is a sequence of `R` steps, and if it returned
then `post` holds.  An invariant of `R` is thereby kept by `op` on every path.
`Ensures answers pre op post failed` is the plain triple, about the end alone.
-/

namespace Idk.Logic

open Relation (ReflTransGen)

/-- How a procedure ended, how many answers it used and the state it left. -/
structure Outcome (ε σ α : Type) where
  result : Except ε α
  asked : Nat
  state : σ

def Procedure (ε ρ σ α : Type) := (Nat → ρ) → Nat → σ → Outcome ε σ α

namespace Procedure

variable {ε ρ σ α β : Type}

instance : Monad (Procedure ε ρ σ) where
  pure value _ asked state := ⟨.ok value, asked, state⟩
  bind first next answers asked state :=
    match first answers asked state with
    | ⟨.ok value, asked, state⟩ => next value answers asked state
    | ⟨.error error, asked, state⟩ => ⟨.error error, asked, state⟩

theorem assoc {γ : Type} (first : Procedure ε ρ σ α) (second : α → Procedure ε ρ σ β)
    (third : β → Procedure ε ρ σ γ) :
    (first >>= second) >>= third = first >>= fun value => second value >>= third := by
  funext answers asked state
  simp only [bind]
  cases first answers asked state with
  | mk result asked last => cases result <;> rfl

/-- The state now. -/
def current : Procedure ε ρ σ σ := fun _ asked state => ⟨.ok state, asked, state⟩

def update (change : σ → σ) : Procedure ε ρ σ Unit :=
  fun _ asked state => ⟨.ok (), asked, change state⟩

/-- The next answer of the environment. -/
def answer : Procedure ε ρ σ ρ := fun answers asked state => ⟨.ok (answers asked), asked + 1, state⟩

def fail (error : ε) : Procedure ε ρ σ α := fun _ asked state => ⟨.error error, asked, state⟩

/-- A fallible function of values, `value?`. -/
def lift (value : Except ε α) : Procedure ε ρ σ α := fun _ asked state => ⟨value, asked, state⟩

instance : MonadLift (Except ε) (Procedure ε ρ σ) := ⟨lift⟩

/-- Runs `op` and hands its failure to the caller, `match op`. -/
def attempt (op : Procedure ε ρ σ α) : Procedure ε ρ σ (Except ε α) :=
  fun answers asked state =>
    let outcome := op answers asked state
    ⟨.ok outcome.result, outcome.asked, outcome.state⟩

/-- `loop`, at most `fuel` times, for as long as the body asks to continue. -/
def iterate (body : Procedure ε ρ σ Bool) : Nat → Procedure ε ρ σ Unit
  | 0 => pure ()
  | fuel + 1 => do
    if ← body then iterate body fuel else pure ()

/-- `op` on a part of the state, with its part of the answers. -/
def zoom {ρ' σ' : Type} (part : σ → σ') (put : σ' → σ → σ) (asks : ρ → ρ')
    (op : Procedure ε ρ' σ' α) : Procedure ε ρ σ α :=
  fun answers asked state =>
    let outcome := op (fun index => asks (answers index)) asked (part state)
    ⟨outcome.result, outcome.asked, put outcome.state state⟩

/-! ## The logic -/

/-- Everything `op` does from a state with `pre` is a sequence of `R` steps; when it
    returns, `post` holds. -/
def Takes (answers : Nat → ρ) (R : σ → σ → Prop) (pre : σ → Prop) (op : Procedure ε ρ σ α)
    (post : α → σ → Prop) : Prop :=
  ∀ asked state, pre state →
    ReflTransGen R state (op answers asked state).state ∧
    ∀ value, (op answers asked state).result = .ok value →
      post value (op answers asked state).state

section Rules

variable {answers : Nat → ρ} {R : σ → σ → Prop} {pre mid : σ → Prop}

namespace Takes

theorem weaken {strong : σ → Prop} {op : Procedure ε ρ σ α} {post weak : α → σ → Prop}
    (takes : Takes answers R pre op post) (before : ∀ state, strong state → pre state)
    (after : ∀ value state, post value state → weak value state) :
    Takes answers R strong op weak := by
  intro asked state holds
  obtain ⟨steps, returned⟩ := takes asked state (before state holds)
  exact ⟨steps, fun value same => after value _ (returned value same)⟩

theorem consequence {op : Procedure ε ρ σ α} {post weak : α → σ → Prop}
    (takes : Takes answers R pre op post)
    (after : ∀ value state, post value state → weak value state) :
    Takes answers R pre op weak :=
  takes.weaken (fun _ => id) after

theorem strengthen {strong : σ → Prop} {op : Procedure ε ρ σ α} {post : α → σ → Prop}
    (takes : Takes answers R pre op post) (before : ∀ state, strong state → pre state) :
    Takes answers R strong op post :=
  takes.weaken before fun _ _ => id

/-- A precondition may be replaced by a chosen one that it implies. -/
theorem under (chosen : σ → Prop) {op : Procedure ε ρ σ α} {post : α → σ → Prop}
    (before : ∀ state, pre state → chosen state) (takes : Takes answers R chosen op post) :
    Takes answers R pre op post :=
  takes.strengthen before

/-- A fact that the precondition implies may be assumed. -/
theorem given (fact : Prop) {op : Procedure ε ρ σ α} {post : α → σ → Prop}
    (known : ∀ state, pre state → fact) (takes : fact → Takes answers R pre op post) :
    Takes answers R pre op post :=
  fun asked state holds => takes (known state holds) asked state holds

theorem mono {S : σ → σ → Prop} {op : Procedure ε ρ σ α} {post : α → σ → Prop}
    (takes : Takes answers R pre op post) (wider : ∀ before after, R before after → S before after) :
    Takes answers S pre op post :=
  fun asked state holds =>
    ⟨Relation.ReflTransGen.mono wider _ _ (takes asked state holds).1,
      (takes asked state holds).2⟩

theorem value (value : α) : Takes answers R pre (Pure.pure value : Procedure ε ρ σ α)
    (fun returned state => returned = value ∧ pre state) := by
  intro asked state holds
  refine ⟨.refl, fun returned same => ?_⟩
  cases same
  exact ⟨rfl, holds⟩

theorem bind {first : Procedure ε ρ σ α} {next : α → Procedure ε ρ σ β}
    {middle : α → σ → Prop} {post : β → σ → Prop}
    (start : Takes answers R pre first middle)
    (rest : ∀ value, Takes answers R (middle value) (next value) post) :
    Takes answers R pre (first >>= next) post := by
  intro asked state holds
  obtain ⟨steps, returned⟩ := start asked state holds
  simp only [Bind.bind]
  cases run : first answers asked state with
  | mk result asked' state' =>
    rw [run] at steps returned
    cases result with
    | error error => exact ⟨steps, fun value same => by cases same⟩
    | ok value =>
      obtain ⟨more, finished⟩ := rest value asked' state' (returned value rfl)
      exact ⟨steps.trans more, finished⟩

theorem current : Takes answers R pre (Procedure.current : Procedure ε ρ σ σ)
    (fun value state => value = state ∧ pre state) := by
  intro asked state holds
  refine ⟨.refl, fun value same => ?_⟩
  cases same
  exact ⟨rfl, holds⟩

theorem answer : Takes answers R pre (Procedure.answer : Procedure ε ρ σ ρ)
    (fun answer state => (∃ asked, answer = answers asked) ∧ pre state) := by
  intro asked state holds
  refine ⟨.refl, fun answer same => ?_⟩
  cases same
  exact ⟨⟨asked, rfl⟩, holds⟩

theorem fail {error : ε} {post : α → σ → Prop} :
    Takes answers R pre (Procedure.fail error : Procedure ε ρ σ α) post :=
  fun _ _ _ => ⟨.refl, fun _ same => by cases same⟩

theorem lift (value : Except ε α) : Takes answers R pre (Procedure.lift value : Procedure ε ρ σ α)
    (fun returned state => value = .ok returned ∧ pre state) :=
  fun _ _ holds => ⟨.refl, fun _ same => ⟨same, holds⟩⟩

theorem update {change : σ → σ} (step : ∀ state, pre state → R state (change state)) :
    Takes answers R pre (Procedure.update change : Procedure ε ρ σ Unit)
      (fun _ state => ∃ before, pre before ∧ state = change before) := by
  intro asked state holds
  exact ⟨.single (step state holds), fun _ _ => ⟨state, holds, rfl⟩⟩

theorem attempt {op : Procedure ε ρ σ α} {post : α → σ → Prop} (failed : σ → Prop)
    (takes : Takes answers R pre op post)
    (fails : ∀ asked state, pre state → ∀ error,
      (op answers asked state).result = .error error → failed (op answers asked state).state) :
    Takes answers R pre (Procedure.attempt op)
      (fun outcome state => match outcome with
        | .ok value => post value state
        | .error _ => failed state) := by
  intro asked state holds
  obtain ⟨steps, returned⟩ := takes asked state holds
  refine ⟨steps, fun outcome same => ?_⟩
  have outcome_eq : (op answers asked state).result = outcome := by
    simpa [Procedure.attempt] using same
  cases outcome with
  | ok value => exact returned value outcome_eq
  | error error => exact fails asked state holds error outcome_eq

theorem branch {condition : Prop} [Decidable condition] {first second : Procedure ε ρ σ α}
    {post : α → σ → Prop} (yes : condition → Takes answers R pre first post)
    (no : ¬ condition → Takes answers R pre second post) :
    Takes answers R pre (if condition then first else second) post := by
  split
  · exact yes ‹_›
  · exact no ‹_›

/-- A loop keeps what its body keeps. -/
theorem iterate {body : Procedure ε ρ σ Bool}
    (each : Takes answers R pre body fun _ state => pre state) (fuel : Nat) :
    Takes answers R pre (Procedure.iterate body fuel) fun _ state => pre state := by
  induction fuel with
  | zero => exact (Takes.value ()).consequence fun _ _ holds => holds.2
  | succ fuel inductionHypothesis =>
    refine each.bind fun again => ?_
    cases again with
    | true => exact inductionHypothesis
    | false => exact (Takes.value ()).consequence fun _ _ holds => holds.2

/-- With enough fuel for a measure that every further round lowers, a loop that
    returns has stopped of its own accord. -/
theorem iterate_stops {body : Procedure ε ρ σ Bool} {stopped : σ → Prop} (measure : σ → Nat)
    (each : ∀ bound, Takes answers R (fun state => pre state ∧ measure state = bound) body
      fun again state => pre state ∧ (again = true → measure state < bound) ∧
        (again = false → stopped state))
    (fuel : Nat) :
    Takes answers R (fun state => pre state ∧ measure state < fuel)
      (Procedure.iterate body fuel) fun _ state => pre state ∧ stopped state := by
  induction fuel with
  | zero => exact fun _ _ impossible => absurd impossible.2 (Nat.not_lt_zero _)
  | succ fuel inductionHypothesis =>
    intro asked state holds
    have round : Takes answers R (fun later => pre later ∧ measure later = measure state)
        (Procedure.iterate body (fuel + 1)) fun _ later => pre later ∧ stopped later := by
      refine (each (measure state)).bind fun again => ?_
      cases again with
      | true =>
        refine inductionHypothesis.strengthen fun later kept => ⟨kept.1, ?_⟩
        have lower := kept.2.1 rfl
        have bound := holds.2
        omega
      | false =>
        exact (Takes.value ()).consequence fun _ _ finished =>
          ⟨finished.2.1, finished.2.2.2 rfl⟩
    exact round asked state ⟨holds.1, rfl⟩

end Takes

/-- What every step keeps, the whole procedure keeps, returning or failing. -/
theorem Takes.keeps {op : Procedure ε ρ σ α} {post : α → σ → Prop} (inv : σ → Prop)
    (takes : Takes answers R pre op post)
    (kept : ∀ before after, inv before → R before after → inv after)
    (asked : Nat) (state : σ) (holds : pre state) (start : inv state) :
    inv (op answers asked state).state := by
  have steps := (takes asked state holds).1
  generalize (op answers asked state).state = last at steps
  induction steps with
  | refl => exact start
  | tail _ step inductionHypothesis => exact kept _ _ inductionHypothesis step

/-- Frame rule: an invariant of the steps may be carried through. -/
theorem Takes.frame {op : Procedure ε ρ σ α} {post : α → σ → Prop} (inv : σ → Prop)
    (takes : Takes answers R pre op post)
    (kept : ∀ before after, inv before → R before after → inv after) :
    Takes answers R (fun state => pre state ∧ inv state) op
      (fun value state => post value state ∧ inv state) :=
  fun asked state holds =>
    ⟨(takes asked state holds.1).1, fun value same =>
      ⟨(takes asked state holds.1).2 value same, takes.keeps inv kept asked state holds.1 holds.2⟩⟩

end Rules

/-! ## Hoare triples

What holds at the end, returning or failing.  Unlike `Takes`, nothing is said about the
states in between. -/

/-- From a state with `pre`, `op` returns with `post` or fails with `failed`. -/
def Ensures (answers : Nat → ρ) (pre : σ → Prop) (op : Procedure ε ρ σ α) (post : α → σ → Prop)
    (failed : σ → Prop) : Prop :=
  ∀ asked state, pre state →
    match op answers asked state with
    | ⟨.ok value, _, last⟩ => post value last
    | ⟨.error _, _, last⟩ => failed last

namespace Ensures

variable {answers : Nat → ρ} {pre failed : σ → Prop}

theorem consequence {strong : σ → Prop} {op : Procedure ε ρ σ α} {post weak : α → σ → Prop}
    {lost : σ → Prop} (triple : Ensures answers pre op post failed)
    (before : ∀ state, strong state → pre state)
    (returned : ∀ value state, post value state → weak value state)
    (fails : ∀ state, failed state → lost state) : Ensures answers strong op weak lost := by
  intro asked state holds
  have ends := triple asked state (before state holds)
  cases run : op answers asked state with
  | mk result asked' last =>
    rw [run] at ends
    cases result with
    | ok value => exact returned value last ends
    | error error => exact fails last ends

/-- Less is promised of a failure. -/
theorem relax {op : Procedure ε ρ σ α} {post : α → σ → Prop} {lost : σ → Prop}
    (triple : Ensures answers pre op post failed) (fails : ∀ state, failed state → lost state) :
    Ensures answers pre op post lost :=
  triple.consequence (fun _ => id) (fun _ _ => id) fails

theorem value {value : α} {post : α → σ → Prop} (holds : ∀ state, pre state → post value state) :
    Ensures answers pre (Pure.pure value : Procedure ε ρ σ α) post failed :=
  fun _ state start => holds state start

theorem bind {first : Procedure ε ρ σ α} {next : α → Procedure ε ρ σ β} {mid : α → σ → Prop}
    {post : β → σ → Prop} (start : Ensures answers pre first mid failed)
    (rest : ∀ value, Ensures answers (mid value) (next value) post failed) :
    Ensures answers pre (first >>= next) post failed := by
  intro asked state holds
  have ends := start asked state holds
  simp only [Bind.bind]
  cases run : first answers asked state with
  | mk result asked' middle =>
    rw [run] at ends
    cases result with
    | error error => exact ends
    | ok value => exact rest value asked' middle ends

/-- The state that is read is the one the rest starts from. -/
theorem read {next : σ → Procedure ε ρ σ β} {post : β → σ → Prop}
    (rest : ∀ state, pre state → Ensures answers (· = state) (next state) post failed) :
    Ensures answers pre (Procedure.current >>= next) post failed :=
  fun asked state holds => rest state holds asked state rfl

theorem update {change : σ → σ} {post : Unit → σ → Prop}
    (holds : ∀ state, pre state → post () (change state)) :
    Ensures answers pre (Procedure.update change : Procedure ε ρ σ Unit) post failed :=
  fun _ state start => holds state start

theorem answer {post : ρ → σ → Prop} (holds : ∀ asked state, pre state → post (answers asked) state) :
    Ensures answers pre (Procedure.answer : Procedure ε ρ σ ρ) post failed :=
  fun asked state start => holds asked state start

theorem fail {error : ε} {post : α → σ → Prop} (holds : ∀ state, pre state → failed state) :
    Ensures answers pre (Procedure.fail error : Procedure ε ρ σ α) post failed :=
  fun _ state start => holds state start

/-- A fallible function of values. -/
theorem lift {result : Except ε α} {post : α → σ → Prop}
    (returns : ∀ value, result = .ok value → ∀ state, pre state → post value state)
    (fails : ∀ state, pre state → failed state) :
    Ensures answers pre (Procedure.lift result : Procedure ε ρ σ α) post failed := by
  intro _ state start
  cases result with
  | ok value => exact returns value rfl state start
  | error error => exact fails state start

theorem attempt {op : Procedure ε ρ σ α} {post : α → σ → Prop} {lost : σ → Prop}
    (triple : Ensures answers pre op post failed) :
    Ensures answers pre (Procedure.attempt op) (fun outcome state => match outcome with
      | .ok value => post value state
      | .error _ => failed state) lost := by
  intro asked state holds
  have ends := triple asked state holds
  simp only [Procedure.attempt]
  cases run : op answers asked state with
  | mk result asked' last =>
    rw [run] at ends
    cases result with
    | ok value => exact ends
    | error error => exact ends

theorem branch {condition : Prop} [Decidable condition] {first second : Procedure ε ρ σ α}
    {post : α → σ → Prop} (yes : condition → Ensures answers pre first post failed)
    (no : ¬ condition → Ensures answers pre second post failed) :
    Ensures answers pre (if condition then first else second) post failed := by
  split
  · exact yes ‹_›
  · exact no ‹_›

/-- A loop keeps what its body keeps. -/
theorem iterate {body : Procedure ε ρ σ Bool} (each : Ensures answers pre body (fun _ => pre) failed)
    (fuel : Nat) : Ensures answers pre (Procedure.iterate body fuel) (fun _ => pre) failed := by
  induction fuel with
  | zero => exact value fun _ holds => holds
  | succ fuel inductionHypothesis =>
    refine each.bind fun again => ?_
    cases again with
    | true => exact inductionHypothesis
    | false => exact value fun _ holds => holds

theorem forM {each : β → Procedure ε ρ σ PUnit} (kept : ∀ value, Ensures answers pre (each value)
    (fun _ => pre) failed) (values : List β) :
    Ensures answers pre (values.forM each) (fun _ => pre) failed := by
  induction values with
  | nil => exact value fun _ holds => holds
  | cons head tail inductionHypothesis => exact (kept head).bind fun _ => inductionHypothesis

/-- What only the elements of the list keep. -/
theorem forM_mem {each : β → Procedure ε ρ σ PUnit} {values : List β}
    (kept : ∀ value ∈ values, Ensures answers pre (each value) (fun _ => pre) failed) :
    Ensures answers pre (values.forM each) (fun _ => pre) failed := by
  induction values with
  | nil => exact value fun _ holds => holds
  | cons head tail inductionHypothesis =>
    refine (kept head List.mem_cons_self).bind fun _ => inductionHypothesis fun value member => ?_
    exact kept value (List.mem_cons_of_mem head member)

/-- A loop over a list, with what holds while some of it is left. -/
theorem forM_rest {each : β → Procedure ε ρ σ PUnit} {inv : List β → σ → Prop}
    (step : ∀ head tail, Ensures answers (inv (head :: tail)) (each head) (fun _ => inv tail) failed)
    (values : List β) : Ensures answers (inv values) (values.forM each) (fun _ => inv []) failed := by
  induction values with
  | nil => exact value fun _ holds => holds
  | cons head tail inductionHypothesis => exact (step head tail).bind fun _ => inductionHypothesis

/-- An assertion about a state that is known. -/
theorem known {op : Procedure ε ρ σ α} {post : α → σ → Prop}
    (each : ∀ state, pre state → Ensures answers (· = state) op post failed) :
    Ensures answers pre op post failed :=
  fun asked state holds => each state holds asked state rfl

/-- Two assertions about one procedure. -/
theorem both {op : Procedure ε ρ σ α} {first second : α → σ → Prop} {lost gone : σ → Prop}
    (one : Ensures answers pre op first lost) (other : Ensures answers pre op second gone) :
    Ensures answers pre op (fun value state => first value state ∧ second value state)
      (fun state => lost state ∧ gone state) := by
  intro asked state holds
  have here := one asked state holds
  have there := other asked state holds
  cases run : op answers asked state with
  | mk result asked' last =>
    rw [run] at here there
    cases result with
    | ok value => exact ⟨here, there⟩
    | error error => exact ⟨here, there⟩

/-- The steps of a procedure extend the steps that led to it, however it ends. -/
theorem ofTakes {R : σ → σ → Prop} {op : Procedure ε ρ σ α} {post : α → σ → Prop} {start : σ}
    (takes : Takes answers R pre op post) :
    Ensures answers (fun state => pre state ∧ ReflTransGen R start state) op
      (fun value state => post value state ∧ ReflTransGen R start state)
      (ReflTransGen R start) := by
  intro asked state holds
  obtain ⟨steps, returned⟩ := takes asked state holds.1
  cases run : op answers asked state with
  | mk result asked' last =>
    rw [run] at steps returned
    cases result with
    | ok value => exact ⟨returned value rfl, holds.2.trans steps⟩
    | error error => exact holds.2.trans steps

/-- What holds of the part of the state that `op` works on. -/
theorem zoom {ρ' σ' : Type} {part : σ → σ'} {put : σ' → σ → σ} {asks : ρ → ρ'}
    {op : Procedure ε ρ' σ' α} {post : α → σ' → Prop} {lost : σ' → Prop} {start : σ}
    (triple : Ensures (fun index => asks (answers index)) (· = part start) op post lost) :
    Ensures answers (· = start) (Procedure.zoom part put asks op)
      (fun value last => ∃ inner, post value inner ∧ last = put inner start)
      (fun last => ∃ inner, lost inner ∧ last = put inner start) := by
  rintro asked state rfl
  have ends := triple asked (part state) rfl
  simp only [Procedure.zoom]
  cases run : op (fun index => asks (answers index)) asked (part state) with
  | mk result asked' inner =>
    rw [run] at ends
    cases result with
    | ok value => exact ⟨inner, ends, rfl⟩
    | error error => exact ⟨inner, ends, rfl⟩

/-! ### From one known state to the next -/

section Known

variable {start : σ} {post : β → σ → Prop}

theorem thenRead {next : σ → Procedure ε ρ σ β}
    (rest : Ensures answers (· = start) (next start) post failed) :
    Ensures answers (· = start) (Procedure.current >>= next) post failed := by
  rintro asked state rfl
  exact rest asked state rfl

theorem thenAsk {next : ρ → Procedure ε ρ σ β}
    (rest : ∀ asked, Ensures answers (· = start) (next (answers asked)) post failed) :
    Ensures answers (· = start) (Procedure.answer >>= next) post failed :=
  fun asked state same => rest asked (asked + 1) state same

theorem thenValue {value : α} {next : α → Procedure ε ρ σ β}
    (rest : Ensures answers (· = start) (next value) post failed) :
    Ensures answers (· = start) (Pure.pure value >>= next) post failed :=
  rest

/-- A check whose failure is looked at. -/
theorem thenCheckOr {result : Except ε α} {next : α → Procedure ε ρ σ β}
    (fails : ∀ error, result = .error error → failed start)
    (rest : ∀ value, result = .ok value → Ensures answers (· = start) (next value) post failed) :
    Ensures answers (· = start) (Procedure.lift result >>= next) post failed := by
  rintro asked state rfl
  cases result with
  | ok value => exact rest value rfl asked state rfl
  | error error => exact fails error rfl

theorem thenCheck {result : Except ε α} {next : α → Procedure ε ρ σ β} (fails : failed start)
    (rest : ∀ value, result = .ok value → Ensures answers (· = start) (next value) post failed) :
    Ensures answers (· = start) (Procedure.lift result >>= next) post failed :=
  thenCheckOr (fun _ _ => fails) rest

theorem thenUpdate {change : σ → σ} {next : Unit → Procedure ε ρ σ β}
    (rest : Ensures answers (· = change start) (next ()) post failed) :
    Ensures answers (· = start) (Procedure.update change >>= next) post failed := by
  rintro asked state rfl
  exact rest asked (change state) rfl

theorem thenCall {op : Procedure ε ρ σ α} {next : α → Procedure ε ρ σ β} {mid : α → σ → Prop}
    (call : Ensures answers pre op mid failed) (ready : pre start)
    (rest : ∀ value state, mid value state → Ensures answers (· = state) (next value) post failed) :
    Ensures answers (· = start) (op >>= next) post failed := by
  have called : Ensures answers (· = start) op mid failed :=
    call.consequence (fun _ same => same ▸ ready) (fun _ _ => id) fun _ => id
  exact called.bind fun value => known fun state holds => rest value state holds

theorem tail {op : Procedure ε ρ σ β} (call : Ensures answers pre op post failed)
    (ready : pre start) : Ensures answers (· = start) op post failed :=
  fun asked state same => call asked state (same ▸ ready)

theorem thenAttempt {op : Procedure ε ρ σ α} {next : Except ε α → Procedure ε ρ σ β}
    {mid : α → σ → Prop} {lost : σ → Prop} (call : Ensures answers pre op mid lost) (ready : pre start)
    (returned : ∀ value state, mid value state →
      Ensures answers (· = state) (next (.ok value)) post failed)
    (fails : ∀ error state, lost state →
      Ensures answers (· = state) (next (.error error)) post failed) :
    Ensures answers (· = start) (Procedure.attempt op >>= next) post failed := by
  have tried : Ensures answers pre (Procedure.attempt op) (fun outcome state => match outcome with
      | .ok value => mid value state
      | .error _ => lost state) failed := call.attempt
  refine thenCall tried ready fun outcome state holds => ?_
  cases outcome with
  | ok value => exact returned value state holds
  | error error => exact fails error state holds

theorem done {value : β} (holds : post value start) :
    Ensures answers (· = start) (Pure.pure value : Procedure ε ρ σ β) post failed := by
  rintro asked state rfl
  exact holds

theorem updated {change : σ → σ} {post : Unit → σ → Prop} (holds : post () (change start)) :
    Ensures answers (· = start) (Procedure.update change : Procedure ε ρ σ Unit) post failed := by
  rintro asked state rfl
  exact holds

theorem checkedOr {result : Except ε β} (fails : ∀ error, result = .error error → failed start)
    (returns : ∀ value, result = .ok value → post value start) :
    Ensures answers (· = start) (Procedure.lift result) post failed := by
  rintro asked state rfl
  cases result with
  | ok value => exact returns value rfl
  | error error => exact fails error rfl

theorem checked {result : Except ε β} (fails : failed start)
    (returns : ∀ value, result = .ok value → post value start) :
    Ensures answers (· = start) (Procedure.lift result) post failed :=
  checkedOr (fun _ _ => fails) returns

theorem failing {error : ε} (holds : failed start) :
    Ensures answers (· = start) (Procedure.fail error : Procedure ε ρ σ β) post failed := by
  rintro asked state rfl
  exact holds

end Known

/-- What holds at the end, however the procedure ends. -/
theorem last {op : Procedure ε ρ σ α} {inv : σ → Prop}
    (triple : Ensures answers pre op (fun _ => inv) inv) (asked : Nat) {state : σ}
    (holds : pre state) : inv (op answers asked state).state := by
  have ends := triple asked state holds
  cases run : op answers asked state with
  | mk result asked' last =>
    rw [run] at ends
    cases result with
    | ok value => exact ends
    | error error => exact ends

/-- What holds of a value that was returned. -/
theorem returned {op : Procedure ε ρ σ α} {post : α → σ → Prop}
    (triple : Ensures answers pre op post failed) {asked : Nat} {state : σ} (holds : pre state)
    {value : α} (result : (op answers asked state).result = .ok value) :
    post value (op answers asked state).state := by
  have ends := triple asked state holds
  cases run : op answers asked state with
  | mk outcome asked' last =>
    rw [run] at ends result
    cases result
    exact ends

/-- What never fails returns something. -/
theorem succeeds {op : Procedure ε ρ σ α} {post : α → σ → Prop}
    (triple : Ensures answers pre op post fun _ => False) (asked : Nat) {state : σ}
    (holds : pre state) : ∃ value, (op answers asked state).result = .ok value ∧
      post value (op answers asked state).state := by
  have ends := triple asked state holds
  cases run : op answers asked state with
  | mk outcome asked' last =>
    rw [run] at ends
    cases outcome with
    | ok value => exact ⟨value, rfl, ends⟩
    | error error => exact ends.elim

end Ensures

/-! ## From one state and one answer on

`Ensures` forgets which answer is read where; what depends on the answers that come next is
said by `EndsAt`. -/

def EndsAt (answers : Nat → ρ) (asked : Nat) (state : σ) (op : Procedure ε ρ σ α)
    (post : α → σ → Prop) (failed : σ → Prop) : Prop :=
  match op answers asked state with
  | ⟨.ok value, _, last⟩ => post value last
  | ⟨.error _, _, last⟩ => failed last

theorem Ensures.at {answers : Nat → ρ} {pre failed : σ → Prop} {op : Procedure ε ρ σ α}
    {post : α → σ → Prop} (triple : Ensures answers pre op post failed) (asked : Nat) {state : σ}
    (ready : pre state) : EndsAt answers asked state op post failed :=
  triple asked state ready

namespace EndsAt

variable {answers : Nat → ρ} {asked : Nat} {state : σ} {post : β → σ → Prop} {failed : σ → Prop}

theorem bind {first : Procedure ε ρ σ α} {next : α → Procedure ε ρ σ β} {mid : α → σ → Prop}
    (start : EndsAt answers asked state first mid failed)
    (rest : ∀ value, Ensures answers (mid value) (next value) post failed) :
    EndsAt answers asked state (first >>= next) post failed := by
  simp only [EndsAt, Bind.bind] at start ⊢
  cases run : first answers asked state with
  | mk result asked' middle =>
    rw [run] at start
    cases result with
    | error error => exact start
    | ok value => exact rest value asked' middle start

theorem thenRead {next : σ → Procedure ε ρ σ β}
    (rest : EndsAt answers asked state (next state) post failed) :
    EndsAt answers asked state (Procedure.current >>= next) post failed :=
  rest

theorem thenAsk {next : ρ → Procedure ε ρ σ β}
    (rest : EndsAt answers (asked + 1) state (next (answers asked)) post failed) :
    EndsAt answers asked state (Procedure.answer >>= next) post failed :=
  rest

theorem thenUpdate {change : σ → σ} {next : Unit → Procedure ε ρ σ β}
    (rest : EndsAt answers asked (change state) (next ()) post failed) :
    EndsAt answers asked state (Procedure.update change >>= next) post failed :=
  rest

theorem thenCheck {result : Except ε α} {next : α → Procedure ε ρ σ β}
    (fails : ∀ error, result = .error error → failed state)
    (rest : ∀ value, result = .ok value → EndsAt answers asked state (next value) post failed) :
    EndsAt answers asked state (Procedure.lift result >>= next) post failed := by
  cases result with
  | ok value => exact rest value rfl
  | error error => exact fails error rfl

theorem done {value : β} (holds : post value state) :
    EndsAt answers asked state (Pure.pure value : Procedure ε ρ σ β) post failed :=
  holds

theorem failing {error : ε} (holds : failed state) :
    EndsAt answers asked state (Procedure.fail error : Procedure ε ρ σ β) post failed :=
  holds

/-- What the triple says of a failure. -/
theorem error {op : Procedure ε ρ σ β} (ends : EndsAt answers asked state op post failed)
    {error : ε} (failure : (op answers asked state).result = .error error) :
    failed (op answers asked state).state := by
  simp only [EndsAt] at ends
  cases run : op answers asked state with
  | mk result asked' last =>
    rw [run] at ends failure
    cases failure
    exact ends

end EndsAt

/-! ## Procedures that leave the state alone -/

/-- `op` never changes the state. -/
def ReadOnly (op : Procedure ε ρ σ α) : Prop :=
  ∀ answers asked state, (op answers asked state).state = state

/-- `op` changes nothing when it fails. -/
def Atomic (op : Procedure ε ρ σ α) : Prop :=
  ∀ answers asked state error, (op answers asked state).result = .error error →
    (op answers asked state).state = state

namespace ReadOnly

theorem current : ReadOnly (Procedure.current : Procedure ε ρ σ σ) := fun _ _ _ => rfl

theorem answer : ReadOnly (Procedure.answer : Procedure ε ρ σ ρ) := fun _ _ _ => rfl

theorem lift (value : Except ε α) : ReadOnly (Procedure.lift value : Procedure ε ρ σ α) :=
  fun _ _ _ => rfl

theorem value (value : α) : ReadOnly (Pure.pure value : Procedure ε ρ σ α) := fun _ _ _ => rfl

theorem bind {first : Procedure ε ρ σ α} {next : α → Procedure ε ρ σ β}
    (start : ReadOnly first) (rest : ∀ value, ReadOnly (next value)) :
    ReadOnly (first >>= next) := by
  intro answers asked state
  have same := start answers asked state
  simp only [Bind.bind]
  cases run : first answers asked state with
  | mk result asked' state' =>
    rw [run] at same
    cases result with
    | error error => exact same
    | ok value => exact (rest value answers asked' state').trans same

/-- Reading first does not make a procedure less atomic. -/
theorem bind_atomic {first : Procedure ε ρ σ α} {next : α → Procedure ε ρ σ β}
    (start : ReadOnly first) (rest : ∀ value, Atomic (next value)) :
    Atomic (first >>= next) := by
  intro answers asked state error
  have same := start answers asked state
  simp only [Bind.bind]
  cases run : first answers asked state with
  | mk result asked' state' =>
    rw [run] at same
    cases result with
    | error error => exact fun _ => same
    | ok value => exact fun failed => (rest value answers asked' state' error failed).trans same

theorem takes {op : Procedure ε ρ σ α} (reads : ReadOnly op) {answers : Nat → ρ}
    {R : σ → σ → Prop} {pre : σ → Prop} : Takes answers R pre op fun _ state => pre state := by
  intro asked state holds
  rw [reads answers asked state]
  exact ⟨.refl, fun _ _ => holds⟩

end ReadOnly

/-- What cannot fail may follow an atomic procedure. -/
theorem Atomic.bind_total {first : Procedure ε ρ σ α} {next : α → Procedure ε ρ σ β}
    (start : Atomic first)
    (total : ∀ value answers asked state error,
      (next value answers asked state).result ≠ .error error) :
    Atomic (first >>= next) := by
  intro answers asked state error
  have same := start answers asked state
  simp only [Bind.bind]
  cases run : first answers asked state with
  | mk result asked' state' =>
    rw [run] at same
    cases result with
    | error error => exact fun _ => same error rfl
    | ok value => exact fun failed => absurd failed (total value answers asked' state' error)

end Procedure

end Idk.Logic
