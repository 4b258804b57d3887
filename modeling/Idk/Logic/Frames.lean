import Idk.Logic.Procedure
import Mathlib.Order.Defs.Unbundled

/-!
# What a procedure leaves alone

`Stays R op`: wherever `op` starts, and however it ends, the state it leaves is related to that
by `R`.  For a preorder `R` this is composed along the procedure, whatever it computes: a part of
the state that no update changes is shown to be left alone without a word about the rest.
-/

namespace Idk.Logic

variable {ε ρ σ α β : Type}

namespace Procedure

theorem bind_assoc {γ : Type} (op : Procedure ε ρ σ α) (next : α → Procedure ε ρ σ β)
    (rest : β → Procedure ε ρ σ γ) :
    op >>= next >>= rest = op >>= fun value => next value >>= rest := by
  funext answers asked state
  simp only [Bind.bind]
  cases op answers asked state with
  | mk result asked' last => cases result <;> rfl

theorem id_map (op : Procedure ε ρ σ α) : id <$> op = op := by
  funext answers asked state
  simp only [Functor.map]
  cases op answers asked state with
  | mk result asked' last => cases result <;> rfl

instance : LawfulMonad (Procedure ε ρ σ) :=
  LawfulMonad.mk' _ id_map (fun _ _ => rfl) bind_assoc

/-- What a procedure computes besides does not change what it does. -/
theorem map_state (f : α → β) (op : Procedure ε ρ σ α) (answers : Nat → ρ) (asked : Nat)
    (state : σ) : ((f <$> op) answers asked state).state = (op answers asked state).state := by
  simp only [Functor.map]
  cases op answers asked state with
  | mk result asked' last => cases result <;> rfl

def Stays (R : σ → σ → Prop) (op : Procedure ε ρ σ α) : Prop :=
  ∀ answers asked state, R state (op answers asked state).state

namespace Stays

section Reflexive

variable {R : σ → σ → Prop} [Std.Refl R]

theorem value {value : α} : Stays R (Pure.pure value : Procedure ε ρ σ α) :=
  fun _ _ state => Std.Refl.refl state

theorem current : Stays R (Procedure.current : Procedure ε ρ σ σ) :=
  fun _ _ state => Std.Refl.refl state

theorem answer : Stays R (Procedure.answer : Procedure ε ρ σ ρ) :=
  fun _ _ state => Std.Refl.refl state

theorem lift {result : Except ε α} : Stays R (Procedure.lift result : Procedure ε ρ σ α) :=
  fun _ _ state => Std.Refl.refl state

theorem fail {error : ε} : Stays R (Procedure.fail error : Procedure ε ρ σ α) :=
  fun _ _ state => Std.Refl.refl state

end Reflexive

variable {R : σ → σ → Prop}

theorem update {change : σ → σ} (step : ∀ state, R state (change state)) :
    Stays R (Procedure.update change : Procedure ε ρ σ Unit) :=
  fun _ _ state => step state

theorem attempt {op : Procedure ε ρ σ α} (stays : Stays R op) : Stays R (Procedure.attempt op) :=
  stays

theorem branch {condition : Prop} [Decidable condition] {first second : Procedure ε ρ σ α}
    (yes : Stays R first) (no : Stays R second) :
    Stays R (if condition then first else second) := by
  split
  · exact yes
  · exact no

theorem bind [IsTrans σ R] {first : Procedure ε ρ σ α} {next : α → Procedure ε ρ σ β}
    (start : Stays R first) (rest : ∀ value, Stays R (next value)) : Stays R (first >>= next) := by
  intro answers asked state
  have begun := start answers asked state
  simp only [Bind.bind]
  cases run : first answers asked state with
  | mk result asked' middle =>
    rw [run] at begun
    cases result with
    | error error => exact begun
    | ok value => exact IsTrans.trans _ _ _ begun (rest value answers asked' middle)

theorem iterate [IsPreorder σ R] {body : Procedure ε ρ σ Bool} (each : Stays R body)
    (fuel : Nat) : Stays R (Procedure.iterate body fuel) := by
  induction fuel with
  | zero => exact value
  | succ fuel inductionHypothesis => exact each.bind fun again => branch inductionHypothesis value

theorem forM [IsPreorder σ R] {each : β → Procedure ε ρ σ PUnit}
    (kept : ∀ value, Stays R (each value)) (values : List β) : Stays R (values.forM each) := by
  induction values with
  | nil => exact value
  | cons head tail inductionHypothesis => exact (kept head).bind fun _ => inductionHypothesis

/-- A part of the state of which `R` says nothing. -/
theorem zoom {ρ' σ' : Type} {part : σ → σ'} {place : σ' → σ → σ} {asks : ρ → ρ'}
    {op : Procedure ε ρ' σ' α} (beside : ∀ inner state, R state (place inner state)) :
    Stays R (Procedure.zoom part place asks op) :=
  fun _ _ state => beside _ state

end Stays

/-! ## What is returned -/

/-- Whatever the state is, what `op` returns is like this. -/
def Returns (post : α → Prop) (op : Procedure ε ρ σ α) : Prop :=
  ∀ answers asked state value, (op answers asked state).result = .ok value → post value

namespace Returns

variable {post : β → Prop}

theorem value {value : β} (holds : post value) :
    Returns post (Pure.pure value : Procedure ε ρ σ β) := by
  rintro answers asked state _ ⟨⟩
  exact holds

theorem fail {error : ε} : Returns post (Procedure.fail error : Procedure ε ρ σ β) := by
  rintro answers asked state value ⟨⟩

/-- What the last part returns, whatever it is given. -/
theorem after {first : Procedure ε ρ σ α} {next : α → Procedure ε ρ σ β}
    (rest : ∀ value, Returns post (next value)) : Returns post (first >>= next) := by
  intro answers asked state value same
  simp only [Bind.bind] at same
  cases run : first answers asked state with
  | mk result asked' middle =>
    rw [run] at same
    cases result with
    | error error => cases same
    | ok given => exact rest given answers asked' middle value same

theorem check {result : Except ε α} {next : α → Procedure ε ρ σ β}
    (rest : ∀ value, result = .ok value → Returns post (next value)) :
    Returns post (Procedure.lift result >>= next) := by
  intro answers asked state value same
  cases result with
  | error error => cases same
  | ok given => exact rest given rfl answers asked state value same

end Returns

/-- What is returned and what is left alone, as a triple. -/
theorem Stays.ensures {R : σ → σ → Prop} {op : Procedure ε ρ σ α} {post : α → Prop}
    (stays : Stays R op) (returns : Returns post op) {answers : Nat → ρ} {start : σ} :
    Ensures answers (· = start) op (fun value last => post value ∧ R start last) (R start) := by
  rintro asked state rfl
  have related := stays answers asked state
  have returned := returns answers asked state
  cases run : op answers asked state with
  | mk result asked' last =>
    rw [run] at related returned
    cases result with
    | ok value => exact ⟨returned value rfl, related⟩
    | error error => exact related

/-- What a procedure does, and what it leaves alone meanwhile. -/
theorem Ensures.beside {R : σ → σ → Prop} {op : Procedure ε ρ σ α} {post : α → σ → Prop}
    {failed : σ → Prop} {answers : Nat → ρ} {start : σ}
    (triple : Ensures answers (· = start) op post failed) (stays : Stays R op) :
    Ensures answers (· = start) op (fun value last => post value last ∧ R start last)
      (fun last => failed last ∧ R start last) := by
  rintro asked state rfl
  have ends := triple asked state rfl
  have related := stays answers asked state
  cases run : op answers asked state with
  | mk result asked' last =>
    rw [run] at ends related
    cases result with
    | ok value => exact ⟨ends, related⟩
    | error error => exact ⟨ends, related⟩

/-- What is left alone, as a triple. -/
theorem Stays.ends {R : σ → σ → Prop} {op : Procedure ε ρ σ α} (stays : Stays R op)
    {answers : Nat → ρ} {start : σ} :
    Ensures answers (· = start) op (fun _ => R start) (R start) :=
  (stays.ensures fun _ _ _ _ _ => trivial).consequence (fun _ => id) (fun _ _ ends => ends.2)
    fun _ => id

end Procedure

end Idk.Logic
