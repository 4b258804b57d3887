/-!
# Labelled transition systems

A system is a set of initial states and a labelled step relation.  `Run` keeps
the labels of a finite execution in order, so that a property of a whole
execution (how often something happened, what happened in between) can be read
from its trace instead of from counters added to the state.

**Main rules:**

- `Invariant.reachable`: what holds initially and is preserved by every step
  holds in every reachable state.
- `Run.keeps_until`: what every step keeps unless it releases it is still kept
  at the end of a run, or some step of that run released it.
- `restrict`: the executions all of whose steps meet a side condition.
-/

namespace Idk.Logic

universe u v

/-- A labelled transition system over states `σ` with labels `α`. -/
structure System (σ : Type u) (α : Type v) where
  init : σ → Prop
  step : σ → α → σ → Prop

namespace System

variable {σ : Type u} {α : Type v} {S : System σ α}

/-- A finite execution together with its labels, oldest first. -/
inductive Run (S : System σ α) : σ → List α → σ → Prop where
  | refl (state : σ) : Run S state [] state
  | tail {first middle last : σ} {trace : List α} {label : α} :
      Run S first trace middle → S.step middle label last → Run S first (trace ++ [label]) last

/-- A state that some execution from an initial state ends in. -/
def Reachable (S : System σ α) (state : σ) : Prop :=
  ∃ start trace, S.init start ∧ S.Run start trace state

theorem Run.single {first last : σ} {label : α} (taken : S.step first label last) :
    S.Run first [label] last :=
  Run.tail (Run.refl first) taken

theorem Run.trans {first middle last : σ} {before after : List α}
    (start : S.Run first before middle) (rest : S.Run middle after last) :
    S.Run first (before ++ after) last := by
  induction rest with
  | refl => simpa using start
  | tail _ taken inductionHypothesis =>
    rw [← List.append_assoc]
    exact Run.tail inductionHypothesis taken

theorem Run.cons {first middle last : σ} {label : α} {trace : List α}
    (taken : S.step first label middle) (rest : S.Run middle trace last) :
    S.Run first (label :: trace) last :=
  (Run.single taken).trans rest

/-- A sequence of labels that a function replays is an execution. -/
theorem Run.replay {next : σ → α → Option σ}
    (steps : ∀ {first last : σ} {label : α}, next first label = some last → S.step first label last)
    {first last : σ} {labels : List α} (replayed : labels.foldlM next first = some last) :
    S.Run first labels last := by
  induction labels generalizing first with
  | nil =>
    cases replayed
    exact Run.refl _
  | cons label rest inductionHypothesis =>
    rw [List.foldlM_cons] at replayed
    obtain ⟨middle, taken, replayed⟩ := Option.bind_eq_some_iff.mp replayed
    exact Run.cons (steps taken) (inductionHypothesis replayed)

theorem Reachable.start {state : σ} (initial : S.init state) : S.Reachable state :=
  ⟨state, [], initial, Run.refl state⟩

theorem Reachable.run {first last : σ} {trace : List α} (reachable : S.Reachable first)
    (run : S.Run first trace last) : S.Reachable last := by
  obtain ⟨start, before, initial, execution⟩ := reachable
  exact ⟨start, before ++ trace, initial, execution.trans run⟩

theorem Reachable.step {first last : σ} {label : α} (reachable : S.Reachable first)
    (taken : S.step first label last) : S.Reachable last :=
  reachable.run (Run.single taken)

/-! ## Invariants -/

/-- `Preserved S inv`: every step from a state with `inv` ends in one. -/
def Preserved (S : System σ α) (inv : σ → Prop) : Prop :=
  ∀ ⦃first label last⦄, inv first → S.step first label last → inv last

/-- An inductive invariant. -/
structure Invariant (S : System σ α) (inv : σ → Prop) : Prop where
  initial : ∀ ⦃state⦄, S.init state → inv state
  preserved : S.Preserved inv

theorem Preserved.run {inv : σ → Prop} (preserved : S.Preserved inv) {first last : σ}
    {trace : List α} (run : S.Run first trace last) (holds : inv first) : inv last := by
  induction run with
  | refl => exact holds
  | tail _ taken inductionHypothesis => exact preserved inductionHypothesis taken

theorem Invariant.reachable {inv : σ → Prop} (invariant : S.Invariant inv) {state : σ}
    (reachable : S.Reachable state) : inv state := by
  obtain ⟨start, trace, initial, run⟩ := reachable
  exact invariant.preserved.run run (invariant.initial initial)

/-- An invariant may be strengthened step by step: a second one may assume the
    first. -/
theorem Invariant.and {inv strong : σ → Prop} (invariant : S.Invariant inv)
    (initial : ∀ ⦃state⦄, S.init state → strong state)
    (preserved : ∀ ⦃first label last⦄, inv first → strong first →
      S.step first label last → strong last) :
    S.Invariant fun state => inv state ∧ strong state where
  initial _ start := ⟨invariant.initial start, initial start⟩
  preserved _ _ _ holds taken :=
    ⟨invariant.preserved holds.1 taken, preserved holds.1 holds.2 taken⟩

/-- A counter of the state counts the steps of one kind when every step of that
    kind advances it by one and no other step moves it. -/
theorem Run.counts {counter : σ → Nat} {kind : α → Bool} {inv : σ → Prop}
    (preserved : S.Preserved inv)
    (advances : ∀ ⦃first label last⦄, inv first → S.step first label last →
      counter last = counter first + if kind label then 1 else 0)
    {first last : σ} {trace : List α} (run : S.Run first trace last) (holds : inv first) :
    counter last = counter first + trace.countP kind := by
  induction run with
  | refl => simp
  | tail earlier taken inductionHypothesis =>
    have advanced := advances (preserved.run earlier holds) taken
    rw [advanced, inductionHypothesis, List.countP_append, List.countP_singleton]
    omega

/-! ## Keeping something until it is released -/

/-- Some step of the execution is a `released` one. -/
def Run.Released (released : σ → α → σ → Prop) (S : System σ α) (first : σ) (trace : List α)
    (last : σ) : Prop :=
  ∃ before label after left right, trace = before ++ label :: after ∧
    S.Run first before left ∧ S.step left label right ∧ released left label right ∧
    S.Run right after last

theorem Run.keeps_until (inv keep : σ → Prop) (released : σ → α → σ → Prop)
    (preserved : S.Preserved inv)
    (keeps : ∀ ⦃first label last⦄, inv first → keep first → S.step first label last →
      keep last ∨ released first label last)
    {first last : σ} {trace : List α} (run : S.Run first trace last)
    (holds : inv first) (kept : keep first) :
    keep last ∨ Run.Released released S first trace last := by
  induction run with
  | refl => exact .inl kept
  | @tail middle last trace label earlier taken inductionHypothesis =>
    rcases inductionHypothesis with still | ⟨before, event, after, left, right, split,
      start, happened, releases, rest⟩
    · rcases keeps (preserved.run earlier holds) still taken with still | releases
      · exact .inl still
      · exact .inr ⟨trace, label, [], middle, last, rfl, earlier, taken, releases, Run.refl last⟩
    · refine .inr ⟨before, event, after ++ [label], left, right, ?_, start, happened, releases,
        Run.tail rest taken⟩
      rw [split]; simp

/-! ## Side conditions on steps -/

/-- The executions all of whose steps meet `condition`. -/
def restrict (S : System σ α) (condition : σ → α → Prop) : System σ α where
  init := S.init
  step first label last := S.step first label last ∧ condition first label

theorem restrict_run {condition : σ → α → Prop} {first last : σ} {trace : List α}
    (run : (S.restrict condition).Run first trace last) : S.Run first trace last := by
  induction run with
  | refl => exact Run.refl _
  | tail _ taken inductionHypothesis => exact Run.tail inductionHypothesis taken.1

theorem restrict_reachable {condition : σ → α → Prop} {state : σ}
    (reachable : (S.restrict condition).Reachable state) : S.Reachable state := by
  obtain ⟨start, trace, initial, run⟩ := reachable
  exact ⟨start, trace, initial, restrict_run run⟩

theorem Preserved.restrict {inv : σ → Prop} (preserved : S.Preserved inv)
    (condition : σ → α → Prop) : (S.restrict condition).Preserved inv :=
  fun _ _ _ holds taken => preserved holds taken.1

end System

end Idk.Logic
