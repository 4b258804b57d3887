import Mathlib.Data.List.Basic

/-!
# Machines that read a stream

A machine reads a stream symbol by symbol and may emit symbols of its own.  What it makes
of a stream does not depend on how the stream is cut into chunks, and what one symbol
keeps a whole stream keeps.
-/

namespace Idk.Logic

universe u v w

variable {σ : Type u} {ι : Type v} {ο : Type w}

/-- What is read of the chunks, one after another. -/
def chunked (read : σ → List ι → σ × List ο) (state : σ) : List (List ι) → σ × List ο
  | [] => (state, [])
  | chunk :: rest =>
    let (next, emitted) := read state chunk
    let (last, others) := chunked read next rest
    (last, emitted ++ others)

/-- One symbol after another. -/
def machine (step : σ → ι → σ × List ο) (state : σ) : List ι → σ × List ο
  | [] => (state, [])
  | symbol :: rest =>
    let (next, emitted) := step state symbol
    let (last, others) := machine step next rest
    (last, emitted ++ others)

variable {step : σ → ι → σ × List ο}

@[simp] theorem machine_nil (state : σ) : machine step state [] = (state, []) := rfl

@[simp] theorem machine_cons (state : σ) (symbol : ι) (rest : List ι) :
    machine step state (symbol :: rest) =
      ((machine step (step state symbol).1 rest).1,
        (step state symbol).2 ++ (machine step (step state symbol).1 rest).2) := rfl

theorem machine_append (state : σ) (first second : List ι) :
    machine step state (first ++ second) =
      ((machine step (machine step state first).1 second).1,
        (machine step state first).2 ++ (machine step (machine step state first).1 second).2) := by
  induction first generalizing state with
  | nil => simp
  | cons symbol rest inductionHypothesis => simp [inductionHypothesis]

/-- Reading chunk by chunk is reading the whole. -/
theorem chunked_machine (state : σ) (chunks : List (List ι)) :
    chunked (machine step) state chunks = machine step state chunks.flatten := by
  induction chunks generalizing state with
  | nil => rfl
  | cons chunk rest inductionHypothesis =>
    simp [chunked, machine_append, inductionHypothesis]

theorem machine_keeps {inv : σ → Prop} (keeps : ∀ state symbol, inv state → inv (step state symbol).1)
    {state : σ} (start : inv state) (stream : List ι) : inv (machine step state stream).1 := by
  induction stream generalizing state with
  | nil => exact start
  | cons symbol rest inductionHypothesis => exact inductionHypothesis (keeps state symbol start)

end Idk.Logic
