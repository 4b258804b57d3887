import Mathlib.Data.List.Dedup
import Mathlib.Data.List.Rotate

/-!
# Neighbours in a cyclic order

The element that follows a point in a list in order, or the first one where none follows.  A
list may repeat an element; the neighbours are those among its distinct elements.
-/

namespace Idk.Logic

variable {α : Type} {before : α → α → Prop}

/-- The first element behind a point, or the first of all. -/
def following (before : α → α → Prop) [DecidableRel before] (points : List α) (point : α) :
    Option α :=
  (points.find? fun other => before point other).or points.head?

section Positions

variable {points positions : List α}

variable [DecidableRel before]

/-- A point that is not the last found is some position. -/
theorem following_mem {point : α} (some_ : points ≠ []) :
    ∃ found ∈ points, following before points point = some found := by
  rw [following]
  cases first : points.find? fun other => before point other with
  | some found => exact ⟨found, List.mem_of_find?_eq_some first, rfl⟩
  | none =>
    cases points with
    | nil => exact absurd rfl some_
    | cons head rest => exact ⟨head, List.mem_cons_self, rfl⟩

end Positions

/-! ## Around a cycle -/

/-- The place next to a place of a cycle, in either direction. -/
def turn (count index : Nat) (backwards : Bool) : Nat :=
  if backwards then (index + (count - 1)) % count else (index + 1) % count

section Cycles

variable {count index : Nat}

end Cycles

end Idk.Logic
