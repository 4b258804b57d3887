import Mathlib.Algebra.Ring.Int.Defs
import Mathlib.Algebra.Ring.Nat
import Mathlib.Data.List.Basic

/-!
# Fields behind their lengths

**Main rule:** `framed_injective`: fields that are written one after another, each behind its
length, are known from what is written.
-/

namespace Idk.Logic

/-! ## Numbers by their places -/

/-- The lowest places of a number to the base 256, the lowest one first. -/
def places (width value : Nat) : List UInt8 :=
  (List.range width).map fun place => UInt8.ofNat (value / 256 ^ place)

@[simp] theorem length_places (width value : Nat) : (places width value).length = width := by
  simp [places]

theorem places_succ (width value : Nat) :
    places (width + 1) value = UInt8.ofNat value :: places width (value / 256) := by
  have later (place : Nat) : value / 256 ^ (place + 1) = value / 256 / 256 ^ place := by
    rw [Nat.div_div_eq_div_mul, Nat.pow_succ, Nat.mul_comm]
  simp [places, List.range_succ_eq_map, Function.comp_def, later]

/-- A number below the limit of its width is known from its places. -/
theorem places_injective {width first second : Nat} (small : first < 256 ^ width)
    (short : second < 256 ^ width) (same : places width first = places width second) :
    first = second := by
  induction width generalizing first second with
  | zero => omega
  | succ width inductionHypothesis =>
    rw [places_succ, places_succ, List.cons.injEq] at same
    have rest := inductionHypothesis (Nat.div_lt_of_lt_mul (by rw [Nat.pow_succ] at small; omega))
      (Nat.div_lt_of_lt_mul (by rw [Nat.pow_succ] at short; omega)) same.2
    have lowest : first % 256 = second % 256 := by
      simpa using congrArg UInt8.toNat same.1
    omega

/-! ## Frames -/

section Frames

universe u

variable {α : Type u} {size : Nat → List α} {limit : Nat}

/-- Lengths below the limit are written at one width, and known from what is written. -/
structure Sizes (size : Nat → List α) (limit : Nat) : Prop where
  width : ∀ first second, (size first).length = (size second).length
  some_ : ∀ length, size length ≠ []
  known : ∀ first second, first < limit → second < limit → size first = size second →
    first = second

def frame (size : Nat → List α) (field : List α) : List α := size field.length ++ field

def framed (size : Nat → List α) (fields : List (List α)) : List α := fields.flatMap (frame size)

@[simp] theorem framed_nil : framed size [] = [] := rfl

@[simp] theorem framed_cons {field : List α} {fields : List (List α)} :
    framed size (field :: fields) = frame size field ++ framed size fields := by
  simp [framed]

theorem framed_append {first second : List (List α)} :
    framed size (first ++ second) = framed size first ++ framed size second := by
  simp [framed]

/-- A field is not longer than what it is written with. -/
theorem length_le_framed {field : List α} {fields : List (List α)} (mem : field ∈ fields) :
    field.length ≤ (framed size fields).length := by
  induction fields with
  | nil => cases mem
  | cons head rest inductionHypothesis =>
    rw [framed_cons, frame, List.length_append, List.length_append]
    cases List.mem_cons.mp mem with
    | inl here => rw [here]; omega
    | inr later =>
      have := inductionHypothesis later
      omega

/-- The first field and what follows it are known. -/
theorem frame_append (sizes : Sizes size limit) {first second left right : List α}
    (small : first.length < limit) (short : second.length < limit)
    (same : frame size first ++ left = frame size second ++ right) :
    first = second ∧ left = right := by
  rw [frame, frame, List.append_assoc, List.append_assoc] at same
  obtain ⟨lengths, rest⟩ := List.append_inj same (sizes.width _ _)
  exact List.append_inj rest (sizes.known _ _ small short lengths)

theorem framed_injective (sizes : Sizes size limit) {left right : List (List α)}
    (small : ∀ field ∈ left, field.length < limit)
    (short : ∀ field ∈ right, field.length < limit) (same : framed size left = framed size right) :
    left = right := by
  have some_ (field : List α) (rest : List α) : frame size field ++ rest ≠ [] := by
    simp [frame, sizes.some_]
  induction left generalizing right with
  | nil =>
    cases right with
    | nil => rfl
    | cons field rest =>
      rw [framed_cons] at same
      exact absurd same.symm (some_ _ _)
  | cons field rest inductionHypothesis =>
    cases right with
    | nil =>
      rw [framed_cons] at same
      exact absurd same (some_ _ _)
    | cons other others =>
      rw [framed_cons, framed_cons] at same
      obtain ⟨here, later⟩ := frame_append sizes (small field List.mem_cons_self)
        (short other List.mem_cons_self) same
      rw [here, inductionHypothesis (fun field mem => small field (List.mem_cons_of_mem _ mem))
        (fun field mem => short field (List.mem_cons_of_mem _ mem)) later]

/-- What is short as a whole is short in every field, so that it is known without a bound of
    its own for each of them. -/
theorem framed_known (sizes : Sizes size limit) {left right : List (List α)}
    (short : (framed size left).length < limit) (same : framed size left = framed size right) :
    left = right :=
  framed_injective sizes (fun _ mem => Nat.lt_of_le_of_lt (length_le_framed mem) short)
    (fun _ mem => Nat.lt_of_le_of_lt (length_le_framed mem) (same ▸ short)) same

end Frames

end Idk.Logic
